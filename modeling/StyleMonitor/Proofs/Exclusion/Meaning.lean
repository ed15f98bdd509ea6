import StyleMonitor.Exclusion
import StyleMonitor.Proofs.Text.Rows
import StyleMonitor.Text.Fields

/-!
# What exclusion patterns mean

The stars of a pattern part it into pieces. A text has the form of the pattern if it is the pieces
in order, with text of one line between each two. A line of an ignore file covers the paths of its
form and, if it ends in a slash, what stands below them.
-/

namespace StyleMonitor

namespace Text

theorem dropFinal_eq {α : Type} [DecidableEq α] (x : α) (s : List α) :
    dropFinal x s = if s.getLast? = some x then s.dropLast else s := by
  fun_induction dropFinal x s with
  | case1 => rfl
  | case2 => simp_all
  | case3 => simp_all
  | case4 c d rest ih =>
    rw [ih, List.getLast?_cons_cons, List.dropLast_cons_cons]
    split <;> rfl

end Text

namespace Exclusion

/-- The symbols match a text from its start to its end. -/
inductive Fits : List Symbol → List Char → Prop where
  | done : Fits [] []
  | literal {symbols : List Symbol} {s : List Char} (c : Char) : Fits symbols s →
    Fits (.literal c :: symbols) (c :: s)
  | anyRun {symbols : List Symbol} {s : List Char} (run : List Char) : '\n' ∉ run →
    Fits symbols s → Fits (.anyRun :: symbols) (run ++ s)

variable {symbols : List Symbol} {s : List Char}

namespace Fits

theorem nil_iff : Fits [] s ↔ s = [] := by
  constructor
  · rintro ⟨⟩
    rfl
  · rintro rfl
    exact done

theorem literal_iff {c : Char} : Fits (.literal c :: symbols) s ↔
    ∃ rest, s = c :: rest ∧ Fits symbols rest := by
  constructor
  · rintro (_ | ⟨_, fits⟩)
    exact ⟨_, rfl, fits⟩
  · rintro ⟨rest, rfl, fits⟩
    exact literal c fits

theorem anyRun_iff : Fits (.anyRun :: symbols) s ↔
    ∃ run rest, s = run ++ rest ∧ '\n' ∉ run ∧ Fits symbols rest := by
  constructor
  · rintro (_ | _ | ⟨run, clean, fits⟩)
    exact ⟨run, _, rfl, clean, fits⟩
  · rintro ⟨run, rest, rfl, clean, fits⟩
    exact anyRun run clean fits

/-- What stands below a path, after the path itself. -/
theorem below_iff : Fits [.literal '/', .anyRun] s ↔
    ∃ inside, s = '/' :: inside ∧ '\n' ∉ inside := by
  simp only [literal_iff, anyRun_iff, nil_iff]
  constructor
  · rintro ⟨rest, rfl, run, last, rfl, clean, rfl⟩
    exact ⟨run ++ [], rfl, by simpa using clean⟩
  · rintro ⟨inside, rfl, clean⟩
    exact ⟨inside, rfl, inside, [], (List.append_nil _).symm, clean, rfl⟩

theorem append_iff {more : List Symbol} : Fits (symbols ++ more) s ↔
    ∃ front back, s = front ++ back ∧ Fits symbols front ∧ Fits more back := by
  constructor
  · intro fits
    induction symbols generalizing s with
    | nil => exact ⟨[], s, rfl, done, fits⟩
    | cons symbol symbols ih =>
      cases symbol with
      | literal c =>
        obtain ⟨rest, rfl, later⟩ := literal_iff.mp fits
        obtain ⟨front, back, rfl, first, second⟩ := ih later
        exact ⟨c :: front, back, rfl, literal c first, second⟩
      | anyRun =>
        obtain ⟨run, rest, rfl, clean, later⟩ := anyRun_iff.mp fits
        obtain ⟨front, back, rfl, first, second⟩ := ih later
        exact ⟨run ++ front, back, (List.append_assoc ..).symm, anyRun run clean first, second⟩
  · rintro ⟨front, back, rfl, first, second⟩
    induction first with
    | done => exact second
    | literal c _ ih => exact literal c ih
    | anyRun run clean _ ih => exact List.append_assoc .. ▸ anyRun run clean ih

end Fits

/-- The test of a text that the rows of some symbols stand for. -/
def accepts : List Symbol → List Char → Bool
  | [] => List.isEmpty
  | .literal c :: rest => Text.takesOne (· == c) (accepts rest)
  | .anyRun :: rest => Text.takesRun (· != '\n') (accepts rest)

theorem suffixRow_eq (symbols : List Symbol) (s : List Char) :
    suffixRow symbols s = Text.rowOf (accepts symbols) s := by
  induction symbols with
  | nil => exact Text.endRow_eq s
  | cons symbol rest ih =>
    cases symbol with
    | literal c => rw [suffixRow, ih, Text.oneRow_rowOf, accepts]
    | anyRun => rw [suffixRow, ih, Text.runRow_rowOf, accepts]

theorem accepts_iff : accepts symbols s = true ↔ Fits symbols s := by
  induction symbols generalizing s with
  | nil => rw [accepts, Fits.nil_iff, List.isEmpty_iff]
  | cons symbol rest ih =>
    cases symbol with
    | literal c =>
      rw [accepts, Text.takesOne_iff, Fits.literal_iff]
      constructor
      · rintro ⟨d, after, rfl, same, later⟩
        exact ⟨after, by rw [eq_of_beq same], ih.mp later⟩
      · rintro ⟨after, rfl, fits⟩
        exact ⟨c, after, rfl, beq_self_eq_true c, ih.mpr fits⟩
    | anyRun =>
      rw [accepts, Text.takesRun_iff, Fits.anyRun_iff]
      have clean (run : List Char) : (∀ c ∈ run, (c != '\n') = true) ↔ '\n' ∉ run := by
        simp only [bne_iff_ne]
        exact ⟨fun apart member => apart _ member rfl,
          fun none c member same => none (same ▸ member)⟩
      simp only [clean, ih]

/-- The rows find a match exactly when there is one, whatever way the runs part the text. -/
theorem matchesAll_iff : matchesAll symbols s = true ↔ Fits symbols s := by
  rw [matchesAll, suffixRow_eq, Text.headD_rowOf, accepts_iff]

/-- The pieces in order, with text of one line between each two. -/
inductive Spaced : List (List Char) → List Char → Prop where
  | last (piece : List Char) : Spaced [piece] piece
  | more {pieces : List (List Char)} {s : List Char} (piece gap : List Char) : '\n' ∉ gap →
    Spaced pieces s → Spaced (piece :: pieces) (piece ++ (gap ++ s))

namespace Spaced

variable {piece : List Char} {pieces : List (List Char)}

theorem singleton_iff : Spaced [piece] s ↔ s = piece := by
  constructor
  · rintro (_ | ⟨_, _, _, none⟩)
    · rfl
    · cases none
  · rintro rfl
    exact last s

theorem nil_cons_iff (some : pieces ≠ []) : Spaced ([] :: pieces) s ↔
    ∃ gap rest, s = gap ++ rest ∧ '\n' ∉ gap ∧ Spaced pieces rest := by
  constructor
  · rintro (_ | ⟨_, gap, clean, spaced⟩)
    · exact absurd rfl some
    · exact ⟨gap, _, rfl, clean, spaced⟩
  · rintro ⟨gap, rest, rfl, clean, spaced⟩
    exact more [] gap clean spaced

theorem cons_cons_iff {c : Char} : Spaced ((c :: piece) :: pieces) s ↔
    ∃ rest, s = c :: rest ∧ Spaced (piece :: pieces) rest := by
  constructor
  · rintro (_ | ⟨_, gap, clean, spaced⟩)
    · exact ⟨piece, rfl, last piece⟩
    · exact ⟨_, rfl, more piece gap clean spaced⟩
  · rintro ⟨rest, rfl, _ | ⟨_, gap, clean, spaced⟩⟩
    · exact last (c :: piece)
    · exact more (c :: piece) gap clean spaced

end Spaced

/-- The symbols of a text match what its pieces between the stars make up. -/
theorem fits_ofChar_iff (body : List Char) :
    Fits (body.map Symbol.ofChar) s ↔ Spaced (Text.fields '*' body) s := by
  induction body generalizing s with
  | nil => rw [List.map_nil, Fits.nil_iff, Text.fields, Spaced.singleton_iff]
  | cons c rest ih =>
    rw [List.map_cons, Symbol.ofChar, Text.fields]
    split
    · simp only [Fits.anyRun_iff, Spaced.nil_cons_iff (Text.fields_ne_nil '*' rest), ih]
    · split
      · next none => exact absurd none (Text.fields_ne_nil '*' rest)
      · next piece pieces found => simp only [Fits.literal_iff, Spaced.cons_cons_iff, ih, found]

/-- The pieces of a line between its stars, a final slash left out. -/
def pieces (line : List Char) : List (List Char) :=
  Text.fields '*' (Text.dropFinal '/' line)

/-- What a line of an ignore file covers: what has the form of the line and, if the line ends in a
slash, what stands below it. -/
inductive Covers (line : List Char) : List Char → Prop where
  | whole {path : List Char} : Spaced (pieces line) path → Covers line path
  | below {path : List Char} (inside : List Char) : line.getLast? = some '/' →
    Spaced (pieces line) path → '\n' ∉ inside → Covers line (path ++ '/' :: inside)

/-- The symbols of a line, a final slash left out. -/
def symbolsOf (line : List Char) : List Symbol :=
  (Text.dropFinal '/' line).map Symbol.ofChar

/-- What a line covers is matched by its symbols, up to what stands below. -/
theorem covers_iff {line path : List Char} : Covers line path ↔
    ∃ front back, path = front ++ back ∧ Fits (symbolsOf line) front ∧
      (back = [] ∨ line.getLast? = some '/' ∧ Fits [.literal '/', .anyRun] back) := by
  have form {path : List Char} : Fits (symbolsOf line) path ↔ Spaced (pieces line) path :=
    fits_ofChar_iff (Text.dropFinal '/' line)
  simp only [form, Fits.below_iff]
  constructor
  · rintro (whole | ⟨inside, slash, spaced, clean⟩)
    · exact ⟨path, [], (List.append_nil path).symm, whole, Or.inl rfl⟩
    · exact ⟨_, _, rfl, spaced, Or.inr ⟨slash, inside, rfl, clean⟩⟩
  · rintro ⟨front, back, rfl, spaced, rfl | ⟨slash, inside, rfl, clean⟩⟩
    · exact .whole ((List.append_nil front).symm ▸ spaced)
    · exact .below inside slash spaced clean

/-- Whether a line, without the blanks it ends with, holds a pattern: it is not blank and does not
start with `#`. -/
def HoldsPattern (line : List Char) : Prop :=
  line ≠ [] ∧ line.head? ≠ some '#'

instance (line : List Char) : Decidable (HoldsPattern line) :=
  inferInstanceAs (Decidable (_ ∧ _))

/-- The lines that hold a pattern, without the blanks they end with. -/
def patternLines (lines : List String) : List (List Char) :=
  (lines.map fun line => Text.trimEnd line.toList).filter fun line => HoldsPattern line

namespace Pattern

/-- The pattern that a line holds. -/
def ofSource (line : List Char) : Pattern where
  source := String.ofList line
  symbols := symbolsOf line
  directory := line.getLast? == some '/'

theorem ofLine?_eq (line : List Char) : ofLine? line =
    if HoldsPattern (Text.trimEnd line) then some (ofSource (Text.trimEnd line)) else none := by
  rw [ofLine?]
  split
  · next none => rw [if_neg fun holds => holds.1 none]
  · next comment => rw [if_neg fun holds => holds.2 (by rw [comment, List.head?_cons])]
  · next some plain =>
    have holds : HoldsPattern (Text.trimEnd line) := ⟨some, fun head => by
      obtain ⟨rest, comment⟩ := List.head?_eq_some_iff.mp head
      exact plain rest comment⟩
    simp only [if_pos holds, ofSource, symbolsOf, Text.dropFinal_eq, beq_iff_eq]

theorem isMatch_ofSource {line path : List Char} :
    (ofSource line).isMatch path = true ↔ Covers line path := by
  rw [isMatch, Bool.or_eq_true, Bool.and_eq_true, matchesAll_iff, matchesAll_iff, Fits.append_iff,
    covers_iff]
  simp only [ofSource, beq_iff_eq]
  constructor
  · rintro (whole | ⟨slash, front, back, split, fits, below⟩)
    · exact ⟨path, [], (List.append_nil path).symm, whole, Or.inl rfl⟩
    · exact ⟨front, back, split, fits, Or.inr ⟨slash, below⟩⟩
  · rintro ⟨front, back, split, fits, rfl | ⟨slash, below⟩⟩
    · exact Or.inl (by rwa [split, List.append_nil])
    · exact Or.inr ⟨slash, front, back, split, fits, below⟩

end Pattern

end Exclusion

namespace Exclusions

open Exclusion

variable {lines : List String} {path : String}

/-- The patterns of some lines are those of the lines that hold one. -/
theorem patterns_ofLines (lines : List String) :
    (ofLines lines).patterns = (patternLines lines).map Pattern.ofSource := by
  induction lines with
  | nil => rfl
  | cons line rest ih =>
    simp only [ofLines, patternLines] at ih ⊢
    rw [List.filterMap_cons, ih, Pattern.ofLine?_eq, List.map_cons, List.filter_cons]
    by_cases holds : HoldsPattern (Text.trimEnd line.toList)
    · simp only [holds, decide_true, if_true, List.map_cons]
    · simp only [holds, decide_false, if_false, Bool.false_eq_true]

theorem excludes_ofLines_iff : (ofLines lines).excludes path = true ↔
    ∃ line ∈ patternLines lines, Covers line path.toList := by
  rw [excludes, patterns_ofLines, List.any_map, List.any_eq_true]
  simp only [Function.comp_apply, Pattern.isMatch_ofSource]

/-- The pattern that is named is the first line that covers the path. -/
theorem matching?_ofLines_iff {source : String} : (ofLines lines).matching? path = some source ↔
    ∃ earlier line later, patternLines lines = earlier ++ line :: later ∧
      String.ofList line = source ∧ Covers line path.toList ∧
      ∀ other ∈ earlier, ¬ Covers other path.toList := by
  rw [matching?, patterns_ofLines, List.find?_map, Option.map_map, Option.map_eq_some_iff]
  simp only [List.find?_eq_some_iff_append, Function.comp_apply, Pattern.isMatch_ofSource,
    Bool.not_eq_true', ← Bool.not_eq_true]
  constructor
  · rintro ⟨line, ⟨covers, earlier, later, lines, first⟩, rfl⟩
    exact ⟨earlier, line, later, lines, rfl, covers, first⟩
  · rintro ⟨earlier, line, later, lines, rfl, covers, first⟩
    exact ⟨line, ⟨covers, earlier, later, lines, first⟩, rfl⟩

end Exclusions

end StyleMonitor
