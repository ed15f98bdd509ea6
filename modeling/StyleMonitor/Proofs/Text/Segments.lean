import Mathlib.Data.List.Basic
import StyleMonitor.Proofs.Text.Bytes
import StyleMonitor.Proofs.Text.Lines

/-!
# Where a sequence is cut

The segments of two parts come from those of each part: the last one of the first part, where it is
not ended, goes on in the second. The segments of the bytes of a text are the bytes of its segments.
And there is one way only to see bytes as lines, which is the one that the segments give.
-/

namespace StyleMonitor.Text

section Parts

variable {α : Type}

/-- Segments whose first one goes on from a piece. -/
def lead (piece : List α) : List (List α × Bool) → List (List α × Bool)
  | [] => if piece = [] then [] else [(piece, false)]
  | (first, ended) :: more => (piece ++ first, ended) :: more

/-- Segments and what comes after them, in which a last one that is not ended goes on. -/
def connect : List (List α × Bool) → List (List α × Bool) → List (List α × Bool)
  | [], next => next
  | (piece, true) :: more, next => (piece, true) :: connect more next
  | (piece, false) :: more, next => lead piece (connect more next)

@[simp] theorem lead_nil (rows : List (List α × Bool)) : lead [] rows = rows := by
  cases rows <;> simp [lead]

theorem lead_lead (first second : List α) (rows : List (List α × Bool)) :
    lead first (lead second rows) = lead (first ++ second) rows := by
  cases rows with
  | nil =>
    by_cases bare : second = []
    · simp [lead, bare]
    · simp [lead, bare]
  | cons row more => simp [lead]

theorem connect_lead (c : α) (rows next : List (List α × Bool)) :
    connect (lead [c] rows) next = lead [c] (connect rows next) := by
  cases rows with
  | nil => simp [lead, connect]
  | cons row more =>
    obtain ⟨piece, ended⟩ := row
    cases ended with
    | true => rfl
    | false =>
      show lead ([c] ++ piece) (connect more next) = lead [c] (lead piece (connect more next))
      rw [lead_lead]

theorem connect_cons (row : List α × Bool) (rows next : List (List α × Bool)) :
    connect (row :: rows) next = connect [row] (connect rows next) := by
  obtain ⟨piece, ended⟩ := row
  cases ended <;> rfl

variable [DecidableEq α] {mark : α}

theorem segments_cons_of_ne {c : α} (other : c ≠ mark) (s : List α) :
    segments mark (c :: s) = lead [c] (segments mark s) := by
  rw [segments, if_neg other]
  cases segments mark s <;> simp [lead]

/-- A piece without a mark is the start of the first segment. -/
theorem segments_prepend {piece : List α} (unmarked : mark ∉ piece) (s : List α) :
    segments mark (piece ++ s) = lead piece (segments mark s) := by
  induction piece with
  | nil => simp
  | cons c piece ih =>
    obtain ⟨other, unmarked⟩ := not_or.mp (List.mem_cons.not.mp unmarked)
    rw [List.cons_append, segments_cons_of_ne (Ne.symm other), ih unmarked, lead_lead]
    rfl

/-- The segments of two parts one after the other. -/
theorem segments_connect (s t : List α) :
    segments mark (s ++ t) = connect (segments mark s) (segments mark t) := by
  induction s with
  | nil => rfl
  | cons c s ih =>
    by_cases marked : c = mark
    · rw [List.cons_append, segments, if_pos marked, ih, segments, if_pos marked, connect]
    · rw [List.cons_append, segments_cons_of_ne marked, ih, segments_cons_of_ne marked,
        connect_lead]

/-- A sequence that ends in a mark has no segment without one. -/
theorem ended_of_concat_mark (s : List α) : ∀ row ∈ segments mark (s ++ [mark]), row.2 = true := by
  induction s with
  | nil => simp [segments]
  | cons c s ih =>
    intro row member
    rw [List.cons_append] at member
    by_cases marked : c = mark
    · rw [segments, if_pos marked, List.mem_cons] at member
      rcases member with rfl | later
      · rfl
      · exact ih row later
    · rw [segments_cons_of_ne marked] at member
      cases found : segments mark (s ++ [mark]) with
      | nil => exact absurd found (segments_ne_nil mark (by simp))
      | cons first more =>
        rw [found, lead, List.mem_cons] at member
        rcases member with rfl | later
        · exact ih first (by simp [found])
        · exact ih row (by simp [found, later])

theorem dropFinal_concat (x : α) (s : List α) : dropFinal x (s ++ [x]) = s := by
  induction s with
  | nil => simp [dropFinal]
  | cons c s ih =>
    cases s with
    | nil => simp [dropFinal]
    | cons d rest =>
      rw [List.cons_append, List.cons_append, dropFinal, ← List.cons_append, ih]

theorem dropFinal_of_ne {x : α} {s : List α} (other : s.getLast? ≠ some x) :
    dropFinal x s = s := by
  induction s with
  | nil => rfl
  | cons c s ih =>
    cases s with
    | nil => simpa [dropFinal] using other
    | cons d rest =>
      rw [List.getLast?_cons_cons] at other
      rw [dropFinal, ih other]

/-- The lines of a sequence that has no returns and ends in a mark are what is between its marks. -/
theorem flatten_lineBody {ret : α} {s : List α} (ends : ∀ c ∈ s.getLast?, c = mark)
    (plain : ret ∉ s) :
    ((segments mark s).map fun row => lineBody ret row ++ [mark]).flatten = s := by
  have ended : ∀ row ∈ segments mark s, row.2 = true := by
    rcases List.eq_nil_or_concat s with rfl | ⟨body, c, rfl⟩
    · simp
    · rw [List.concat_eq_append] at ends ⊢
      obtain rfl : c = mark := ends c (by simp)
      exact ended_of_concat_mark body
  have whole := flatten_segments mark s
  have same : ∀ row ∈ segments mark s,
      (if row.2 then row.1 ++ [mark] else row.1) = lineBody ret row ++ [mark] := by
    intro row member
    have within : ret ∉ row.1 := by
      intro inside
      apply plain
      rw [← whole, List.mem_flatten]
      exact ⟨_, List.mem_map_of_mem member, by simp [ended row member, inside]⟩
    rw [lineBody, if_pos (ended row member), if_pos (ended row member), dropFinal_of_ne]
    intro last
    exact within (List.mem_of_getLast? last)
  rwa [List.map_congr_left same] at whole

end Parts

/-! ### The lines of the bytes of a text -/

theorem segments_encodeChar (s : List Char) :
    segments 10 (s.flatMap String.utf8EncodeChar) =
      (segments '\n' s).map fun row => (row.1.flatMap String.utf8EncodeChar, row.2) := by
  induction s with
  | nil => rfl
  | cons c s ih =>
    rw [List.flatMap_cons]
    by_cases marked : c = '\n'
    · have single : String.utf8EncodeChar c = [10] := by
        rw [marked]
        decide
      rw [single, List.singleton_append, segments, if_pos rfl, ih, segments, if_pos marked]
      rfl
    · have unmarked : 10 ∉ String.utf8EncodeChar c := by
        intro member
        exact marked (eq_newline_of_mem member)
      rw [segments_prepend unmarked, ih, segments_cons_of_ne marked]
      cases segments '\n' s with
      | nil => simp [lead]
      | cons row more => simp [lead]

theorem dropFinal_encodeChar (s : List Char) :
    dropFinal 13 (s.flatMap String.utf8EncodeChar) =
      (dropFinal '\r' s).flatMap String.utf8EncodeChar := by
  have single : String.utf8EncodeChar '\r' = [13] := by decide
  rcases List.eq_nil_or_concat s with rfl | ⟨rest, c, rfl⟩
  · rfl
  rw [List.concat_eq_append]
  by_cases final : c = '\r'
  · rw [final, dropFinal_concat, List.flatMap_append, List.flatMap_singleton, single,
      dropFinal_concat]
  · have other : ((rest ++ [c]).flatMap String.utf8EncodeChar).getLast? ≠ some 13 := by
      intro last
      rw [List.flatMap_append, List.flatMap_singleton, List.getLast?_append] at last
      cases found : (String.utf8EncodeChar c).getLast? with
      | none => simp at found
      | some b =>
        rw [found, Option.some_or, Option.some.injEq] at last
        rw [last] at found
        exact final (eq_return_of_mem (List.mem_of_getLast? found))
    rw [dropFinal_of_ne other, dropFinal_of_ne (by simpa using final)]

/-- The lines of the bytes of a text are the bytes of its lines. -/
theorem lineBody_segments_encode (s : String) :
    (segments 10 (encode s)).map (lineBody 13) = (linesOf s).map encode := by
  rw [encode_eq, segments_encodeChar, linesOf, lines, List.map_map, List.map_map, List.map_map]
  apply List.map_congr_left
  intro row _
  obtain ⟨piece, ended⟩ := row
  cases ended with
  | true => simp [lineBody, encode_eq, dropFinal_encodeChar]
  | false => simp [lineBody, encode_eq]

/-! ### Lines of bytes -/

/-- How a line ends. -/
inductive Ending where
  | feed
  | returnFeed
  | missing
  deriving DecidableEq, Repr

/-- The bytes of an ending. -/
def Ending.bytes : Ending → Bytes
  | .feed => [10]
  | .returnFeed => [13, 10]
  | .missing => []

/-- A line of bytes: what it holds, and how it ends. -/
structure Line where
  body : Bytes
  ending : Ending
  /-- A line goes to the next line feed. -/
  unbroken : 10 ∉ body
  /-- A return before the line feed is a part of the ending. -/
  shorn : ending = .feed → body.getLast? ≠ some 13
  /-- At the end of the bytes there is no further line. -/
  filled : ending = .missing → body ≠ []

namespace Line

/-- A line with its ending. -/
def bytes (line : Line) : Bytes := line.body ++ line.ending.bytes

/-- A line as it stands between line feeds. -/
def segment (line : Line) : Bytes × Bool :=
  match line.ending with
  | .feed => (line.body, true)
  | .returnFeed => (line.body ++ [13], true)
  | .missing => (line.body, false)

theorem lineBody_segment (line : Line) : lineBody 13 line.segment = line.body := by
  cases ends : line.ending with
  | feed => simp [segment, ends, lineBody, dropFinal_of_ne (line.shorn ends)]
  | returnFeed => simp [segment, ends, lineBody, dropFinal_concat]
  | missing => simp [segment, ends, lineBody]

theorem segment_injective : Function.Injective segment := by
  intro line other same
  have bodies : line.body = other.body := by
    rw [← lineBody_segment, same, lineBody_segment]
  have endings : line.ending = other.ending := by
    rw [segment, segment, bodies] at same
    cases ends : line.ending <;> cases others : other.ending <;> simp_all
  obtain ⟨body, ending, _, _, _⟩ := line
  cases bodies
  cases endings
  rfl

/-- The lines that bytes are made of. Only the last one may lack its ending. -/
structure Make (bytes : Bytes) (lines : List Line) : Prop where
  whole : lines.flatMap Line.bytes = bytes
  ended : ∀ line ∈ lines.dropLast, line.ending ≠ .missing

theorem segments_of_make {bytes : Bytes} {lines : List Line} (make : Make bytes lines) :
    segments 10 bytes = lines.map segment := by
  obtain ⟨rfl, ended⟩ := make
  induction lines with
  | nil => rfl
  | cons line rest ih =>
    have later : ∀ next ∈ rest.dropLast, next.ending ≠ .missing := by
      intro next member
      apply ended next
      cases rest with
      | nil => cases member
      | cons _ _ => exact List.mem_cons_of_mem _ member
    rw [List.flatMap_cons, bytes, List.append_assoc, segments_prepend line.unbroken, List.map_cons]
    cases ends : line.ending with
    | feed => simp [Ending.bytes, segment, ends, segments, lead, ih later]
    | returnFeed => simp [Ending.bytes, segment, ends, segments, lead, ih later]
    | missing =>
      obtain rfl : rest = [] := by
        cases rest with
        | nil => rfl
        | cons _ _ => exact absurd ends (ended line List.mem_cons_self)
      simp [Ending.bytes, segment, ends, lead, line.filled ends]

/-- Bytes are made of lines in one way only. -/
theorem eq_of_make {bytes : Bytes} {lines others : List Line} (make : Make bytes lines)
    (other : Make bytes others) : lines = others := by
  have same := (segments_of_make make).symm.trans (segments_of_make other)
  exact List.map_injective_iff.mpr segment_injective same

/-- A line of which there is one byte more at the front. -/
theorem exists_cons {c : UInt8} (other : c ≠ 10) (line : Line) :
    ∃ longer : Line, longer.bytes = c :: line.bytes ∧
      (longer.ending = .missing ↔ line.ending = .missing) := by
  by_cases bare : line.ending = .feed ∧ line.body = [] ∧ c = 13
  · obtain ⟨ends, empty, rfl⟩ := bare
    refine ⟨⟨[], .returnFeed, by simp, by simp, by simp⟩, ?_, ?_⟩
    · simp [bytes, ends, empty, Ending.bytes]
    · simp [ends]
  · refine ⟨⟨c :: line.body, line.ending, ?_, ?_, by simp⟩, by simp [bytes], Iff.rfl⟩
    · simp [line.unbroken, Ne.symm other]
    · intro ends
      cases full : line.body with
      | nil => simpa using fun final => bare ⟨ends, full, final⟩
      | cons d rest =>
        rw [List.getLast?_cons_cons, ← full]
        exact line.shorn ends

theorem exists_make (bytes : Bytes) : ∃ lines, Make bytes lines := by
  induction bytes with
  | nil => exact ⟨[], rfl, by simp⟩
  | cons c bytes ih =>
    obtain ⟨lines, whole, ended⟩ := ih
    by_cases marked : c = 10
    · refine ⟨⟨[], .feed, by simp, by simp, by simp⟩ :: lines, ?_, ?_⟩
      · simp [Line.bytes, Ending.bytes, whole, marked]
      · cases lines with
        | nil => simp
        | cons next rest => simpa using ended
    cases lines with
    | nil =>
      refine ⟨[⟨[c], .missing, by simpa using Ne.symm marked, by simp, by simp⟩], ?_, by simp⟩
      simpa [Line.bytes, Ending.bytes] using whole
    | cons line rest =>
      obtain ⟨longer, bytes_eq, missing⟩ := exists_cons marked line
      refine ⟨longer :: rest, by simp [bytes_eq, ← whole], ?_⟩
      cases rest with
      | nil => simp
      | cons next rest =>
        intro any member
        rw [List.dropLast_cons_cons, List.mem_cons] at member
        rcases member with rfl | later
        · exact missing.not.mpr (ended line List.mem_cons_self)
        · exact ended any (List.mem_cons_of_mem _ later)

end Line

end StyleMonitor.Text
