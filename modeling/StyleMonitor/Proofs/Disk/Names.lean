import StyleMonitor.Disk.Session
import StyleMonitor.Proofs.Decimal
import StyleMonitor.Proofs.Path

/-!
# The names on a path

A walk takes the names on a path one after the other. They are those of the components of the path,
but for components `.` inside it; so the steps of a path can be read off its components.
-/

namespace StyleMonitor

/-- The name that a walk takes for a component. -/
def Component.step? : Component → Option String
  | parent => some ".."
  | name text => some text
  | _ => none

namespace Disk

/-- The names on a path that lead a walk somewhere. -/
def steps (path : String) : List String :=
  (names path).filter (· ≠ ".")

/-- The step that a piece of a path stands for. -/
def pieceStep? (piece : List Char) : Option String :=
  if piece = [] ∨ piece = ['.'] then none else some (String.ofList piece)

theorem step?_component? (piece : List Char) :
    (Path.component? piece).bind Component.step? = pieceStep? piece := by
  unfold Path.component? pieceStep?
  split
  · rfl
  split
  · next up =>
    subst up
    rfl
  · rfl

/-- The first piece of a path stands for the same step as any other would. -/
theorem step?_firstComponent? (chars piece : List Char) :
    (Path.firstComponent? chars piece).bind Component.step? = pieceStep? piece := by
  rw [← step?_component?]
  unfold Path.firstComponent?
  split
  · next empty =>
    subst empty
    split <;> rfl
  split
  · next here =>
    subst here
    rfl
  · rfl

theorem pieceStep?_eq (piece : List Char) :
    pieceStep? piece =
      if piece = [] ∨ String.ofList piece = "." then none else some (String.ofList piece) := by
  have here : String.ofList piece = "." ↔ piece = ['.'] :=
    ⟨fun same => by simpa using congrArg String.toList same, fun same => by rw [same]⟩
  simp only [pieceStep?, here]

theorem filter_names (pieces : List (List Char)) :
    ((pieces.filter (· ≠ [])).map String.ofList).filter (· ≠ ".") =
      pieces.filterMap pieceStep? := by
  induction pieces with
  | nil => rfl
  | cons piece rest ih =>
    by_cases empty : piece = []
    · subst empty
      rw [List.filter_cons_of_neg (by simp), ih]
      rfl
    rw [List.filter_cons_of_pos (by simpa using empty), List.map_cons]
    by_cases here : String.ofList piece = "."
    · have stepped : pieceStep? piece = none := by
        rw [pieceStep?_eq, if_pos (Or.inr here)]
      rw [List.filter_cons_of_neg (by simpa using here), ih, List.filterMap_cons_none stepped]
    · have stepped : pieceStep? piece = some (String.ofList piece) := by
        rw [pieceStep?_eq, if_neg (by simp [empty, here])]
      rw [List.filter_cons_of_pos (by simpa using here), ih, List.filterMap_cons_some stepped]

theorem steps_eq (path : String) :
    steps path = (Path.components path).filterMap Component.step? := by
  rw [steps, names, filter_names, Path.components, Path.pieceComponents,
    List.filterMap_filterMap]
  cases Path.pieces path.toList with
  | nil => rfl
  | cons piece rest =>
    simp only [id, List.filterMap_cons, List.filterMap_map, Function.comp_def,
      step?_firstComponent?, step?_component?]

/-- A path whose last step is no `..` ends in the name of that step. -/
theorem fileName?_of_steps {path name : String} (last : (steps path).getLast? = some name)
    (proper : name ≠ "..") : Path.fileName? path = some name := by
  have spelled := Path.components_spelled path
  rw [steps_eq] at last
  unfold Path.fileName?
  cases parts : (Path.components path).getLast? with
  | none =>
    rw [List.getLast?_eq_none_iff.mp parts] at last
    cases last
  | some part =>
    obtain ⟨above, whole⟩ := List.getLast?_eq_some_iff.mp parts
    rw [whole] at last spelled
    -- A component without a step stands first, so it would be the only one.
    have steps : part ≠ .root ∧ part ≠ .here := by
      by_cases alone : above = []
      · subst alone
        constructor
        · rintro rfl
          cases last
        · rintro rfl
          cases last
      · exact spelled.inner part (by rw [List.tail_append_of_ne_nil alone]; simp)
    cases part with
    | root => exact absurd rfl steps.1
    | here => exact absurd rfl steps.2
    | parent =>
      rw [List.filterMap_append] at last
      have up : (above.filterMap Component.step? ++ [".."]).getLast? = some name := last
      rw [List.getLast?_concat] at up
      exact absurd (Option.some.inj up).symm proper
    | name text =>
      rw [List.filterMap_append] at last
      have own : (above.filterMap Component.step? ++ [text]).getLast? = some name := last
      rw [List.getLast?_concat] at own
      exact own

/-- The names on a path that starts at a base follow the names on the base. -/
theorem names_join {base tail : String} (relative : Path.isAbsolute tail = false) :
    names (Path.join base tail) = names base ++ names tail := by
  have slash : ∀ front back : String, names (front ++ "/" ++ back) = names front ++ names back := by
    intro front back
    have apart : Path.pieces (front ++ "/" ++ back).toList =
        Path.pieces front.toList ++ Path.pieces back.toList := by
      simpa [Path.pieces] using Text.fields_append_sep '/' front.toList back.toList
    rw [names, apart, List.filter_append, List.map_append]
    rfl
  unfold Path.join
  rw [if_neg (by simp [relative])]
  by_cases named : base = ""
  · subst named
    simp [show names "" = [] from rfl]
  by_cases ends : Path.endsInSlash base = true
  · rw [if_pos (Or.inr ends)]
    obtain ⟨front, rfl⟩ : ∃ front, base = front ++ "/" := by
      have last : base.toList.getLast? = some '/' := by simpa [Path.endsInSlash] using ends
      obtain ⟨front, split⟩ := List.getLast?_eq_some_iff.mp last
      refine ⟨String.ofList front, String.toList_inj.mp ?_⟩
      simpa using split
    have own := slash front ""
    rw [String.append_empty] at own
    rw [slash, own]
    simp [show names "" = [] from rfl]
  · rw [if_neg (by simp [named, ends])]
    exact slash base tail

theorem names_of_isName {name : String} (isName : Path.IsName name) : names name = [name] := by
  have named : name.toList ≠ [] := by simpa using isName.named
  rw [names, isName.pieces]
  simp [named]

/-- Only the empty path is relative and has no names. -/
theorem eq_empty_of_names {tail : String} (relative : Path.isAbsolute tail = false)
    (none : names tail = []) : tail = "" := by
  rw [← String.toList_inj]
  rw [Path.isAbsolute] at relative
  rw [names, List.map_eq_nil_iff, List.filter_eq_nil_iff, Path.pieces] at none
  cases chars : tail.toList with
  | nil => rfl
  | cons c rest =>
    rw [chars] at relative none
    rw [Text.fields, if_neg (by simpa using relative)] at none
    split at none
    · simpa using none [c] List.mem_cons_self
    · next piece more _ => simpa using none (c :: piece) List.mem_cons_self

theorem endsInSlash_join_empty {base : String} (named : base ≠ "") :
    Path.endsInSlash (Path.join base "") = true := by
  have slash (front : String) : Path.endsInSlash (front ++ "/") = true := by
    simp [Path.endsInSlash]
  unfold Path.join
  rw [if_neg (by decide)]
  by_cases ends : Path.endsInSlash base = true
  · rw [if_pos (Or.inr ends), String.append_empty, ends]
  · rw [if_neg (by simp [named, ends]), String.append_empty, slash]

theorem endsInSlash_join {tail : String} (relative : Path.isAbsolute tail = false)
    (named : tail ≠ "") (base : String) : Path.endsInSlash (Path.join base tail) = Path.endsInSlash tail := by
  have some : tail.toList ≠ [] := by simpa using named
  have behind (front : String) : Path.endsInSlash (front ++ tail) = Path.endsInSlash tail := by
    rw [Path.endsInSlash, Path.endsInSlash, String.toList_append,
      List.getLast?_append_of_ne_nil _ some]
  unfold Path.join
  rw [if_neg (by simp [relative])]
  split
  · exact behind base
  · exact behind (base ++ "/")

/-- The path of a place is absolute. -/
theorem isAbsolute_placePath (place : Place) : Path.isAbsolute (placePath place) = true := by
  cases place with
  | nil => rfl
  | cons name rest => simp [placePath, Path.isAbsolute]

/-! ### Names of files beside each other -/

/-- The name of a temporary file ends in digits. -/
theorem toList_temporaryName (n : Nat) : ∃ digits : List Char, digits ≠ [] ∧
    (∀ c ∈ digits, Decimal.isDigit c = true) ∧
    (Session.temporaryName n).toList = '.' :: 't' :: 'm' :: 'p' :: digits := by
  refine ⟨(Decimal.padded 6 n).toList, ?_, ?_, ?_⟩
  · rw [Decimal.padded, String.toList_append]
    exact List.append_ne_nil_of_right_ne_nil _ (Decimal.text_ne_nil n)
  · intro c member
    rw [Decimal.padded, String.toList_append, List.mem_append, String.toList_ofList] at member
    rcases member with zero | digit
    · rw [(List.mem_replicate.mp zero).2]
      rfl
    · exact Decimal.isDigit_of_mem_text digit
  · simp [Session.temporaryName]

theorem isName_temporaryName (n : Nat) : Path.IsName (Session.temporaryName n) := by
  obtain ⟨digits, some, digit, chars⟩ := toList_temporaryName n
  refine ⟨?_, ?_, ?_, ?_⟩
  · intro empty
    rw [empty] at chars
    cases chars
  · rw [chars]
    intro slash
    have no : '/' ∈ digits := by simpa using slash
    have := digit '/' no
    revert this
    decide
  · intro here
    rw [here] at chars
    cases chars
  · intro up
    rw [up] at chars
    cases chars

/-- No temporary file has a name that begins in another way. -/
theorem ne_temporaryName {name : String} (other : ¬ ['.', 't', 'm', 'p'] <+: name.toList) (n : Nat) :
    name ≠ Session.temporaryName n := by
  rintro rfl
  obtain ⟨digits, -, -, chars⟩ := toList_temporaryName n
  rw [chars] at other
  exact other ⟨digits, rfl⟩

/-- No temporary file has the name of a backup. -/
theorem temporaryName_ne_backup (n : Nat) (stem : String) :
    Session.temporaryName n ≠ stem ++ ".bak" := by
  intro same
  obtain ⟨digits, named, digit, chars⟩ := toList_temporaryName n
  have last : (Session.temporaryName n).toList.getLast? = some 'k' := by
    rw [same]
    simp
  rw [chars] at last
  have own : digits.getLast? = some 'k' := by
    cases digits with
    | nil => exact absurd rfl named
    | cons c rest => simpa using last
  have := digit 'k' (List.mem_of_getLast? own)
  revert this
  decide

end Disk

end StyleMonitor
