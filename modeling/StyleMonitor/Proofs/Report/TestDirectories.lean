import StyleMonitor.Proofs.Report.Leading

/-!
# Test directories

The text of a path is searched for `tests/` at its start and for `/tests/` further in. That finds
exactly the paths with a directory named `tests`: a piece of the path between slashes, other than
the last. A `./` in front is a directory of another name, so a line is left out for its path as it
is written if and only if it is left out for the path that its finding is filed under.
-/

namespace StyleMonitor

namespace Text

variable {sep : Char} {s piece : List Char}

/-- A field that is not the last stands between two separators, if one is put in front of the
text. -/
theorem infix_of_mem_dropLast_fields (member : piece ∈ (fields sep s).dropLast) :
    sep :: (piece ++ [sep]) <:+: sep :: s := by
  generalize pieces : fields sep s = found at member
  induction found generalizing s with
  | nil => cases member
  | cons first more ih =>
    rcases fields_cons_cases pieces with ⟨rfl, rfl⟩ | ⟨rest, rfl, later⟩
    · cases member
    · have goesOn : more ≠ [] := later ▸ fields_ne_nil sep rest
      rw [List.dropLast_cons_of_ne_nil goesOn] at member
      rcases List.mem_cons.mp member with rfl | member
      · exact ⟨[], rest, by simp⟩
      · exact (ih later member).trans (List.suffix_append (sep :: first) (sep :: rest)).isInfix

theorem mem_dropLast_fields_iff : piece ∈ (fields sep s).dropLast ↔
    sep ∉ piece ∧ sep :: (piece ++ [sep]) <:+: sep :: s := by
  constructor
  · intro member
    exact ⟨not_mem_of_mem_fields (List.dropLast_subset _ member),
      infix_of_mem_dropLast_fields member⟩
  · rintro ⟨single, before, after, found⟩
    have cut : sep :: s = before ++ sep :: (piece ++ sep :: after) := by simp [← found]
    have pieces : [] :: fields sep s = fields sep before ++ piece :: fields sep after := by
      calc [] :: fields sep s
        _ = fields sep (sep :: s) := (fields_append_sep sep [] s).symm
        _ = fields sep before ++ piece :: fields sep after := by
          rw [cut, fields_append_sep, fields_append_sep, fields_of_not_mem single,
            List.singleton_append]
    -- The separator in front opens an empty field, which is not one of the text.
    cases front : fields sep before with
    | nil => exact absurd front (fields_ne_nil sep before)
    | cons first others =>
      rw [front] at pieces
      have pieces : fields sep s = others ++ piece :: fields sep after := (List.cons.inj pieces).2
      rw [pieces, List.dropLast_append_of_ne_nil (List.cons_ne_nil _ _),
        List.dropLast_cons_of_ne_nil (fields_ne_nil sep after)]
      exact List.mem_append_right _ List.mem_cons_self

end Text

namespace Report

variable {exclusions : Exclusions} {index : Nat} {raw : String} {said : Line}
  {part path : List Char}

/-- The directories that a path leads through: its pieces between slashes, other than the last. -/
def directories (path : List Char) : List (List Char) :=
  (Text.fields '/' path).dropLast

/-- The path of a line, as it is written there. -/
def writtenPath (raw : String) : List Char :=
  (Text.fields ':' raw.toList).headD []

theorem occurs_iff {s : List Char} : occurs part s = true ↔ part <:+: s := by
  induction s with
  | nil => rw [occurs, List.isEmpty_iff, List.infix_nil]
  | cons c rest ih =>
    rw [occurs, Bool.or_eq_true, List.isPrefixOf_iff_prefix, ih, List.infix_cons_iff]

theorem isTestPath_iff : isTestPath path = true ↔ "tests".toList ∈ directories path := by
  have inner : "/tests/".toList = '/' :: ("tests".toList ++ ['/']) := rfl
  have front : "tests/".toList <+: path ↔ "/tests/".toList <+: '/' :: path :=
    (List.prefix_cons_inj '/').symm
  have plain : '/' ∉ "tests".toList := by decide
  rw [isTestPath, Bool.or_eq_true, List.isPrefixOf_iff_prefix, occurs_iff, front,
    ← List.infix_cons_iff, inner, directories, Text.mem_dropLast_fields_iff, and_iff_right plain]

/-- Empty pieces in front do not matter. A file named `tests` is no directory, and a name that only
contains `tests` is another one. -/
example : isTestPath "/a//tests/".toList = true ∧ isTestPath "a/tests".toList = false ∧
    isTestPath "tests.c/unittests/x.c".toList = false := by
  decide

theorem entry_eq_kept_iff : entry exclusions index raw = .kept said ↔
    Line.read index raw = .ok said ∧ accepts exclusions said.path = true := by
  constructor
  · intro kept
    have kept : entryOf exclusions (raw, index) = .kept said := kept
    rcases entryOf_cases exclusions (raw, index) with
      ⟨found, -⟩ | ⟨fault, found, -⟩ | ⟨line, found, -⟩ | ⟨line, found, -, read, accepted⟩
    all_goals
      rw [kept] at found
      cases found
    exact ⟨read, accepted⟩
  · rintro ⟨read, accepted⟩
    rw [entry_of_read read, if_pos accepted]

/-- Test directories can be looked for in the path as it is written. -/
theorem accepts_iff (read : Line.read index raw = .ok said) :
    accepts exclusions said.path = true ↔
      "tests".toList ∉ directories (writtenPath raw) ∧ exclusions.excludes said.path = false := by
  obtain ⟨filed, -⟩ := Line.eq_of_read_ok read
  have path : said.path.toList = normalPath (writtenPath raw) := by
    rw [filed]
    exact String.toList_ofList
  rw [accepts, Bool.and_eq_true, Bool.not_eq_true', Bool.not_eq_true', path, isTestPath_normalPath,
    ← isTestPath_iff, Bool.not_eq_true]

/-- A path is in a test directory if and only if one of its pieces between slashes, other than the
last, is `tests`, and so is the path that its findings are filed under. So a line is kept if and
only if it holds a finding, its path as it is written leads through no such directory, and the path
that the finding is filed under is not excluded. -/
theorem test_paths_by_directory (exclusions : Exclusions) (path : List Char) (index : Nat)
    (raw : String) (said : Line) :
    (isTestPath path = true ↔ "tests".toList ∈ directories path) ∧
    isTestPath (normalPath path) = isTestPath path ∧
    (entry exclusions index raw = .kept said ↔ Line.read index raw = .ok said ∧
      "tests".toList ∉ directories (writtenPath raw) ∧
      exclusions.excludes said.path = false) := by
  refine ⟨isTestPath_iff, isTestPath_normalPath path, entry_eq_kept_iff.trans ?_⟩
  exact and_congr_right accepts_iff

end Report

end StyleMonitor
