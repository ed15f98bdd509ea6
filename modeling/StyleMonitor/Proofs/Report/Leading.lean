import StyleMonitor.Proofs.Report.Grammar

/-!
# Leading dots

One `./` in front of the path of a line does not count, but only one. So a line with a second one
is filed under another path than the file has, and patterns see that path; only directories named
`tests` are recognized behind any number of them.
-/

namespace StyleMonitor

namespace Text

variable {sep : Char} {s first front : List Char} {more : List (List Char)}

/-- A text ends with its first field, or that ends at a separator. -/
theorem fields_cons_cases (fields : Text.fields sep s = first :: more) :
    (more = [] ∧ s = first) ∨ ∃ rest, s = first ++ sep :: rest ∧ Text.fields sep rest = more := by
  have single : sep ∉ first := not_mem_of_mem_fields (fields ▸ List.mem_cons_self)
  have whole := joinFields_fields sep s
  rw [fields] at whole
  cases more with
  | nil =>
    rw [joinFields_singleton] at whole
    exact Or.inl ⟨rfl, whole.symm⟩
  | cons second others =>
    rw [joinFields_cons_cons] at whole
    refine Or.inr ⟨_, whole.symm, ?_⟩
    rw [← whole, fields_append_sep, fields_of_not_mem single, List.singleton_append] at fields
    exact (List.cons.inj fields).2

/-- What is put in front of a text is put in front of its first field. -/
theorem fields_append_first (fields : Text.fields sep s = first :: more) (none : sep ∉ front) :
    Text.fields sep (front ++ s) = (front ++ first) :: more := by
  have single : sep ∉ front ++ first := by
    rw [List.mem_append, not_or]
    exact ⟨none, not_mem_of_mem_fields (fields ▸ List.mem_cons_self)⟩
  rcases fields_cons_cases fields with ⟨rfl, rfl⟩ | ⟨rest, rfl, rfl⟩
  · exact fields_of_not_mem single
  · rw [← List.append_assoc, fields_append_sep, fields_of_not_mem single, List.singleton_append]

/-- What a text begins with, up to the separator, its first field begins with. -/
theorem prefix_first_iff (fields : Text.fields sep s = first :: more) (none : sep ∉ front) :
    front <+: s ↔ front <+: first := by
  rcases fields_cons_cases fields with ⟨-, rfl⟩ | ⟨rest, rfl, -⟩
  · exact Iff.rfl
  constructor
  · intro starts
    by_cases short : front.length ≤ first.length
    · exact List.prefix_of_prefix_length_le starts (List.prefix_append _ _) short
    · have whole : first ++ [sep] <+: first ++ sep :: rest := ⟨rest, by simp⟩
      have longer : first ++ [sep] <+: front := by
        refine List.prefix_of_prefix_length_le whole starts ?_
        simp only [List.length_append, List.length_singleton]
        omega
      exact absurd (longer.mem (by simp)) none
  · exact fun starts => starts.trans (List.prefix_append _ _)

end Text

namespace Report

variable {exclusions : Exclusions} {text raw : String} {index : Nat} {said : Line}
  {path : List Char}

/-! ### Dots in front of a path -/

/-- So many times `./`. -/
def dots (n : Nat) : List Char :=
  (List.replicate n "./".toList).flatten

/-- A line with so many further `./` in front of its path. -/
def dotted (n : Nat) (raw : String) : String :=
  String.ofList (dots n ++ raw.toList)

theorem dots_succ (n : Nat) : dots (n + 1) = '.' :: '/' :: dots n := by
  simp [dots, List.replicate_succ]

theorem length_dots (n : Nat) : (dots n).length = 2 * n := by
  induction n with
  | zero => rfl
  | succ n ih => rw [dots_succ, List.length_cons, List.length_cons, ih]; omega

theorem colon_not_mem_dots (n : Nat) : ':' ∉ dots n := by
  induction n with
  | zero => exact List.not_mem_nil
  | succ n ih =>
    rw [dots_succ]
    simpa using ih

theorem normalPath_dots_succ (n : Nat) (path : List Char) :
    normalPath (dots (n + 1) ++ path) = dots n ++ path := by
  rw [dots_succ]
  rfl

/-- A path begins with `./`, or it is filed under as it is. -/
theorem normalPath_cases (path : List Char) :
    (∃ rest, path = '.' :: '/' :: rest ∧ normalPath path = rest) ∨
    (¬ "./".toList <+: path ∧ normalPath path = path) := by
  by_cases starts : "./".toList <+: path
  · obtain ⟨rest, rfl⟩ := starts
    exact Or.inl ⟨rest, rfl, rfl⟩
  · exact Or.inr ⟨starts, normalPath_of_plain starts⟩

/-- A `./` is left of a path that begins with two. -/
theorem prefix_normalPath_iff :
    "./".toList <+: normalPath path ↔ "././".toList <+: path := by
  rcases normalPath_cases path with ⟨rest, rfl, normal⟩ | ⟨plain, normal⟩
  · rw [normal]
    show _ ↔ '.' :: '/' :: "./".toList <+: _
    simp
  · rw [normal]
    refine iff_of_false plain fun starts => plain (List.IsPrefix.trans ?_ starts)
    exact ⟨"./".toList, rfl⟩

/-- Further dots do not change what a path is filed under, if there is one and there was none. -/
theorem normalPath_dots_eq_iff {n : Nat} :
    normalPath (dots n ++ path) = normalPath path ↔
      n = 0 ∨ n = 1 ∧ ¬ "./".toList <+: path := by
  cases n with
  | zero => exact iff_of_true rfl (Or.inl rfl)
  | succ n =>
    rw [normalPath_dots_succ]
    rcases normalPath_cases path with ⟨rest, rfl, normal⟩ | ⟨plain, normal⟩
    · rw [normal]
      refine iff_of_false (fun same => ?_) ?_
      · have length := congrArg List.length same
        simp only [List.length_append, List.length_cons, length_dots] at length
        omega
      · rintro (zero | ⟨-, plain⟩)
        · cases zero
        · exact plain ⟨rest, rfl⟩
    · rw [normal, List.append_left_eq_self]
      constructor
      · intro none
        have length := congrArg List.length none
        rw [length_dots] at length
        simp only [List.length_nil] at length
        exact Or.inr ⟨by omega, plain⟩
      · rintro (zero | ⟨one, -⟩)
        · cases zero
        · obtain rfl : n = 0 := by omega
          rfl

theorem isTestPath_dot (path : List Char) : isTestPath ('.' :: '/' :: path) = isTestPath path := by
  have inner : "/tests/".toList = '/' :: "tests/".toList := rfl
  simp [isTestPath, occurs, inner, List.isPrefixOf]

theorem isTestPath_normalPath (path : List Char) :
    isTestPath (normalPath path) = isTestPath path := by
  rcases normalPath_cases path with ⟨rest, rfl, normal⟩ | ⟨-, normal⟩
  · rw [normal, isTestPath_dot]
  · rw [normal]

/-- A directory named `tests` is recognized behind any number of dots. -/
theorem isTestPath_dots (n : Nat) (path : List Char) :
    isTestPath (normalPath (dots n ++ path)) = isTestPath path := by
  rw [isTestPath_normalPath]
  induction n with
  | zero => rfl
  | succ n ih => rw [dots_succ, List.cons_append, List.cons_append, isTestPath_dot, ih]

/-! ### Dots in front of a line -/

theorem toList_dotted (n : Nat) (raw : String) : (dotted n raw).toList = dots n ++ raw.toList :=
  String.toList_ofList

/-- A line that holds a finding is kept, or left out for its path. -/
theorem entry_of_read (read : Line.read index raw = .ok said) :
    entry exclusions index raw =
      if accepts exclusions said.path then .kept said else .leftOut said := by
  have text : Text.trim raw.toList ≠ [] := by
    intro blank
    have none : ':' ∉ raw.toList := fun colon =>
      absurd (Text.trim_eq_nil_iff.mp blank _ colon) (by decide)
    rw [Line.read, Text.fields_of_not_mem none] at read
    cases read
  rw [entry, if_neg text, read]

/-- What a line says behind further dots: the same finding, under another path. -/
theorem read_dotted_of_ok (n : Nat) (read : Line.read index raw = .ok said) :
    ∃ path, said.path = String.ofList (normalPath path) ∧
      Line.read index (dotted n raw) =
        .ok { said with path := String.ofList (normalPath (dots n ++ path)) } ∧
      (∀ front : List Char, ':' ∉ front → (front <+: raw.toList ↔ front <+: path)) ∧
      ∀ front : List Char, ':' ∉ front →
        (front <+: (dotted n raw).toList ↔ front <+: dots n ++ path) := by
  obtain ⟨-, path, number, severity, code, rest, -, fields, -⟩ := Line.eq_of_read_ok read
  have behind : Text.fields ':' (dotted n raw).toList =
      (dots n ++ path) :: number :: severity :: code :: rest := by
    rw [toList_dotted, Text.fields_append_first fields (colon_not_mem_dots n)]
  rw [read_of_fields fields] at read
  rw [read_of_fields behind]
  cases value : lineNumber? number with
  | none =>
    rw [value] at read
    cases read
  | some line =>
    rw [value] at read
    cases read
    exact ⟨path, rfl, rfl, fun front none => Text.prefix_first_iff fields none,
      fun front none => Text.prefix_first_iff behind none⟩

/-- A line without a finding has none behind further dots either. -/
theorem read_dotted_of_error {fault : Fault} (n : Nat)
    (read : Line.read index raw = .error fault) :
    ∃ other, Line.read index (dotted n raw) = .error other := by
  have length := Text.length_fields ':' raw.toList
  cases fields : Text.fields ':' raw.toList with
  | nil => exact absurd fields (Text.fields_ne_nil ':' _)
  | cons path more =>
    have behind : Text.fields ':' (dotted n raw).toList = (dots n ++ path) :: more := by
      rw [toList_dotted, Text.fields_append_first fields (colon_not_mem_dots n)]
    match more with
    | number :: severity :: code :: rest =>
      rw [read_of_fields fields] at read
      rw [read_of_fields behind]
      cases value : lineNumber? number with
      | none => exact ⟨_, rfl⟩
      | some line =>
        rw [value] at read
        cases read
    | [] | [_] | [_, _] =>
      rw [Line.read, behind]
      exact ⟨_, rfl⟩

/-- No path that findings are filed under begins with `./`, if no accepted line begins with two. -/
theorem plain_files_iff (exclusions : Exclusions) (text : String) :
    (∀ file ∈ (findings exclusions text).files, ¬ "./".toList <+: file.1.toList) ↔
      ∀ line ∈ accepted exclusions text, ¬ "././".toList <+: line.1.toList := by
  have filed : ∀ line : String × Nat,
      "./".toList <+: (pathOf line).toList ↔ "././".toList <+: line.1.toList := by
    intro line
    cases fields : Text.fields ':' line.1.toList with
    | nil => exact absurd fields (Text.fields_ne_nil ':' _)
    | cons path more =>
      have named : (pathOf line).toList = normalPath path := by
        rw [pathOf, fields, List.headD_cons, String.toList_ofList]
      rw [Text.prefix_first_iff fields (by decide), ← prefix_normalPath_iff, named]
  constructor
  · intro plain line taken starts
    obtain ⟨file, member, named⟩ := List.mem_map.mp (mem_files_of_accepted taken)
    exact plain file member (named ▸ (filed line).mpr starts)
  · intro single file member starts
    obtain ⟨line, taken, named⟩ := exists_accepted member
    exact single line taken ((filed line).mp (named ▸ starts))

/-- The paths that findings are filed under, and leading `./`. A path begins with `./` if and only
if the path that is written in some accepted line begins with two. A line with further `./` in
front holds the same finding, in a test directory or not as before; it is filed under the same path
if and only if there is one `./` more and there was none, or none more. -/
theorem leading_dots (exclusions : Exclusions) (text : String) (index : Nat) (raw : String)
    (n : Nat) :
    ((∀ file ∈ (findings exclusions text).files, ¬ "./".toList <+: file.1.toList) ↔
      ∀ line ∈ accepted exclusions text, ¬ "././".toList <+: line.1.toList) ∧
    (∀ fault, Line.read index raw = .error fault →
      ∃ other, Line.read index (dotted n raw) = .error other) ∧
    ∀ said, Line.read index raw = .ok said → ∃ path,
      Line.read index (dotted n raw) = .ok { said with path := path } ∧
      isTestPath path.toList = isTestPath said.path.toList ∧
      ("./".toList <+: path.toList ↔ "././".toList <+: (dotted n raw).toList) ∧
      (path = said.path ↔ n = 0 ∨ n = 1 ∧ ¬ "./".toList <+: raw.toList) ∧
      (path = said.path → entry exclusions index (dotted n raw) = entry exclusions index raw) := by
  refine ⟨plain_files_iff exclusions text, fun fault read => read_dotted_of_error n read, ?_⟩
  intro said read
  obtain ⟨path, filed, behind, starts, starts_dotted⟩ := read_dotted_of_ok n read
  refine ⟨_, behind, ?_, ?_, ?_, ?_⟩
  · rw [filed, String.toList_ofList, String.toList_ofList, isTestPath_dots]
    exact (isTestPath_dots 0 path).symm
  · have named : (String.ofList (normalPath (dots n ++ path))).toList =
        normalPath (dots n ++ path) := String.toList_ofList
    rw [starts_dotted _ (by decide), ← prefix_normalPath_iff, named]
  · rw [filed, starts _ (by decide), ← normalPath_dots_eq_iff]
    exact ⟨fun same => by simpa using congrArg String.toList same, fun same => by rw [same]⟩
  · intro same
    rw [entry_of_read behind, entry_of_read read, same]

/-- One `./` in front of a plain path changes nothing. -/
theorem leading_dots_single :
    Line.read 1 "tests.c:7:MAJOR:C-F3:x" = .ok ⟨"tests.c", ⟨6, .major, "C-F3", "MAJOR:C-F3:x"⟩⟩ ∧
    ∀ exclusions, entry exclusions 1 "./tests.c:7:MAJOR:C-F3:x" =
      entry exclusions 1 "tests.c:7:MAJOR:C-F3:x" := by
  have read : Line.read 1 "tests.c:7:MAJOR:C-F3:x" =
      .ok ⟨"tests.c", ⟨6, .major, "C-F3", "MAJOR:C-F3:x"⟩⟩ := by
    decide +kernel
  refine ⟨read, fun exclusions => ?_⟩
  obtain ⟨path, -, -, -, same, kept⟩ := (leading_dots exclusions "" 1 _ 1).2.2 _ read
  have front : dotted 1 "tests.c:7:MAJOR:C-F3:x" = "./tests.c:7:MAJOR:C-F3:x" := by decide +kernel
  rw [← front]
  exact kept (same.mpr (Or.inr ⟨rfl, by decide +kernel⟩))

/-- A second `./` counts: the finding of a file is filed under another path, and a pattern that
leaves its directory out does not see that. -/
theorem second_dot_counts :
    (findings .empty "././a.c:1:MAJOR:C-F3:x\n").files.map (·.1) = ["./a.c"] ∧
    (findings .empty "./a.c:1:MAJOR:C-F3:x\n").files.map (·.1) = ["a.c"] ∧
    (findings (.ofText "build/\n") "./build/x.c:1:MAJOR:C-F3:x\n").files.map (·.1) = [] ∧
    (findings (.ofText "build/\n") "././build/x.c:1:MAJOR:C-F3:x\n").files.map (·.1) =
      ["./build/x.c"] := by
  decide +kernel

end Report

end StyleMonitor
