import Mathlib.Algebra.GroupWithZero.Nat
import Mathlib.Data.List.Forall2
import StyleMonitor.Diagnostics
import StyleMonitor.Proofs.Path.Order
import StyleMonitor.Proofs.Report.Accounts
import StyleMonitor.Proofs.Text.Trimming

/-!
# Listings of a report

A listing has one line for each line of a report that was accepted. Lines about one path stand
together, in the order of the report, and the paths stand in the order of paths. What is printed of
a line can be told from the line alone: its path, the number and the severity that it names, and
its code.
-/

namespace StyleMonitor

/-- Items grouped by a key that takes each of these values once, in the order of these values. -/
theorem perm_flatMap_filter {α κ : Type} [DecidableEq κ] (key : α → κ) {keys : List κ}
    (once : keys.Nodup) {items : List α} (cover : ∀ item ∈ items, key item ∈ keys) :
    (keys.flatMap fun value => items.filter fun item => key item = value).Perm items := by
  induction keys generalizing items with
  | nil =>
    obtain rfl : items = [] := List.eq_nil_iff_forall_not_mem.mpr fun item member =>
      nomatch cover item member
    exact .nil
  | cons first rest ih =>
    obtain ⟨new, once⟩ := List.nodup_cons.mp once
    have apart : (rest.flatMap fun value => items.filter fun item => key item = value) =
        rest.flatMap fun value =>
          (items.filter fun item => !decide (key item = first)).filter fun item =>
            key item = value := by
      refine List.flatMap_congr fun value member => ?_
      rw [List.filter_filter]
      refine List.filter_congr fun item _ => ?_
      by_cases same : key item = value
      · have differs : key item ≠ first := by
          rintro rfl
          exact new (same ▸ member)
        simp [same, same ▸ differs]
      · simp [same]
    rw [List.flatMap_cons, apart]
    refine (List.Perm.append_left _ (ih once ?_)).trans (List.filter_append_perm _ _)
    intro item member
    obtain ⟨there, differs⟩ := List.mem_filter.mp member
    exact (List.mem_cons.mp (cover item there)).resolve_left (by simpa using differs)

/-- The items of one group keep their order. -/
theorem filter_flatMap_filter {α κ : Type} [DecidableEq κ] (key : α → κ) {keys : List κ}
    (once : keys.Nodup) {items : List α} (cover : ∀ item ∈ items, key item ∈ keys) (value : κ) :
    ((keys.flatMap fun value => items.filter fun item => key item = value).filter fun item =>
      key item = value) = items.filter fun item => key item = value := by
  have groups : ((keys.flatMap fun value => items.filter fun item => key item = value).filter
      fun item => key item = value) =
        if value ∈ keys then items.filter fun item => key item = value else [] := by
    clear cover
    induction keys with
    | nil => rfl
    | cons first rest ih =>
      obtain ⟨new, once⟩ := List.nodup_cons.mp once
      rw [List.flatMap_cons, List.filter_append, ih once, List.filter_filter]
      by_cases same : first = value
      · subst same
        simp [new]
      · have none : (items.filter fun item => key item = value && key item = first) = [] := by
          refine List.filter_eq_nil_iff.mpr fun item _ => ?_
          rintro both
          obtain ⟨one, two⟩ : key item = value ∧ key item = first := by simpa using both
          exact same (two.symm.trans one)
        simp [none, Ne.symm same]
  rw [groups]
  split
  · rfl
  · next absent =>
    refine (List.filter_eq_nil_iff.mpr fun item member named => absent ?_).symm
    have named : key item = value := by simpa using named
    exact named ▸ cover item member

namespace Report

variable {exclusions : Exclusions} {text : String}

/-- Whether a line adds a finding. -/
def isAccepted (exclusions : Exclusions) (line : String × Nat) : Bool :=
  match entryOf exclusions line with
  | .kept _ => true
  | _ => false

/-- The lines of a report that add a finding, each with its position. -/
def accepted (exclusions : Exclusions) (text : String) : List (String × Nat) :=
  (numbered text).filter (isAccepted exclusions)

/-- The path that a line names, as findings are filed under it. -/
def pathOf (line : String × Nat) : String :=
  String.ofList (normalPath ((Text.fields ':' line.1.toList).headD []))

/-- All accepted lines of a report, grouped by path. -/
structure Listing (exclusions : Exclusions) (text : String) (listed : List (String × Nat)) :
    Prop where
  once : listed.Perm (accepted exclusions text)
  sorted : listed.Pairwise fun first second => Path.le (pathOf first) (pathOf second) = true
  /-- The lines about a path keep their order. -/
  inOrder (path : String) : (listed.filter fun line => pathOf line = path) =
    (accepted exclusions text).filter fun line => pathOf line = path

/-- What is printed of a line: path, line number, level, code and description. The number is the
one that is written in the line, and the path leads where the path in the line leads. -/
structure Printed (line : String × Nat) (shown : String) : Prop where
  tells : ∃ path number severity code rest n seen,
    Text.fields ':' line.1.toList = path :: number :: severity :: code :: rest ∧
    Decimal.signedValue? (Text.trim number) = some n ∧ 1 ≤ n ∧ n < 2 ^ 32 ∧
    Path.same seen (pathOf line) = true ∧
    shown = seen ++ ":" ++ Decimal.text n ++ ": " ++
      (Severity.ofText (String.ofList (Text.trim severity))).level.label ++ " " ++
      String.ofList (Text.trim code) ++ " - " ++
      Rule.description (String.ofList (Text.trim code))

/-- Whether the paths of the accepted lines of a report are the paths of a project: each is looked
up from the project, none starts with a `.`, and none is spelled in two ways. -/
structure Tidy (exclusions : Exclusions) (text : String) : Prop where
  plain : ∀ line ∈ accepted exclusions text, Path.Plain (pathOf line)
  apart : ∀ first ∈ accepted exclusions text, ∀ second ∈ accepted exclusions text,
    Path.same (pathOf first) (pathOf second) = true → pathOf first = pathOf second

/-! ### What a line says -/

theorem lineNumber?_eq {field : List Char} {line : UInt32} (h : lineNumber? field = some line) :
    ∃ n, Decimal.signedValue? (Text.trim field) = some n ∧ 1 ≤ n ∧ n < 2 ^ 32 ∧
      line.toNat + 1 = n := by
  unfold lineNumber? at h
  cases value : Decimal.signedValue? (Text.trim field) with
  | none => simp [value] at h
  | some n =>
    simp only [value] at h
    split at h
    · next bounds =>
      obtain ⟨positive, small⟩ := bounds
      have small : n < 2 ^ 32 := small
      cases h
      refine ⟨n, rfl, positive, small, ?_⟩
      have kept : (UInt32.ofNat (n - 1)).toNat = n - 1 :=
        UInt32.toNat_ofNat_of_lt' (by simp only [UInt32.size]; omega)
      omega
    · cases h

/-- The severity and the code that a message names are those of its fields. -/
theorem heading_joinFields {severity code : List Char} {rest : List (List Char)}
    (none : ∀ piece ∈ severity :: code :: rest, ':' ∉ piece) :
    heading (Text.trim (Text.joinFields ':' (severity :: code :: rest))) =
      (Severity.ofText (String.ofList (Text.trim severity)), String.ofList (Text.trim code)) := by
  have mark : Text.isBlank ':' = false := by decide
  obtain ⟨one, two, more, found, first, second⟩ := Text.fields_trim_joinFields mark none
  rw [heading, found]
  simp only [first, second]

/-- What a line that holds a finding says, in terms of its fields. -/
theorem Line.eq_of_read_ok {index : Nat} {raw : String} {said : Line}
    (h : Line.read index raw = .ok said) :
    said.path = pathOf (raw, index) ∧
    ∃ path number severity code rest n,
      Text.fields ':' raw.toList = path :: number :: severity :: code :: rest ∧
      Decimal.signedValue? (Text.trim number) = some n ∧ 1 ≤ n ∧ n < 2 ^ 32 ∧
      said.finding.line.toNat + 1 = n ∧
      said.finding.severity = Severity.ofText (String.ofList (Text.trim severity)) ∧
      said.finding.code = String.ofList (Text.trim code) := by
  unfold Line.read at h
  split at h
  · next path number severity code rest fields =>
    split at h
    · next line value =>
      cases h
      obtain ⟨n, told, positive, small, counted⟩ := lineNumber?_eq value
      have none : ∀ piece ∈ severity :: code :: rest, ':' ∉ piece := by
        intro piece member
        have there : piece ∈ Text.fields ':' raw.toList := by
          rw [fields]
          exact List.mem_cons_of_mem _ (List.mem_cons_of_mem _ member)
        exact Text.not_mem_of_mem_fields there
      have names := heading_joinFields none
      refine ⟨by simp [pathOf, fields], path, number, severity, code, rest, n, fields, told,
        positive, small, counted, ?_, ?_⟩
      · simp only [findingOf, names]
      · simp only [findingOf, names]
    · cases h
  · cases h

/-- What is printed of a finding is what its line tells. -/
theorem printed_of_read {line : String × Nat} {said : Line}
    (read : Line.read line.2 line.1 = .ok said) {seen root path : String}
    (same : Path.same seen (pathOf line) = true)
    (place : Path.relativeTo? path root = some seen) :
    Printed line (Diagnostics.Diagnostic.shown root path (.ofFinding said.finding)) := by
  obtain ⟨-, named, number, severity, code, rest, n, fields, told, positive, small, counted,
    grave, rule⟩ := Line.eq_of_read_ok read
  refine ⟨named, number, severity, code, rest, n, seen, fields, told, positive, small, same, ?_⟩
  simp only [Diagnostics.Diagnostic.shown, place, Option.getD_some, Diagnostic.ofFinding, counted, grave,
    Finding.text, Finding.description, rule, String.append_assoc]

/-! ### Accepted lines -/

theorem isAccepted_iff {line : String × Nat} :
    isAccepted exclusions line = true ↔ ∃ said, hasText line = true ∧
      Line.read line.2 line.1 = .ok said ∧ accepts exclusions said.path = true := by
  rcases entryOf_cases exclusions line with ⟨found, blank⟩ | ⟨fault, found, -, read⟩ |
    ⟨said, found, -, read, out⟩ | ⟨said, found, text, read, kept⟩
  · simp [isAccepted, found, blank]
  · simp [isAccepted, found, read]
  · simp [isAccepted, found, read, out]
  · simp [isAccepted, found, read, kept, text]

/-- A line adds a finding to the list of a path if it is accepted and names the path. -/
theorem findingAt?_eq_some_iff {path : String} {line : String × Nat} {finding : Finding} :
    findingAt? exclusions path line = some finding ↔
      isAccepted exclusions line = true ∧ pathOf line = path ∧
        ∃ said, Line.read line.2 line.1 = .ok said ∧ said.finding = finding := by
  rw [isAccepted_iff, findingAt?]
  cases read : Line.read line.2 line.1 with
  | error fault => simp
  | ok said =>
    have named := (Line.eq_of_read_ok read).1
    simp [named, and_assoc]

theorem findingAt?_eq_none_iff {path : String} {line : String × Nat} :
    findingAt? exclusions path line = none ↔
      ¬ (isAccepted exclusions line = true ∧ pathOf line = path) := by
  rw [Option.eq_none_iff_forall_ne_some]
  simp only [ne_eq, findingAt?_eq_some_iff]
  constructor
  · rintro none ⟨taken, named⟩
    obtain ⟨said, -, read, -⟩ := isAccepted_iff.mp taken
    exact none said.finding ⟨taken, named, said, read, rfl⟩
  · rintro no finding ⟨taken, named, -⟩
    exact no ⟨taken, named⟩

/-- The findings of a path, beside the lines that tell of them. -/
theorem forall₂_accepted (exclusions : Exclusions) (path : String) (lines : List (String × Nat)) :
    List.Forall₂ (fun line finding => pathOf line = path ∧
        ∃ said, Line.read line.2 line.1 = .ok said ∧ said.finding = finding)
      ((lines.filter (isAccepted exclusions)).filter fun line => pathOf line = path)
      (lines.filterMap (findingAt? exclusions path)) := by
  induction lines with
  | nil => exact .nil
  | cons line rest ih =>
    cases found : findingAt? exclusions path line with
    | none =>
      have out := findingAt?_eq_none_iff.mp found
      rw [List.filterMap_cons, found, List.filter_cons]
      split
      · next taken =>
        rw [List.filter_cons, if_neg (by simpa [taken] using out)]
        exact ih
      · exact ih
    | some finding =>
      obtain ⟨taken, tells⟩ := findingAt?_eq_some_iff.mp found
      rw [List.filterMap_cons, found, List.filter_cons, if_pos taken, List.filter_cons,
        if_pos (by simpa using tells.1)]
      exact .cons tells ih

/-- A file has the findings of the accepted lines that name it. -/
theorem forall₂_file {file : String × List Finding}
    (member : file ∈ (findings exclusions text).files) :
    List.Forall₂ (fun line finding => pathOf line = file.1 ∧
        ∃ said, Line.read line.2 line.1 = .ok said ∧ said.finding = finding)
      ((accepted exclusions text).filter fun line => pathOf line = file.1) file.2 := by
  have accounts := parse_accounts exclusions text
  have list := accounts.list file.1
  have own : (findings exclusions text).get? file.1 = some file.2 :=
    accounts.distinct.get?_eq_some_iff.mpr member
  rw [findings] at own
  rw [own, Option.getD_some] at list
  rw [list]
  exact forall₂_accepted exclusions file.1 (numbered text)

theorem mem_files_of_accepted {line : String × Nat} (member : line ∈ accepted exclusions text) :
    pathOf line ∈ (findings exclusions text).files.map (·.1) := by
  obtain ⟨there, taken⟩ := List.mem_filter.mp member
  obtain ⟨said, -, read, -⟩ := isAccepted_iff.mp taken
  have accounts := parse_accounts exclusions text
  have adds : said.finding ∈ (((findings exclusions text).get? (pathOf line)).getD []) := by
    rw [findings, accounts.list]
    exact List.mem_filterMap.mpr
      ⟨line, there, findingAt?_eq_some_iff.mpr ⟨taken, rfl, said, read, rfl⟩⟩
  cases found : (findings exclusions text).get? (pathOf line) with
  | none =>
    rw [found] at adds
    cases adds
  | some list =>
    exact List.mem_map.mpr ⟨_, accounts.distinct.get?_eq_some_iff.mp found, rfl⟩

/-- A file is named by an accepted line. -/
theorem exists_accepted {file : String × List Finding}
    (member : file ∈ (findings exclusions text).files) :
    ∃ line ∈ accepted exclusions text, pathOf line = file.1 := by
  have accounts := parse_accounts exclusions text
  have lines := forall₂_file member
  cases found : (accepted exclusions text).filter fun line => pathOf line = file.1 with
  | nil =>
    rw [found] at lines
    have own := accounts.distinct.get?_eq_some_iff.mpr member
    rw [List.forall₂_nil_left_iff.mp lines] at own
    exact absurd own (accounts.some_of_listed file.1)
  | cons line rest =>
    have here : line ∈ (accepted exclusions text).filter fun line => pathOf line = file.1 := by
      rw [found]
      exact List.mem_cons_self
    obtain ⟨there, named⟩ := List.mem_filter.mp here
    exact ⟨line, there, by simpa using named⟩

/-! ### The listing -/

/-- The accepted lines of a report, grouped by the paths of its files. -/
def listing (exclusions : Exclusions) (text : String) : List (String × Nat) :=
  (((findings exclusions text).files.map (·.1)).mergeSort Path.le).flatMap fun path =>
    (accepted exclusions text).filter fun line => pathOf line = path

theorem nodup_sortedPaths (exclusions : Exclusions) (text : String) :
    (((findings exclusions text).files.map (·.1)).mergeSort Path.le).Nodup :=
  (List.mergeSort_perm _ _).nodup_iff.mpr (parse_accounts exclusions text).distinct

theorem pairwise_sortedPaths (paths : List String) :
    (paths.mergeSort Path.le).Pairwise fun first second => Path.le first second = true := by
  apply List.pairwise_mergeSort
  · intro one two three first second
    exact Path.le_trans first second
  · intro one two
    exact Path.le_total one two

theorem listing_listing (exclusions : Exclusions) (text : String) :
    Listing exclusions text (listing exclusions text) where
  once := by
    refine perm_flatMap_filter pathOf (nodup_sortedPaths exclusions text) ?_
    intro line member
    exact List.mem_mergeSort.mpr (mem_files_of_accepted member)
  sorted := by
    refine List.pairwise_flatMap.mpr ⟨?_, ?_⟩
    · intro path _
      refine List.pairwise_of_forall_mem_list ?_
      intro first here second there
      have same : pathOf first = pathOf second := by
        have one : pathOf first = path := by simpa using (List.mem_filter.mp here).2
        have two : pathOf second = path := by simpa using (List.mem_filter.mp there).2
        rw [one, two]
      rw [same]
      exact (Path.le_antisymm_iff.mpr (Path.same_refl _)).1
    · refine (pairwise_sortedPaths _).imp ?_
      intro one two before first here second there
      have named : pathOf first = one := by simpa using (List.mem_filter.mp here).2
      have other : pathOf second = two := by simpa using (List.mem_filter.mp there).2
      rw [named, other]
      exact before
  inOrder path := by
    refine filter_flatMap_filter pathOf (nodup_sortedPaths exclusions text) ?_ path
    intro line member
    exact List.mem_mergeSort.mpr (mem_files_of_accepted member)

end Report

end StyleMonitor
