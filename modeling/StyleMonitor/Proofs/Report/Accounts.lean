import Mathlib.Data.List.Induction
import StyleMonitor.Proofs.FileFindings
import StyleMonitor.Proofs.Text.Lines
import StyleMonitor.Report

/-!
# Every line of a report counts once

What a report holds can be read off its lines one at a time: a line is blank, or it is malformed,
or it names a path that is left out, or it adds one finding to the list of its path. The findings
of a report and the faults of its malformed lines are exactly what the lines come to, in their
order; so a report that starts with whole lines can be parsed in two parts.
-/

namespace StyleMonitor.Report

variable {exclusions : Exclusions}

/-- The lines of a report, each with its position, counted from 1. -/
def numbered (text : String) : List (String × Nat) :=
  (Text.linesOf text).zipIdx 1

/-- Whether a line holds anything but blanks. -/
def hasText (line : String × Nat) : Bool :=
  line.1.toList.any fun c => !Text.isBlank c

/-- The fault of a line that holds text and no finding. -/
def fault? (line : String × Nat) : Option Fault :=
  match Line.read line.2 line.1 with
  | .ok _ => none
  | .error fault => if hasText line then some fault else none

/-- Whether a line holds a finding at a path that is left out. -/
def isLeftOut (exclusions : Exclusions) (line : String × Nat) : Bool :=
  hasText line && match Line.read line.2 line.1 with
    | .ok said => !accepts exclusions said.path
    | .error _ => false

/-- The finding that a line adds to the list of a path, if it adds one. -/
def findingAt? (exclusions : Exclusions) (path : String) (line : String × Nat) : Option Finding :=
  match Line.read line.2 line.1 with
  | .ok said =>
    if hasText line ∧ accepts exclusions said.path ∧ said.path = path then some said.finding
    else none
  | .error _ => none

/-- The line that a fault is about. -/
def Fault.raw : Fault → String
  | missingFields _ _ raw => raw
  | invalidLineNumber _ _ raw => raw

/-- What some lines come to: the findings by path, and the faults. -/
structure Accounts (exclusions : Exclusions) (lines : List (String × Nat))
    (findings : FileFindings) (faults : List Fault) : Prop where
  /-- A line with text holds one finding, or is malformed, or is left out. -/
  count : lines.countP hasText =
    findings.totalCount + faults.length + lines.countP (isLeftOut exclusions)
  /-- A path has the findings of the lines about it, in their order. -/
  list (path : String) :
    (findings.get? path).getD [] = lines.filterMap (findingAt? exclusions path)
  /-- A path is listed only for a finding. -/
  some_of_listed (path : String) : findings.get? path ≠ some []
  distinct : findings.Distinct
  /-- There is a fault for each malformed line, in their order. -/
  malformed : faults = lines.filterMap fault?
  /-- A fault tells of its line and of the line's position. -/
  placed : (faults.map fun fault => (fault.raw, fault.index)) =
    lines.filter fun line => (fault? line).isSome

/-! ### Lines and entries -/

theorem hasText_eq_false_iff {raw : String} {index : Nat} :
    hasText (raw, index) = false ↔ Text.trim raw.toList = [] := by
  simp [hasText, Text.trim_eq_nil_iff]

/-- A fault tells of the line that was read. -/
theorem Line.eq_of_read_error {index : Nat} {raw : String} {fault : Fault}
    (h : Line.read index raw = .error fault) : (fault.raw, fault.index) = (raw, index) := by
  unfold Line.read at h
  split at h
  · split at h
    · cases h
    · cases h
      rfl
  · cases h
    rfl

/-- The entry of a line with its position. -/
def entryOf (exclusions : Exclusions) (line : String × Nat) : Entry :=
  entry exclusions line.2 line.1

theorem entriesFrom_eq (exclusions : Exclusions) (index : Nat) (lines : List String) :
    entriesFrom exclusions index lines = (lines.zipIdx index).map (entryOf exclusions) := by
  induction lines generalizing index with
  | nil => rfl
  | cons raw rest ih =>
    rw [entriesFrom, ih, List.zipIdx_cons, List.map_cons]
    rfl

theorem entries_eq (exclusions : Exclusions) (text : String) :
    entries exclusions text = (numbered text).map (entryOf exclusions) :=
  entriesFrom_eq exclusions 1 _

/-- The ways in which a line can count, each with what says so. -/
theorem entryOf_cases (exclusions : Exclusions) (line : String × Nat) :
    (entryOf exclusions line = .blank ∧ hasText line = false) ∨
    (∃ fault, entryOf exclusions line = .malformed fault ∧ hasText line = true ∧
      Line.read line.2 line.1 = .error fault) ∨
    (∃ said, entryOf exclusions line = .leftOut said ∧ hasText line = true ∧
      Line.read line.2 line.1 = .ok said ∧ accepts exclusions said.path = false) ∨
    (∃ said, entryOf exclusions line = .kept said ∧ hasText line = true ∧
      Line.read line.2 line.1 = .ok said ∧ accepts exclusions said.path = true) := by
  obtain ⟨raw, index⟩ := line
  simp only [entryOf, entry]
  cases blank : hasText (raw, index) with
  | false =>
    rw [if_pos (hasText_eq_false_iff.mp blank)]
    exact Or.inl ⟨rfl, rfl⟩
  | true =>
    have text : ¬ Text.trim raw.toList = [] := by
      intro none
      rw [hasText_eq_false_iff.mpr none] at blank
      cases blank
    rw [if_neg text]
    cases read : Line.read index raw with
    | error fault => exact Or.inr (Or.inl ⟨fault, rfl, rfl, rfl⟩)
    | ok said =>
      cases kept : accepts exclusions said.path with
      | false => exact Or.inr (Or.inr (Or.inl ⟨said, by simp [kept], rfl, rfl, kept⟩))
      | true => exact Or.inr (Or.inr (Or.inr ⟨said, by simp [kept], rfl, rfl, kept⟩))

/-! ### Adding up lines -/

theorem gather_append (lines : List Line) (last : Line) :
    gather (lines ++ [last]) = (gather lines).push last.path last.finding := by
  simp [gather, List.foldl_append]

theorem keptLines_append (first second : List Entry) :
    keptLines (first ++ second) = keptLines first ++ keptLines second :=
  List.filterMap_append

theorem faults_append (first second : List Entry) :
    faults (first ++ second) = faults first ++ faults second :=
  List.filterMap_append

theorem Accounts.nil (exclusions : Exclusions) : Accounts exclusions [] .empty [] where
  count := rfl
  list _ := rfl
  some_of_listed _ := nofun
  distinct := FileFindings.distinct_empty
  malformed := rfl
  placed := rfl

variable {lines : List (String × Nat)} {findings : FileFindings} {faults : List Fault}

/-- A line that adds nothing changes nothing. -/
theorem Accounts.skip (accounts : Accounts exclusions lines findings faults)
    {line : String × Nat} (silent : ∀ path, findingAt? exclusions path line = none)
    (sound : fault? line = none)
    (balanced : hasText line = isLeftOut exclusions line) :
    Accounts exclusions (lines ++ [line]) findings faults where
  count := by
    have count := accounts.count
    simp only [List.countP_append, List.countP_singleton, balanced]
    omega
  list path := by
    rw [accounts.list, List.filterMap_append, List.filterMap_cons, silent]
    simp
  some_of_listed := accounts.some_of_listed
  distinct := accounts.distinct
  malformed := by
    rw [accounts.malformed, List.filterMap_append]
    simp [sound]
  placed := by
    rw [accounts.placed, List.filter_append]
    simp [sound]

theorem Accounts.fault (accounts : Accounts exclusions lines findings faults)
    {line : String × Nat} {fault : Fault} (text : hasText line = true)
    (read : Line.read line.2 line.1 = .error fault) :
    Accounts exclusions (lines ++ [line]) findings (faults ++ [fault]) where
  count := by
    have count := accounts.count
    have kept : isLeftOut exclusions line = false := by simp [isLeftOut, read]
    simp only [List.countP_append, List.countP_singleton, List.length_append,
      List.length_singleton, text, kept]
    simp only [if_true, Bool.false_eq_true, if_false]
    omega
  list path := by
    have silent : findingAt? exclusions path line = none := by simp [findingAt?, read]
    rw [accounts.list, List.filterMap_append, List.filterMap_cons, silent]
    simp
  some_of_listed := accounts.some_of_listed
  distinct := accounts.distinct
  malformed := by
    have bad : fault? line = some fault := by simp [fault?, text, read]
    rw [accounts.malformed, List.filterMap_append]
    simp [bad]
  placed := by
    have told := Line.eq_of_read_error read
    have bad : fault? line = some fault := by simp [fault?, text, read]
    rw [List.map_append, accounts.placed, List.filter_append]
    simp [bad, told]

theorem Accounts.keep (accounts : Accounts exclusions lines findings faults)
    {line : String × Nat} {said : Line} (text : hasText line = true)
    (read : Line.read line.2 line.1 = .ok said) (kept : accepts exclusions said.path = true) :
    Accounts exclusions (lines ++ [line]) (findings.push said.path said.finding) faults where
  count := by
    have count := accounts.count
    have kept : isLeftOut exclusions line = false := by simp [isLeftOut, read, kept]
    simp only [List.countP_append, List.countP_singleton, FileFindings.totalCount_push, text, kept]
    simp only [if_true, Bool.false_eq_true, if_false]
    omega
  list path := by
    rw [List.filterMap_append]
    by_cases same : said.path = path
    · subst same
      have adds : findingAt? exclusions said.path line = some said.finding := by
        simp [findingAt?, read, text, kept]
      rw [FileFindings.get?_push_self, Option.getD_some, accounts.list]
      simp [adds]
    · have silent : findingAt? exclusions path line = none := by simp [findingAt?, read, same]
      rw [FileFindings.get?_push_of_ne (Ne.symm same), accounts.list]
      simp [silent]
  some_of_listed path := by
    by_cases same : path = said.path
    · subst same
      simp [FileFindings.get?_push_self]
    · rw [FileFindings.get?_push_of_ne same]
      exact accounts.some_of_listed path
  distinct := accounts.distinct.push _ _
  malformed := by
    have sound : fault? line = none := by simp [fault?, read]
    rw [accounts.malformed, List.filterMap_append]
    simp [sound]
  placed := by
    have sound : fault? line = none := by simp [fault?, read]
    rw [accounts.placed, List.filter_append]
    simp [sound]

/-- Each line in turn adds what it comes to. -/
theorem accounts_for_lines (exclusions : Exclusions) (lines : List (String × Nat)) :
    Accounts exclusions lines (gather (keptLines (lines.map (entryOf exclusions))))
      (Report.faults (lines.map (entryOf exclusions))) := by
  induction lines using List.reverseRecOn with
  | nil => exact .nil exclusions
  | append_singleton lines line ih =>
    rw [List.map_append, List.map_singleton, keptLines_append, faults_append]
    rcases entryOf_cases exclusions line with ⟨found, blank⟩ | ⟨fault, found, text, read⟩ |
      ⟨said, found, text, read, out⟩ | ⟨said, found, text, read, kept⟩
    · have adds : keptLines [.blank] = [] ∧ Report.faults [.blank] = [] := ⟨rfl, rfl⟩
      rw [found, adds.1, adds.2, List.append_nil, List.append_nil]
      refine ih.skip ?_ ?_ ?_
      · intro path
        simp only [findingAt?, blank]
        split <;> simp
      · simp only [fault?, blank]
        split <;> simp
      · simp [isLeftOut, blank]
    · have adds : keptLines [.malformed fault] = [] ∧ Report.faults [.malformed fault] = [fault] :=
        ⟨rfl, rfl⟩
      rw [found, adds.1, adds.2, List.append_nil]
      exact ih.fault text read
    · have adds : keptLines [.leftOut said] = [] ∧ Report.faults [.leftOut said] = [] := ⟨rfl, rfl⟩
      rw [found, adds.1, adds.2, List.append_nil, List.append_nil]
      refine ih.skip ?_ ?_ ?_
      · intro path
        simp [findingAt?, read, out]
      · simp [fault?, read]
      · simp [isLeftOut, read, text, out]
    · have adds : keptLines [.kept said] = [said] ∧ Report.faults [.kept said] = [] := ⟨rfl, rfl⟩
      rw [found, adds.1, adds.2, List.append_nil, gather_append]
      exact ih.keep text read kept

/-! ### Reports one after the other -/

/-- The fault of the same line, so many lines further down. -/
def Fault.later (lines : Nat) : Fault → Fault
  | missingFields index found raw => missingFields (index + lines) found raw
  | invalidLineNumber index value raw => invalidLineNumber (index + lines) value raw

/-- Where a line stands shows in its fault alone. -/
theorem Line.read_later (lines index : Nat) (raw : String) :
    Line.read (index + lines) raw = (Line.read index raw).mapError (Fault.later lines) := by
  unfold Line.read
  split
  · split <;> rfl
  · rfl

/-- A line so many lines further down. -/
def lowered (lines : Nat) (line : String × Nat) : String × Nat :=
  (line.1, line.2 + lines)

theorem hasText_lowered (lines : Nat) (line : String × Nat) :
    hasText (lowered lines line) = hasText line := by
  simp only [hasText, lowered]

theorem read_lowered (lines : Nat) (line : String × Nat) :
    Line.read (lowered lines line).2 (lowered lines line).1 =
      (Line.read line.2 line.1).mapError (Fault.later lines) :=
  Line.read_later lines line.2 line.1

theorem findingAt?_lowered (exclusions : Exclusions) (path : String) (lines : Nat)
    (line : String × Nat) :
    findingAt? exclusions path (lowered lines line) = findingAt? exclusions path line := by
  simp only [findingAt?, hasText_lowered, read_lowered]
  cases Line.read line.2 line.1 with
  | ok said => rfl
  | error fault => rfl

theorem fault?_lowered (lines : Nat) (line : String × Nat) :
    fault? (lowered lines line) = (fault? line).map (Fault.later lines) := by
  simp only [fault?, hasText_lowered, read_lowered]
  cases Line.read line.2 line.1 with
  | ok said => rfl
  | error fault =>
    simp only [Except.mapError]
    by_cases text : hasText line = true
    · rw [if_pos text, if_pos text, Option.map_some]
    · rw [if_neg text, if_neg text, Option.map_none]

/-- The lines of two reports one after the other. -/
theorem numbered_append (first second : String)
    (ends : first = "" ∨ ∃ body, first = body ++ "\n") :
    numbered (first ++ second) =
      numbered first ++ (numbered second).map (lowered (Text.linesOf first).length) := by
  rw [numbered, Text.linesOf_append first second ends, List.zipIdx_append]
  congr 1
  rw [numbered, List.zipIdx_eq_map_add, List.zipIdx_eq_map_add (i := 1), List.map_map]
  refine List.map_congr_left ?_
  intro line _
  simp [lowered]
  omega

theorem parse_accounts (exclusions : Exclusions) (text : String) :
    Accounts exclusions (numbered text) (parse exclusions text).1 (parse exclusions text).2 := by
  rw [parse, entries_eq]
  exact accounts_for_lines exclusions (numbered text)

/-- Every line of a report counts once: the findings and the faults are what the lines come to one
by one. A report that follows whole lines is parsed as if it stood alone, but for the positions of
its malformed lines. -/
theorem parse_accounts_for_every_line (exclusions : Exclusions) (text : String) :
    Accounts exclusions (numbered text) (parse exclusions text).1 (parse exclusions text).2 ∧
    ∀ more, (text = "" ∨ ∃ body, text = body ++ "\n") →
      (∀ path, ((parse exclusions (text ++ more)).1.get? path).getD [] =
        ((parse exclusions text).1.get? path).getD [] ++
          ((parse exclusions more).1.get? path).getD []) ∧
      (parse exclusions (text ++ more)).2 = (parse exclusions text).2 ++
        (parse exclusions more).2.map (Fault.later (Text.linesOf text).length) := by
  refine ⟨parse_accounts exclusions text, ?_⟩
  intro more ends
  have first := parse_accounts exclusions text
  have second := parse_accounts exclusions more
  have both := parse_accounts exclusions (text ++ more)
  have lines := numbered_append text more ends
  constructor
  · intro path
    rw [both.list, lines, List.filterMap_append, List.filterMap_map, first.list, second.list]
    have same : findingAt? exclusions path ∘ lowered (Text.linesOf text).length =
        findingAt? exclusions path := funext (findingAt?_lowered exclusions path _)
    rw [same]
  · rw [both.malformed, lines, List.filterMap_append, List.filterMap_map, first.malformed,
      second.malformed, List.map_filterMap]
    have same : fault? ∘ lowered (Text.linesOf text).length =
        fun line => (fault? line).map (Fault.later (Text.linesOf text).length) :=
      funext (fault?_lowered _)
    rw [same]

/-- The first part has a line in a directory that is excluded, the second one in a directory for
tests; both have a line of `a.c`, spelled in two ways, and a malformed one. -/
theorem parse_accounts_for_every_line_twoParts :
    let rules := Exclusions.ofText "build/\n"
    let text := "./a.c:1:MAJOR:C-F3:x\r\n\nbad\nbuild/b.c:1:MINOR:C-G1:y\n"
    let more := "tests/a.c:1:INFO:C-A3\na.c:x:INFO\na.c: +2 : MINOR : C-G1 :y:z\nb.c:3:INFO:C-A3"
    let (findings, faults) := parse rules (text ++ more)
    faults = [.missingFields 3 1 "bad", .missingFields 6 3 "a.c:x:INFO"] ∧
    (findings.get? "a.c").getD [] = [⟨0, .major, "C-F3", "MAJOR:C-F3:x"⟩,
      ⟨1, .minor, "C-G1", "MINOR : C-G1 :y:z"⟩] ∧
    ["./a.c", "build/b.c", "tests/a.c"].map findings.get? = [none, none, none] ∧
    (numbered (text ++ more)).countP hasText = 7 ∧
    (numbered (text ++ more)).countP (isLeftOut rules) = 2 ∧
    findings.totalCount = 3 := by
  intro rules text more
  obtain ⟨_, apart⟩ := parse_accounts_for_every_line rules text
  obtain ⟨lists, faults⟩ := apart more
    (Or.inr ⟨"./a.c:1:MAJOR:C-F3:x\r\n\nbad\nbuild/b.c:1:MINOR:C-G1:y", rfl⟩)
  obtain ⟨⟨count, -, -, -, -, -⟩, -⟩ := parse_accounts_for_every_line rules (text ++ more)
  have written : (numbered (text ++ more)).countP hasText = 7 := by decide +kernel
  have out : (numbered (text ++ more)).countP (isLeftOut rules) = 2 := by decide +kernel
  rw [faults, written, out] at count
  have bad : ((parse rules text).2 ++ (parse rules more).2.map
      (Fault.later (Text.linesOf text).length)).length = 2 := by decide +kernel
  dsimp only
  rw [faults, lists]
  exact ⟨by decide +kernel, by decide +kernel, by decide +kernel, written, out, by omega⟩

end StyleMonitor.Report
