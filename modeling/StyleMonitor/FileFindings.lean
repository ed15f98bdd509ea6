import StyleMonitor.Finding
import StyleMonitor.Text.Order

/-!
Findings grouped by file. Each path has one list, in the order in which its findings came. The
paths keep the order in which they first came; listings for the user are sorted by path.
-/

namespace StyleMonitor

/-- Findings of a project, by path. -/
structure FileFindings where
  files : List (String × List Finding) := []
  deriving DecidableEq, Repr

namespace FileFindings

/-- No findings. -/
def empty : FileFindings := {}

/-- Changes the list of one path, which is empty before if the path is new. -/
def alterList (path : String) (change : List Finding → List Finding) :
    List (String × List Finding) → List (String × List Finding)
  | [] => [(path, change [])]
  | (other, findings) :: rest =>
    if other = path then (other, change findings) :: rest
    else (other, findings) :: alterList path change rest

/-- Adds a finding at the end of its file's list (`FileFindings::push`). -/
def push (findings : FileFindings) (path : String) (finding : Finding) : FileFindings :=
  ⟨alterList path (· ++ [finding]) findings.files⟩

/-- Gives a path a list in place of the one it has. -/
def replace (findings : FileFindings) (path : String) (list : List Finding) : FileFindings :=
  ⟨alterList path (fun _ => list) findings.files⟩

/-- The findings of a path, if it has a list (`FileFindings::get`). -/
def get? (findings : FileFindings) (path : String) : Option (List Finding) :=
  findings.files.lookup path

/-- Whether a path has a list. -/
def contains (findings : FileFindings) (path : String) : Bool :=
  (findings.get? path).isSome

/-- The number of paths that have a list (`FileFindings::file_count`). -/
def fileCount (findings : FileFindings) : Nat :=
  findings.files.length

/-- The number of findings of all files (`FileFindings::total_count`). -/
def totalCount (findings : FileFindings) : Nat :=
  (findings.files.flatMap fun entry => entry.2).length

/-- Whether no path has a list. -/
def isEmpty (findings : FileFindings) : Bool :=
  findings.files.isEmpty

/-- The paths with their lists, sorted by path. -/
def sorted (findings : FileFindings) : List (String × List Finding) :=
  findings.files.mergeSort fun a b => Text.le a.1 b.1

/-- The paths, sorted (`FileFindings::sorted_paths`). -/
def sortedPaths (findings : FileFindings) : List String :=
  findings.sorted.map (·.1)

theorem lookup_alterList_self (path : String) (change : List Finding → List Finding)
    (files : List (String × List Finding)) :
    (alterList path change files).lookup path =
      some (change ((files.lookup path).getD [])) := by
  induction files with
  | nil => simp [alterList]
  | cons head rest ih =>
    obtain ⟨other, findings⟩ := head
    by_cases h : other = path
    · subst h; simp [alterList]
    · simp [alterList, h, List.lookup_cons, show (path == other) = false from by
        simpa using Ne.symm h, ih]

/-- Pushing extends the list of the path it names. -/
theorem get?_push_self (findings : FileFindings) (path : String) (finding : Finding) :
    (findings.push path finding).get? path =
      some ((findings.get? path).getD [] ++ [finding]) :=
  lookup_alterList_self path _ findings.files

end FileFindings

end StyleMonitor
