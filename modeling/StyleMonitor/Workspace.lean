import StyleMonitor.Outcome
import StyleMonitor.Path

/-!
Workspaces: the roots that may be analyzed, and which of them a changed file belongs to. A file
belongs to the innermost root that it lies in; files with a banned extension belong to none.
-/

namespace StyleMonitor

/-- The roots that may be analyzed (`WorkspaceValidator`). -/
structure Workspace where
  /-- The roots, as absolute paths. -/
  roots : List String
  /-- Banned extensions in lower case, without a dot in front. -/
  banned : List String := []
  /-- Whether a root has to hold sources. -/
  requireSources : Bool := false
  deriving DecidableEq, Repr

namespace Workspace

/-- A text with its ASCII letters in lower case. -/
def lowerCase (text : String) : String :=
  String.ofList (text.toList.map Char.toLower)

/-- A banned extension as it is compared (`WorkspaceValidator::with_banned_extensions`). -/
def normalExtension (extension : String) : String :=
  lowerCase (String.ofList (extension.toList.dropWhile (· = '.')))

/-- The workspace of some roots, as seen from the directory `current`, if there is one
(`WorkspaceValidator::new`). -/
def make (current : Option String) (roots banned : List String) (requireSources : Bool) : Workspace :=
  ⟨roots.map (Path.absolute current), banned.map normalExtension, requireSources⟩

/-- The extension for which a path is banned, if it is (`WorkspaceValidator::banned_extension`). -/
def bannedExtension? (workspace : Workspace) (path : String) : Option String :=
  (Path.extension? path).bind fun extension =>
    if lowerCase extension ∈ workspace.banned then some (lowerCase extension) else none

/-- The deeper of two roots, the second if they are equally deep. -/
def deeper (first : Option String) (second : String) : Option String :=
  match first with
  | none => some second
  | some first =>
    if (Path.components second).length < (Path.components first).length then some first
    else some second

/-- The innermost root that an absolute path lies in (`WorkspaceValidator::root_of`). -/
def rootOf? (workspace : Workspace) (path : String) : Option String :=
  (workspace.roots.filter fun root => Path.isWithin path root).foldl deeper none

/-- The root that a changed file belongs to (`WorkspaceValidator::resolve`). `holdsSources` tells of a
root whether it holds sources. -/
def resolve (workspace : Workspace) (current : Option String) (holdsSources : String → Bool)
    (trigger : String) : Except TargetFault String :=
  match workspace.bannedExtension? trigger with
  | some extension => .error (.bannedExtension trigger extension)
  | none =>
    let path := Path.absolute current trigger
    match workspace.rootOf? path with
    | none => .error (.outsideWorkspace path)
    | some root =>
      if workspace.requireSources ∧ ¬ holdsSources root then .error (.noSources root)
      else .ok root

end Workspace

end StyleMonitor
