import StyleMonitor.Disk.Failure
import StyleMonitor.Disk.Tree
import StyleMonitor.Path

/-!
Walking a path through the tree of files, from the current directory or from the root. Symbolic
links on the way are followed, the one at the end only on demand, and only so many of them.
-/

namespace StyleMonitor

/-- The files as a program sees them: the tree and the directory that relative paths start
from. -/
structure Disk where
  tree : Tree := {}
  current : Place := []
  deriving DecidableEq, Repr

namespace Disk

/-- Where a path leads. -/
structure Spot where
  place : Place
  /-- What stands there. -/
  node : Option Node
  /-- Whether the path ends in a name, and not in `.`, in `..` or at the root. -/
  named : Bool
  deriving DecidableEq, Repr

/-- The most symbolic links that one walk follows. -/
def maxLinks : Nat := 40

/-- The longest name of a file, in bytes. -/
def maxName : Nat := 255

/-- A path has fewer bytes than this. -/
def pathLimit : Nat := 4096

/-- The names in a path, `.` and `..` among them. -/
def names (path : String) : List String :=
  ((Path.pieces path.toList).filter (· ≠ [])).map String.ofList

/-- Walks names from a directory. What stands in the middle of the way has to be a directory or
lead to one; at the end anything may stand, or nothing. `through` goes on from a link: it is
given the directory from which the link's target is looked up, and all names still to walk. -/
def walkBetweenLinks (tree : Tree) (follow : Bool)
    (through : Place → List String → Except Cause Spot) (start : Place) :
    List String → Except Cause Spot
  | [] => .ok ⟨start, some .directory, false⟩
  | name :: rest =>
    if name = "." then walkBetweenLinks tree follow through start rest
    else if name = ".." then walkBetweenLinks tree follow through start.dropLast rest
    else if maxName < Text.size name then .error .nameTooLong
    else
      let place := start ++ [name]
      match tree.lookup place with
      | none => if rest = [] then .ok ⟨place, none, true⟩ else .error .notFound
      | some .directory =>
        if rest = [] then .ok ⟨place, some .directory, true⟩
        else walkBetweenLinks tree follow through place rest
      | some (.file content executable) =>
        if rest = [] then .ok ⟨place, some (.file content executable), true⟩
        else .error .notADirectory
      | some (.link target) =>
        if rest = [] ∧ follow = false then .ok ⟨place, some (.link target), true⟩
        else through (if Path.isAbsolute target then [] else start) (names target ++ rest)

/-- Walks names from a directory, through at most so many links. -/
def walk (tree : Tree) (follow : Bool) : Nat → Place → List String → Except Cause Spot
  | 0 => walkBetweenLinks tree follow fun _ _ => .error .tooManyLinks
  | links + 1 => walkBetweenLinks tree follow (walk tree follow links)

/-- Looks up where a path leads, the link at its end followed or not. -/
def spot (disk : Disk) (follow : Bool) (path : String) : Except Failure Spot :=
  if '\x00' ∈ path.toList then .error .nulInPath
  else if path = "" then .error (.refused .notFound)
  else if pathLimit ≤ Text.size path then .error (.refused .nameTooLong)
  else
    let start := if Path.isAbsolute path then [] else disk.current
    match walk disk.tree follow maxLinks start (names path) with
    | .ok found => .ok found
    | .error cause => .error (.refused cause)

/-- A place as an absolute path. -/
def placePath (place : Place) : String :=
  if place = [] then "/" else String.join (place.map ("/" ++ ·))

/-- The current directory as an absolute path. -/
def currentPath (disk : Disk) : String :=
  placePath disk.current

end Disk

end StyleMonitor
