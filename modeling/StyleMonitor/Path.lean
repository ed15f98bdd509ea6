import StyleMonitor.Text.Fields

/-!
Paths. A path is a text whose components stand between slashes. Repeated slashes, a trailing
slash and components `.` other than a leading one do not count, so two spellings with the same
components name the same path. Components are compared one by one, never as text: `a` is no part
of `ab`.
-/

namespace StyleMonitor

/-- A component of a path. -/
inductive Component where
  /-- The slash that an absolute path starts with. -/
  | root
  /-- A leading `.` of a relative path. -/
  | here
  /-- A component `..`. -/
  | parent
  | name (text : String)
  deriving DecidableEq, Repr

namespace Component

/-- The place of a kind of component in the order of paths. -/
def kindRank : Component → Nat
  | root => 0
  | here => 1
  | parent => 2
  | name _ => 3

/-- The order of components: by kind, then by the bytes of a name. -/
def compare : Component → Component → Ordering
  | name a, name b => Ord.compare a b
  | a, b => Ord.compare a.kindRank b.kindRank

/-- A component as it is written. -/
def text : Component → String
  | root => "/"
  | here => "."
  | parent => ".."
  | name text => text

end Component

namespace Path

/-- The pieces of a path between its slashes. -/
def pieces (path : List Char) : List (List Char) :=
  Text.fields '/' path

/-- The component that a piece after the first stands for, if it stands for one. -/
def component? (piece : List Char) : Option Component :=
  if piece = [] ∨ piece = ['.'] then none
  else if piece = ['.', '.'] then some .parent
  else some (.name (String.ofList piece))

/-- The component that the first piece of a path stands for. -/
def firstComponent? (path piece : List Char) : Option Component :=
  if piece = [] then (if path = [] then none else some .root)
  else if piece = ['.'] then some .here
  else component? piece

/-- The components of a path, those of its first piece marked off. -/
def pieceComponents (path : List Char) : List (Option Component) :=
  match pieces path with
  | [] => []
  | first :: rest => firstComponent? path first :: rest.map component?

/-- The components of a path. -/
def components (path : String) : List Component :=
  (pieceComponents path.toList).filterMap id

/-- Two spellings of one path. -/
def same (a b : String) : Bool :=
  components a == components b

/-- Whether a path starts with a slash. -/
def isAbsolute (path : String) : Bool :=
  path.toList.head? == some '/'

/-- Whether a text ends in a slash. -/
def endsInSlash (path : String) : Bool :=
  path.toList.getLast? == some '/'

/-- The order of paths: component by component. -/
def compareComponents : List Component → List Component → Ordering
  | [], [] => .eq
  | [], _ :: _ => .lt
  | _ :: _, [] => .gt
  | a :: as, b :: bs => (a.compare b).then (compareComponents as bs)

/-- Whether a path comes before another or is the same. -/
def le (a b : String) : Bool :=
  compareComponents (components a) (components b) != .gt

/-- The path that `tail` names when it is looked up from `base`. An absolute `tail` stands for
itself. -/
def join (base tail : String) : String :=
  if isAbsolute tail then tail
  else if base = "" ∨ endsInSlash base then base ++ tail
  else base ++ "/" ++ tail

/-- Components as a path. -/
def ofComponents (parts : List Component) : String :=
  parts.foldl (fun path part => join path part.text) ""

/-- Whether a path lies at or below another. -/
def isWithin (path base : String) : Bool :=
  (components base).isPrefixOf (components path)

/-- The path without its last component. A path that is empty or only a root has no parent. -/
def parent? (path : String) : Option String :=
  match (components path).getLast? with
  | none => none
  | some .root => none
  | some _ => some (ofComponents (components path).dropLast)

/-- The paths of ever fewer components that lead to the parent of a reversed path, to its
parent, and so on. -/
def parents : List Component → List String
  | [] => []
  | _ :: above => ofComponents above.reverse :: parents above

/-- A path, its parent, the parent of that, and so on, up to the root or the empty path. -/
def ancestors (path : String) : List String :=
  path :: parents (components path).reverse

/-- The name of what a path leads to, when its last component is a name. -/
def fileName? (path : String) : Option String :=
  match (components path).getLast? with
  | some (.name text) => some text
  | _ => none

/-- A file name as what stands before its last dot and what stands after it. A name that has
no dot, or only one in front, has no extension. -/
def splitName (name : String) : String × Option String :=
  match Text.cutLast '.' name.toList with
  | some (before, after) =>
    if before = [] ∨ name = ".." then (name, none)
    else (String.ofList before, some (String.ofList after))
  | none => (name, none)

/-- The extension of the file that a path names. -/
def extension? (path : String) : Option String :=
  (fileName? path).bind fun name => (splitName name).2

/-- The path of the file with another extension beside the one that a path names. A path that
names no file is left as it is. -/
def withExtension (path extension : String) : String :=
  match fileName? path with
  | some name =>
    ofComponents ((components path).dropLast ++
      [.name ((splitName name).1 ++ "." ++ extension)])
  | none => path

/-- Pieces without those at the front that stand for no component. -/
def dropVoid (parts : List (List Char × Option Component)) : List (List Char × Option Component) :=
  parts.dropWhile fun part => part.2.isNone

/-- Removes components from the front of the pieces of a path. -/
def dropComponents : Nat → List (List Char × Option Component) →
    List (List Char × Option Component)
  | 0, parts => parts
  | _ + 1, [] => []
  | n + 1, (_, some _) :: rest => dropComponents n rest
  | n + 1, (_, none) :: rest => dropComponents (n + 1) rest

/-- A path as it is seen from a path it lies within, spelled as it was. -/
def relativeTo? (path base : String) : Option String :=
  if isWithin path base then
    let parts := (pieces path.toList).zip (pieceComponents path.toList)
    let count := (components base).length
    let below := if count = 0 then parts else dropVoid (dropComponents count parts)
    let kept := (dropVoid below.reverse).reverse
    some (if count = 0 ∧ kept.length = 1 ∧ isAbsolute path then "/"
      else String.ofList (Text.joinFields '/' (kept.map (·.1))))
  else none

/-- A path made absolute (`std::path::absolute`) from the directory `current`, if there is one to be
had, without looking at what exists: pieces that stand for no component go, `..` and a trailing slash
stay. Two leading slashes stay two. The empty path cannot be made absolute, nor can a relative one
without a directory to start from. -/
def absolute? (current : Option String) (path : String) : Option String :=
  if path = "" then none
  else
    let parts := (components path).filter (· ≠ .here)
    let chars := path.toList
    let start? :=
      if isAbsolute path then
        some (if "//".toList.isPrefixOf chars ∧ ¬ "///".toList.isPrefixOf chars then "//" else "/")
      else current
    start?.map fun start =>
      let full := (parts.filter (· ≠ .root)).foldl (fun base part => join base part.text) start
      if endsInSlash path then join full "" else full

/-- A path made absolute, or left as it is when that fails. -/
def absolute (current : Option String) (path : String) : String :=
  (absolute? current path).getD path

@[simp] theorem same_refl (path : String) : same path path := by
  simp [same]

theorem isWithin_refl (path : String) : isWithin path path := by
  simp [isWithin]

end Path

end StyleMonitor
