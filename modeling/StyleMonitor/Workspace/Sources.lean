import StyleMonitor.Disk.Calls
import StyleMonitor.Ignore.Rule

/-!
Finding out whether a root holds C or C++ sources that are not ignored. Files `.ignore` count
everywhere, from the root directory of the system down. What a repository ignores counts only
within one: its files `.gitignore` and `info/exclude`, and the user's own ignore file. Symbolic
links below the root are not followed.
-/

namespace StyleMonitor.Sources

/-- The extensions of sources (`SOURCE_EXTENSIONS`). -/
def extensions : List String := ["c", "h", "cpp", "hpp"]

/-- Whether a path has the extension of a source. -/
def isSourcePath (path : String) : Bool :=
  match Path.extension? path with
  | some extension => extension ∈ extensions
  | none => false

/-- The rules that a directory holds for what is below it. -/
structure Level where
  place : Place
  plain : List Ignore.Rule
  repository : List Ignore.Rule
  exclude : List Ignore.Rule
  /-- Whether the directory is the top of a repository. -/
  isTop : Bool

/-- The rules of a file, none if it cannot be read. -/
def rulesAt (disk : Disk) (path : String) : List Ignore.Rule :=
  match disk.read path with
  | .ok content => Ignore.rulesOf content
  | .error _ => []

/-- The first line of a file that is text. -/
def firstLine? (disk : Disk) (path : String) : Option (List Char) :=
  match disk.read path with
  | .ok content => ((Text.readableLines content).map String.toList).head?
  | .error _ => none

/-- Where the repository with its top at `path` keeps its own files. A file `.git` names the
directory of a work tree, which names the one in common. -/
def repositoryDirectory? (disk : Disk) (path : String) : Option String :=
  let own := Path.join path ".git"
  match disk.status own with
  | .ok (.file _ _) => do
    let line ← firstLine? disk own
    if "gitdir: ".toList.isPrefixOf line then
      let real := String.ofList (line.drop 8)
      let shared := String.ofList (← firstLine? disk (Path.join real "commondir"))
      return if shared.toList.head? = some '.' then Path.join real shared else shared
    else none
  | _ => some own

/-- The rules that the directory at a place holds. -/
def levelAt (disk : Disk) (place : Place) : Level :=
  let path := Disk.placePath place
  let isThere := fun name => (disk.status (Path.join path name)).toOption.isSome
  { place
    plain := rulesAt disk (Path.join path ".ignore")
    repository := rulesAt disk (Path.join path ".gitignore")
    exclude := match repositoryDirectory? disk path with
      | some directory => rulesAt disk (Path.join directory "info/exclude")
      | none => []
    isTop := isThere ".git" || isThere ".jj" }

/-- The levels up to and including the innermost repository top. -/
def upToTop : List Level → List Level
  | [] => []
  | level :: above => if level.isTop then [level] else level :: upToTop above

/-- The path of a place below the directory at another one. -/
def pathBelow (place above : Place) : Bytes :=
  Text.encode (String.intercalate "/" (place.drop above.length))

/-- Whether an entry is ignored. The levels are those of the directories that it is in, the
innermost first; `userPath` is the path that the user's own rules are matched with. -/
def isIgnored (levels : List Level) (userRules : List Ignore.Rule) (userPath : Bytes)
    (place : Place) (isDirectory : Bool) : Bool :=
  let ask := fun (levels : List Level) (rules : Level → List Ignore.Rule) =>
    levels.findSome? fun level =>
      Ignore.verdict? (rules level) (pathBelow place level.place) isDirectory
  let inRepository := levels.any (·.isTop)
  let verdict :=
    (ask levels Level.plain).or <|
      if inRepository then
        (ask (upToTop levels) Level.repository).or <|
          (ask (upToTop levels) Level.exclude).or <|
            Ignore.verdict? userRules userPath isDirectory
      else none
  verdict = some .ignored

/-- A walk below a root: the files, the user's own rules, and what the user's rules see of the
path to a place. -/
structure Walker where
  disk : Disk
  userRules : List Ignore.Rule
  userPath : Place → Bytes

/-- Whether a source is found below the directory at a place, at most `depth` directories down.
The levels are those of the directories above it. -/
def isFoundBelow (walker : Walker) : Nat → List Level → Place → Bool
  | 0, _, _ => false
  | depth + 1, above, place =>
    let levels := levelAt walker.disk place :: above
    (walker.disk.tree.entries place).any fun (name, node) =>
      let entry := place ++ [name]
      let skipped := name = ".git" ∨
        isIgnored levels walker.userRules (walker.userPath entry) entry node.isDirectory
      if skipped then false
      else match node with
        | .directory => isFoundBelow walker depth levels entry
        | .file _ _ => isSourcePath name
        | .link _ => false

/-- The places above a place, the innermost first. -/
def placesAbove : Place → List Place
  | place => (List.range place.length).reverse.map place.take

/-- A text without what it starts with, and without a slash after that. -/
def withoutStart (start s : List Char) : List Char :=
  if start.isPrefixOf s then
    let rest := s.drop start.length
    if rest.head? = some '/' then rest.tail else rest
  else s

/-- What the user's rules see of a path: the path from the current directory, if it lies
there. -/
def seenByUser (current path : String) : Bytes :=
  let chars := path.toList
  let chars := if "./".toList.isPrefixOf chars then chars.drop 2 else chars
  Text.encode (String.ofList
    (if '/' ∈ chars then withoutStart current.toList chars else chars))

/-- The ignore file of the user with this home. -/
def userFile (home : String) : String :=
  Path.join home ".config/git/ignore"

/-- Whether a root holds sources (`has_sources`). A root that is a file holds itself; the root `-`
stands for the standard input and holds nothing. -/
def areHeld (disk : Disk) (home root : String) : Bool :=
  if root = "-" then false
  else match disk.status root with
  | .error _ => false
  | .ok (.file _ _) => isSourcePath root
  | .ok (.link _) => false
  | .ok .directory =>
    match disk.spot true root with
    | .error _ => false
    | .ok found =>
      let walker : Walker := {
        disk
        userRules := rulesAt disk (userFile home)
        userPath := fun place =>
          let below := String.intercalate "/" (place.drop found.place.length)
          seenByUser disk.currentPath (Path.join root below) }
      isFoundBelow walker (disk.tree.nodes.length + 1)
        ((placesAbove found.place).map (levelAt disk)) found.place

end StyleMonitor.Sources
