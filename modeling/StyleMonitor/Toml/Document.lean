import StyleMonitor.Toml.Layout
import StyleMonitor.Toml.Scalar
import StyleMonitor.Toml.Strings

/-!
Documents: reading a text as a tree, and the text of a document. A document has a top, then
headers of tables, each with lines of keys and values below it. The blanks and comments before a
line belong to its key or header, those after the last line to the document.
-/

namespace StyleMonitor.Toml

/-- The part of `s` that was read when `rest` is left. -/
def consumed (s rest : List Char) : List Char :=
  s.take (s.length - rest.length)

/-- Blanks, newlines and comments, and what follows. -/
def readTrivia (inComment : Bool) : List Char → Option (List Char × List Char)
  | [] => some ([], [])
  | c :: rest =>
    let go := fun (inComment : Bool) =>
      (readTrivia inComment rest).map fun (trivia, rest) => (c :: trivia, rest)
    if c = '\n' then go false
    else if inComment then if isControl c then none else go true
    else if isBlank c then go false
    else if c = '#' then go true
    else some ([], c :: rest)

/-- The blanks and the comment at the end of a line, and what follows its newline. -/
def readLineEnd (s : List Char) : Option (List Char × List Char) :=
  let blanks := s.takeWhile isBlank
  let rest := s.dropWhile isBlank
  let comment := if rest.head? = some '#' then rest.takeWhile (· ≠ '\n') else []
  if comment.any isControl then none
  else match rest.drop comment.length with
    | [] => some (blanks ++ comment, [])
    | c :: rest => if c = '\n' then some (blanks ++ comment, rest) else none

/-- Whether a character can be part of a key without quotes. -/
def isKeyChar (c : Char) : Bool :=
  ('a' ≤ c && c ≤ 'z') || ('A' ≤ c && c ≤ 'Z') || Decimal.isDigit c || c = '_' || c = '-'

/-- A key, written without quotes or as a string on one line. -/
def readName (s : List Char) : Option (Key × List Char) :=
  if s.head? = some '"' ∨ s.head? = some '\'' then
    if s.take 3 = "\"\"\"".toList ∨ s.take 3 = "'''".toList then none
    else (readString s).map fun (name, rest) =>
      (⟨String.ofList name, consumed s rest, {}, {}⟩, rest)
  else
    let name := s.takeWhile isKeyChar
    if name.isEmpty then none else some (⟨String.ofList name, name, {}, {}⟩, s.dropWhile isKeyChar)

/-- One key of a row, with the blanks around it. -/
def readKey (s : List Char) : Option ((List Char × Key × List Char) × List Char) :=
  (readName (s.dropWhile isBlank)).map fun (key, rest) =>
    ((s.takeWhile isBlank, key, rest.takeWhile isBlank), rest.dropWhile isBlank)

/-- The keys of a row after the first one. -/
def readKeysFrom (first : List Char × Key × List Char) :
    Nat → List Char → Option (List (List Char × Key × List Char) × List Char)
  | fuel + 1, '.' :: rest => do
    let (key, rest) ← readKey rest
    let (keys, rest) ← readKeysFrom key fuel rest
    return (first :: keys, rest)
  | _, rest => some ([first], rest)

/-- A row of dotted keys: all but the last, and the last. The blanks around the row, and `before`
in front of them, decorate the last key. -/
def readRow (before : List Char) (s : List Char) : Option ((List Key × Key) × List Char) := do
  let (first, rest) ← readKey s
  let (keys, rest) ← readKeysFrom first s.length rest
  let decorated := keys.mapIdx fun i (blanks, key, later) =>
    let last := i + 1 = keys.length
    { key with
      dotted := .written (if i = 0 then [] else blanks) (if last then [] else later)
      outer := if last then .written (before ++ first.1) later else {} }
  let leaf ← decorated.getLast?
  return ((decorated.dropLast, leaf), rest)

/-- How deep arrays and inline tables may be nested. -/
def maxDepth : Nat := 80

mutual

/-- A value at most `depth` deep, in at most `fuel` steps. It is not decorated yet. -/
def readValue : Nat → Nat → List Char → Option (Item × List Char)
  | 0, _, _ => none
  | _, _, [] => none
  | fuel + 1, depth, c :: rest =>
    if c = '[' then do
      if depth = 0 then none
      let ((items, ending), rest) ← readItems fuel (depth - 1) [] rest
      return (.array {} items ending, rest)
    else if c = '{' then do
      if depth = 0 then none
      let ((members, ending), rest) ← readMembers fuel (depth - 1) [] rest
      return (.inline {} members ending, rest)
    else if c = '"' ∨ c = '\'' then do
      let (content, left) ← readString (c :: rest)
      return (.scalar {} (consumed (c :: rest) left) (.string (String.ofList content)), left)
    else
      let (spelling, rest) := spanScalar (c :: rest)
      (ofSpelling? spelling).map fun value => (.scalar {} spelling value, rest)

/-- The items of an array up to its closing bracket, after the items `done`. -/
def readItems : Nat → Nat → List Item → List Char → Option ((List Item × List Char) × List Char)
  | 0, _, _, _ => none
  | fuel + 1, depth, done, s => do
    let (before, s) ← readTrivia false s
    if s.head? = some ']' then
      return ((done, if done.isEmpty then before else ',' :: before), s.tail)
    let (item, s) ← readValue fuel depth s
    let (after, s) ← readTrivia false s
    let done := done ++ [item.decorated (.written before after)]
    if s.head? = some ',' then readItems fuel depth done s.tail
    else if s.head? = some ']' then return ((done, []), s.tail)
    else none

/-- The keys and values of an inline table up to its closing brace, after those in `done`. -/
def readMembers : Nat → Nat → Members → List Char → Option ((Members × List Char) × List Char)
  | 0, _, _, _ => none
  | fuel + 1, depth, done, s => do
    let (before, s) ← readTrivia false s
    if s.head? = some '}' then
      return ((done, if done.isEmpty then before else ',' :: before), s.tail)
    let ((path, leaf), s) ← readRow before s
    let s ← after? '=' s
    let before := s.takeWhile isBlank
    let s := s.dropWhile isBlank
    let (item, s) ← readValue fuel depth s
    let (after, s) ← readTrivia false s
    let done ← Members.define leaf (item.decorated (.written before after)) path done
    if s.head? = some ',' then readMembers fuel depth done s.tail
    else if s.head? = some '}' then return ((done, []), s.tail)
    else none

end

/-- A line of a document, with what was skipped before it. -/
inductive Line where
  /-- A header of a table, or of an element of an array of tables. -/
  | header (element : Bool) (decor : Decor) (path : List Key) (leaf : Key)
  | pair (path : List Key) (leaf : Key) (item : Item)

/-- A header after its first bracket. -/
def readHeader (trivia : List Char) (s : List Char) : Option (Line × List Char) := do
  let element := s.head? = some '['
  let ((path, leaf), s) ← readRow [] (if element then s.tail else s)
  let s ← after? ']' s
  let s ← if element then after? ']' s else some s
  let (after, s) ← readLineEnd s
  return (.header element (.written trivia after) path leaf, s)

/-- A key with its value. -/
def readPair (trivia : List Char) (s : List Char) : Option (Line × List Char) := do
  let ((path, leaf), s) ← readRow trivia s
  let s ← after? '=' s
  let before := s.takeWhile isBlank
  let s := s.dropWhile isBlank
  let (item, s) ← readValue (s.length + 1) maxDepth s
  let (after, s) ← readLineEnd s
  return (.pair path leaf (item.decorated (.written before after)), s)

/-- The lines of a document, and what comes after the last one, in at most `fuel` steps. -/
def readLinesOf : Nat → List Char → Option (List Line × List Char)
  | 0, _ => none
  | fuel + 1, s => do
    let (trivia, s) ← readTrivia false s
    match s with
    | [] => return ([], trivia)
    | c :: rest =>
      let (line, s) ← if c = '[' then readHeader trivia rest else readPair trivia (c :: rest)
      let (lines, trailing) ← readLinesOf fuel s
      return (line :: lines, trailing)

/-- A header with the lines below it. -/
structure Part where
  element : Bool
  heading : Heading
  path : List Key
  leaf : Key
  pairs : List (List Key × Key × Item)

/-- Groups lines below their headers, which get numbers from `number` on. -/
def group (number : Nat) : List Line → List (List Key × Key × Item) × List Part
  | [] => ([], [])
  | .pair path leaf item :: rest =>
    let (pairs, parts) := group number rest
    ((path, leaf, item) :: pairs, parts)
  | .header element decor path leaf :: rest =>
    let (pairs, parts) := group (number + 1) rest
    ([], ⟨element, { decor, position := some number }, path, leaf, pairs⟩ :: parts)

/-- Defines keys in a table, one after the other. -/
def fill (pairs : List (List Key × Key × Item)) (members : Members) : Option Members :=
  pairs.foldlM (fun members (path, leaf, item) => members.define leaf item path) members

/-- Adds a header with the lines below it to the tree. -/
def Part.addTo (part : Part) (top : Members) : Option Members :=
  let change := fun members =>
    if part.element then Members.addTable part.leaf part.heading (fill part.pairs) members
    else Members.openTable part.leaf part.heading (fill part.pairs) members
  Members.within change part.path top

/-- A document (`DocumentMut`): its tree, and what comes after its last line. -/
structure Document where
  top : Members
  trailing : List Char

namespace Document

/-- A text without the mark of its byte order, and with plain newlines. -/
def normal : List Char → List Char
  | '\r' :: '\n' :: rest => '\n' :: normal rest
  | c :: rest => c :: normal rest
  | [] => []

/-- Reads a text as a document. -/
def ofText? (text : String) : Option Document := do
  let s := match text.toList with
    | '\uFEFF' :: rest => rest
    | s => s
  let (lines, trailing) ← readLinesOf (s.length + 1) (normal s)
  let (pairs, parts) := group 1 lines
  let top ← fill pairs []
  return ⟨← parts.foldlM (fun top part => part.addTo top) top, trailing⟩

/-- The text of a document. -/
def text (document : Document) : String :=
  String.ofList (Section.textOf true (Section.ordered (sections document.top)) ++
    document.trailing)

/-- What a document means. -/
def value (document : Document) : Value :=
  .table (memberValues document.top)

end Document

end StyleMonitor.Toml
