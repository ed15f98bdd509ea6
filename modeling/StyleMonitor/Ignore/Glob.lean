import StyleMonitor.Text.Bytes
import StyleMonitor.Text.Rows

/-!
Globs: patterns for paths. `?` stands for one byte and `*` for a run of bytes, neither for a
slash; `**` between slashes, or at an end, stands for any number of directories; brackets stand
for one byte of a class, and braces for any of the globs between their commas. A backslash takes
the meaning from the character after it.
-/

namespace StyleMonitor.Ignore

/-- An element of a glob. -/
inductive Token where
  | byte (b : UInt8)
  /-- One byte other than a slash. -/
  | one
  /-- Any number of bytes other than slashes. -/
  | run
  /-- Any number of directories in front. -/
  | leading
  /-- A slash, and anything after it. -/
  | trailing
  /-- A slash with any number of directories after it, each with its slash. -/
  | between
  /-- One byte of, or outside, these ranges. -/
  | among (negated : Bool) (ranges : List (UInt8 × UInt8))
  deriving DecidableEq, Repr

/-- The byte between the names of a path. -/
def slash : UInt8 := 47

namespace Token

/-- The row of an element, from the row of what follows it. -/
def row (s : Bytes) (after : List Bool) : Token → List Bool
  | byte b => Text.oneRow (· == b) s after
  | one => Text.oneRow (· != slash) s after
  | run => Text.runRow (· != slash) s after
  | leading => directories s after
  | trailing => Text.oneRow (· == slash) s (Text.runRow (fun _ => true) s after)
  | between => Text.oneRow (· == slash) s (directories s after)
  | among negated ranges =>
    Text.oneRow (fun b => ranges.any (fun (low, high) => low ≤ b && b ≤ high) != negated) s after
where
  /-- The row of any number of directories, each with its slash. -/
  directories (s : Bytes) (after : List Bool) : List Bool :=
    (after.zip (Text.runRow (fun _ => true) s (Text.oneRow (· == slash) s after))).map
      fun (here, later) => here || later

end Token

/-- Whether a row of elements matches all of a path. Any number of directories, and nothing after
them, is everything. -/
def matchesPath (tokens : List Token) (path : Bytes) : Bool :=
  tokens = [.leading] ||
    (tokens.foldr (fun token after => token.row path after) (Text.endRow path)).headD false

/-- Reads the characters of a class up to its closing bracket, and what follows. `none` if there
is no closing bracket; the inner `none` if a range runs backwards. -/
def readClass (first : Bool) (pairs : List (Char × Char)) (inRange : Bool) :
    List Char → Option (Option (List (Char × Char)) × List Char)
  | [] => none
  | c :: rest =>
    if c = ']' ∧ ¬ first then
      some (some (if inRange then pairs ++ [('-', '-')] else pairs), rest)
    else if inRange then
      match pairs.getLast? with
      | some (low, _) =>
        if c < low then some (none, rest)
        else readClass false (pairs.dropLast ++ [(low, c)]) false rest
      | none => readClass false [(c, c)] false rest
    else if c = '-' ∧ ¬ first then readClass false pairs true rest
    else readClass false (pairs ++ [(c, c)]) false rest

/-- The bytes of a character. -/
def bytesOf (c : Char) : Bytes :=
  Text.encode (String.singleton c)

/-- The ranges of bytes of a pair of characters. Bytes are matched one by one, so of a character
of several bytes each stands for itself, and a range joins the two bytes next to it. -/
def byteRanges (pair : Char × Char) : List (UInt8 × UInt8) :=
  let low := bytesOf pair.1
  let high := bytesOf pair.2
  if pair.1 = pair.2 then low.map fun b => (b, b)
  else low.dropLast.map (fun b => (b, b)) ++
    [(low.getLastD 0, high.headD 0)] ++ high.tail.map fun b => (b, b)

/-- A stack of braces that are open: for each the globs before it, and the globs between its
commas so far. -/
abbrev Braces := List (List (List Token) × List (List Token))

/-- What was read of a glob: the elements since the last brace or comma, one row for each way
through the braces closed since then, the open braces, and the character before. -/
structure Reading where
  rows : List (List Token) := [[]]
  braces : Braces := []
  before : Option Char := none

namespace Reading

/-- Adds an element. -/
def push (reading : Reading) (c : Char) (tokens : List Token) : Reading :=
  { reading with rows := reading.rows.map (· ++ tokens), before := some c }

/-- Whether nothing was read since the last brace or comma. -/
def isFresh (reading : Reading) : Bool :=
  reading.rows.all List.isEmpty

/-- Takes the last element of a row for a run of directories. -/
def putDirectories (token : Token) (row : List Token) : List Token :=
  if row.getLast? = some .leading ∨ row.getLast? = some .trailing then row
  else row.dropLast ++ [token]

end Reading

/-- Whether a glob between braces goes on no further. -/
def endsPart (braces : Braces) (s : List Char) : Bool :=
  match s with
  | [] => true
  | c :: _ => !braces.isEmpty && (c = ',' || c = '}')

/-- Reads two stars in a row: what they add, and how much of `rest`, the text after them, they
take. -/
def readStars (reading : Reading) (rest : List Char) : Reading × List Char :=
  let plain := (reading.push '*' [.run, .run], rest)
  let afterSlash := rest.head? = some '/'
  if reading.isFresh then
    if rest.isEmpty ∨ afterSlash then
      (reading.push (if afterSlash then '/' else '*') [.leading], rest.tail)
    else plain
  else if reading.before ≠ some '/' ∧
      (reading.braces.isEmpty ∨ (reading.before ≠ some ',' ∧ reading.before ≠ some '\x7b')) then
    plain
  else if endsPart reading.braces rest then
    ({ reading with rows := reading.rows.map (Reading.putDirectories .trailing),
                    before := some '*' }, rest)
  else if afterSlash then
    ({ reading with rows := reading.rows.map (Reading.putDirectories .between),
                    before := some '/' }, rest.tail)
  else plain

/-- Reads a glob, in at most `fuel` steps: its rows of elements, one for each way through its
braces. `none` if it is no glob. -/
def readGlob : Nat → Reading → List Char → Option (List (List Token))
  | 0, _, _ => none
  | _ + 1, reading, [] => if reading.braces.isEmpty then some reading.rows else none
  | fuel + 1, reading, c :: rest =>
    if c = '?' then readGlob fuel (reading.push c [.one]) rest
    else if c = '*' then
      if rest.head? = some '*' then
        let (reading, rest) := readStars reading rest.tail
        readGlob fuel reading rest
      else readGlob fuel (reading.push c [.run]) rest
    else if c = '[' then
      let negated := rest.head? = some '!' ∨ rest.head? = some '^'
      match readClass true [] false (if negated then rest.tail else rest) with
      | none => readGlob fuel (reading.push c ((bytesOf c).map .byte)) rest
      | some (none, _) => none
      | some (some pairs, rest) =>
        let ranges := pairs.flatMap byteRanges
        readGlob fuel (reading.push ']' [.among negated ranges]) rest
    else if c = '\x7b' then
      readGlob fuel ⟨[[]], (reading.rows, []) :: reading.braces, some c⟩ rest
    else if c = '\x7d' then
      match reading.braces with
      | [] => none
      | (before, parts) :: braces =>
        let parts := (parts ++ reading.rows).filter (¬ ·.isEmpty)
        let rows := if parts.isEmpty then before
          else before.flatMap fun row => parts.map (row ++ ·)
        readGlob fuel ⟨rows, braces, some c⟩ rest
    else if c = ',' then
      match reading.braces with
      | [] => readGlob fuel (reading.push c ((bytesOf c).map .byte)) rest
      | (before, parts) :: braces =>
        readGlob fuel ⟨[[]], (before, parts ++ reading.rows) :: braces, some c⟩ rest
    else if c = '\\' then
      match rest with
      | [] => none
      | d :: rest => readGlob fuel (reading.push d ((bytesOf d).map .byte)) rest
    else readGlob fuel (reading.push c ((bytesOf c).map .byte)) rest

/-- A glob: its rows of elements, any of which may match. -/
structure Glob where
  rows : List (List Token)
  deriving DecidableEq, Repr

namespace Glob

/-- The glob of a text, if the text is one. -/
def ofText? (s : List Char) : Option Glob :=
  (readGlob (s.length + 1) {} s).map Glob.mk

/-- Whether a glob matches all of a path. -/
def isMatch (glob : Glob) (path : Bytes) : Bool :=
  glob.rows.any fun row => matchesPath row path

end Glob

end StyleMonitor.Ignore
