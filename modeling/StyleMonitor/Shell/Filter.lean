import StyleMonitor.Shell.Utility
import StyleMonitor.Text.Order

/-!
Filters: utilities that make one text of another, and those that take paths and directories
apart.
-/

namespace StyleMonitor.Shell

/-- The lines of a text without their ends. -/
def linesOf (s : List Char) : List (List Char) :=
  let pieces := s.splitOnP (· = '\n')
  if pieces.getLast? = some [] then pieces.dropLast else pieces

/-- Lines as a text. -/
def ofLines (lines : List (List Char)) : List Char :=
  lines.flatMap (· ++ ['\n'])

/-- The number that an option of one letter is given, in the same argument or in the next. -/
def optionNumber? (letter : Char) : List (List Char) → Option Nat
  | ['-', c] :: value :: rest =>
    if c = letter then Decimal.value? value else optionNumber? letter (value :: rest)
  | ('-' :: c :: value) :: rest =>
    if c = letter ∧ value ≠ [] then Decimal.value? value else optionNumber? letter rest
  | _ :: rest => optionNumber? letter rest
  | [] => none

/-- The arguments without options of one letter and the numbers that those are given. -/
def withoutOptions (letters : List Char) : List (List Char) → List (List Char)
  | ['-', c] :: value :: rest =>
    if c ∈ letters then withoutOptions letters rest
    else withoutOptions letters (value :: rest)
  | argument :: rest =>
    if argument.head? = some '-' ∧ argument ≠ ['-'] then withoutOptions letters rest
    else argument :: withoutOptions letters rest
  | [] => []

/-- The content of the first file named, or the input, and what is left of the input. -/
def source (self : List Char) (names : List (List Char)) (input : List Char) :
    StateM Volume (List Char × Result) := do
  match names with
  | [] => return (input, {})
  | ['-'] :: _ => return (input, {})
  | name :: _ =>
    if name = "/dev/null".toList then return ([], { input })
    match ← attempt (Session.read (toText name)) with
    | .ok content => return (ofBytes content, { input })
    | .error failure =>
      return ([], ({ input } : Result).complain self
        ("cannot open ".toList ++ inQuotes name ++ " for reading: ".toList ++ reason failure))

/-- The first lines or bytes. -/
def head : Utility := fun self arguments input => do
  let names := withoutOptions ['n', 'c'] arguments
  match optionNumber? 'c' arguments with
  | some count =>
    if names = ["/dev/zero".toList] then
      return { stdout := List.replicate count '\x00', input }
    let (s, result) ← source self names input
    return { result with stdout := s.take count }
  | none =>
    let (s, result) ← source self names input
    let count := (optionNumber? 'n' arguments).getD 10
    let text := ofLines ((linesOf s).take count)
    return { result with stdout := text.take s.length }

/-- The last lines or bytes. -/
def tail : Utility := fun self arguments input => do
  let (s, result) ← source self (withoutOptions ['n', 'c'] arguments) input
  match optionNumber? 'c' arguments with
  | some count => return { result with stdout := s.drop (s.length - count) }
  | none =>
    let lines := linesOf s
    let count := (optionNumber? 'n' arguments).getD 10
    let dropped := ofLines (lines.take (lines.length - count))
    return { result with stdout := s.drop dropped.length }

/-- The characters that a set names, ranges among them. -/
def setOf : List Char → List Char
  | low :: '-' :: high :: rest =>
    (List.range' low.toNat (high.toNat + 1 - low.toNat)).map Char.ofNat ++ setOf rest
  | c :: rest => c :: setOf rest
  | [] => []

/-- Replaces or removes characters. -/
def tr : Utility := fun _ arguments input =>
  let sets := (operands arguments).map fun s => setOf (unescape false (s.length + 1) s).1
  let removes := 'd' ∈ letters arguments
  let change := fun (c : Char) =>
    match sets with
    | [front] => if removes ∧ c ∈ front then none else some c
    | front :: back :: _ =>
      match front.idxOf? c with
      | some i => some ((back[i]?).getD (back.getLastD c))
      | none => some c
    | [] => some c
  return { stdout := input.filterMap change }

/-- Whether a character is a blank between words. -/
def isGap (c : Char) : Bool :=
  c = ' ' || c = '\t' || c = '\n' || c = '\r'

/-- The number of words in a text. -/
def countWords (s : List Char) : Nat :=
  ((s.splitOnP isGap).filter (· ≠ [])).length

/-- Counts lines, words and bytes. -/
def wc : Utility := fun self arguments input => do
  let names := operands arguments
  let (s, result) ← source self names input
  let flags := letters arguments
  let counts := [('l', countLines s), ('w', countWords s), ('c', s.length)]
  let shown := if flags.isEmpty then counts
    else counts.filter fun entry => entry.1 ∈ flags ∨ (entry.1 = 'c' ∧ 'm' ∈ flags)
  let fields := match shown with
    | [(_, n)] => [digits n]
    | shown => shown.map fun entry => padTo 7 false false (digits entry.2)
  let line := List.intercalate [' '] (fields ++ names.take 1)
  return { result with stdout := line ++ ['\n'] }

/-- The order of lines, byte by byte. -/
def lineLe (a b : List Char) : Bool :=
  Text.le (String.ofList a) (String.ofList b)

/-- Sorts lines. -/
def sort : Utility := fun self arguments input => do
  let (s, result) ← source self (operands arguments) input
  let flags := letters arguments
  let key := fun (line : List Char) => (signed? (line.takeWhile Char.isDigit)).getD 0
  let le := fun (a b : List Char) =>
    if 'n' ∈ flags then key a < key b || (key a = key b && lineLe a b) else lineLe a b
  let sorted := (linesOf s).mergeSort le
  let sorted := if 'u' ∈ flags then sorted.eraseReps else sorted
  return { result with stdout := ofLines (if 'r' ∈ flags then sorted.reverse else sorted) }

/-- Copies its input to its output and to files. -/
def tee : Utility := fun self arguments input => do
  let write := fun (path : String) => do
    let before ← if 'a' ∈ letters arguments ∧ (← Session.isThere path) then Session.read path
      else pure []
    Session.write path (before ++ toBytes input)
  let result ← forEach self "open" write (operands arguments) []
  return { result with stdout := input }

/-- The last name of a path, without an ending. -/
def basename : Utility := fun _ arguments input =>
  let name := ofText ((Path.fileName? (toText (arguments.headD []))).getD "/")
  let ending := (arguments.drop 1).headD []
  let name := if ending.isSuffixOf name ∧ ending ≠ name then name.take (name.length - ending.length)
    else name
  return { stdout := name ++ ['\n'], input }

/-- A path without its last name. -/
def dirname : Utility := fun _ arguments input =>
  let parent := match Path.parent? (toText (arguments.headD [])) with
    | some "" => "."
    | some parent => parent
    | none => "/"
  return { stdout := ofText parent ++ ['\n'], input }

/-- The names in a directory, those with a dot in front left out. -/
def visibleNames (disk : Disk) (place : Place) : List (List Char) :=
  ((disk.tree.entries place).map fun entry => ofText entry.1).filter (·.head? ≠ some '.')

/-- Lists files and directories. -/
def ls : Utility := fun self arguments input => do
  let disk := (← get).disk
  let names := operands arguments
  let all := 'a' ∈ letters arguments ∨ 'A' ∈ letters arguments
  let list := fun (result : Result) (name : List Char) =>
    match disk.spot true (toText name) with
    | .ok ⟨place, some .directory, _⟩ =>
      let shown := if all then (disk.tree.entries place).map fun entry => ofText entry.1
        else visibleNames disk place
      let title := if names.length < 2 then [] else name ++ ":\n".toList
      { result with stdout := result.stdout ++ title ++ ofLines shown }
    | .ok ⟨_, some _, _⟩ => { result with stdout := result.stdout ++ name ++ ['\n'] }
    | .ok _ => { result.complain self (cannot "access" name (.refused .notFound)) with status := 2 }
    | .error failure => { result.complain self (cannot "access" name failure) with status := 2 }
  return (if names.isEmpty then [['.']] else names).foldl list ({ input } : Result)

/-- Whether a text stands in another one. -/
def occurs (pattern s : List Char) : Bool :=
  (List.range (s.length + 1)).any fun n => pattern.isPrefixOf (s.drop n)

/-- The lines in which a plain text stands. -/
def grep : Utility := fun self arguments input => do
  let flags := letters arguments
  match operands arguments with
  | [] => return { status := 2, input }
  | pattern :: names =>
    let (s, result) ← source self names input
    let atStart := pattern.head? = some '^'
    let text := if atStart then pattern.tail else pattern
    let hit := fun (line : List Char) =>
      (if atStart then text.isPrefixOf line else occurs text line) != decide ('v' ∈ flags)
    let found := (linesOf s).filter hit
    let shown := if 'q' ∈ flags then []
      else if 'c' ∈ flags then digits found.length ++ ['\n'] else ofLines found
    let status := if result.status ≠ 0 then 2 else if found.isEmpty then 1 else 0
    return { result with stdout := shown, status }

/-- The utilities by name. With `own`, they are those that the shell has itself. -/
def utility? (own : Bool) (name : String) : Option Utility :=
  match name with
  | ":" => if own then some fun _ _ input => return { input } else none
  | "true" => some fun _ _ input => return { input }
  | "false" => some fun _ _ input => return { status := 1, input }
  | "echo" => some (echo own)
  | "printf" => some printf
  | "pwd" => some pwd
  | "test" => some test
  | "[" => some test
  | "cat" => some cat
  | "mkdir" => some mkdir
  | "rm" => some rm
  | "rmdir" => some rmdir
  | "touch" => some touch
  | "cp" => some cp
  | "mv" => some mv
  | "seq" => some seq
  | "head" => some head
  | "tail" => some tail
  | "tr" => some tr
  | "wc" => some wc
  | "sort" => some sort
  | "tee" => some tee
  | "basename" => some basename
  | "dirname" => some dirname
  | "ls" => some ls
  | "grep" => some grep
  | _ => none

/-- Whether the shell has a utility itself. -/
def isOwnUtility (name : String) : Bool :=
  name ∈ [":", "true", "false", "echo", "printf", "pwd", "test", "["]

end StyleMonitor.Shell
