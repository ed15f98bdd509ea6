import StyleMonitor.Shell.Filter
import StyleMonitor.Shell.Script

/-!
A shell at work: its variables, the files, what it has written, and how a script goes on after a
command.
-/

namespace StyleMonitor.Shell

/-- A shell at work. -/
structure Machine where
  scope : Scope := {}
  volume : Volume := {}
  input : List Char := []
  /-- What was written, the latest first. -/
  stdout : List (List Char) := []
  stderr : List (List Char) := []
  /-- The milliseconds that have passed. -/
  elapsed : Nat := 0
  /-- The milliseconds after which the script is stopped. -/
  limit : Option Nat := none
  functions : List (List Char × Script) := []
  /-- The directories in which programs are looked for. -/
  search : List String := []
  /-- The variables that programs are given. -/
  exported : List (List Char) := []
  /-- Whether a command that fails ends the script. -/
  strict : Bool := false
  /-- What is run when the script ends. -/
  atExit : List Char := []
  /-- The number of line ends in the script. -/
  lines : Nat := 0
  /-- The line of the command that is run. -/
  line : Nat := 1

/-- How a script goes on after a command. -/
inductive Flow where
  | next
  | exit
  /-- The script was ended by a signal of this number. -/
  | killed (signal : Nat)
  /-- There was no more time. -/
  | late
  /-- The loop is left. -/
  | leave
  /-- The loop goes on with its next turn. -/
  | again
  /-- The function is left. -/
  | back
  deriving DecidableEq, Repr

namespace Flow

/-- Whether a script does not come to its own end. -/
def isCutOff : Flow → Bool
  | killed _ => true
  | late => true
  | _ => false

end Flow

/-- Where something that is written goes. -/
inductive Sink where
  | output
  | errors
  | file (path : String)
  | nowhere
  deriving DecidableEq, Repr

/-- Where output and complaints go. -/
structure Sinks where
  out : Sink := .output
  err : Sink := .errors
  deriving DecidableEq, Repr

/-- The words of the shell for the end of a program by a signal. -/
def signalWords : Nat → List Char
  | 1 => "Hangup".toList
  | 3 => "Quit".toList
  | 6 => "Aborted".toList
  | 9 => "Killed".toList
  | 11 => "Segmentation fault".toList
  | 15 => "Terminated".toList
  | _ => []

/-- The signals by name. -/
def signalNames : List (String × Nat) := [
  ("HUP", 1), ("INT", 2), ("QUIT", 3), ("ABRT", 6), ("KILL", 9), ("USR1", 10), ("SEGV", 11),
  ("USR2", 12), ("PIPE", 13), ("ALRM", 14), ("TERM", 15)]

/-- The number of a signal that is given by number or by name. -/
def signalOf? (s : List Char) : Option Nat :=
  let name := String.ofList s
  match Decimal.value? s with
  | some number => some number
  | none => signalNames.lookup (if name.startsWith "SIG" then String.ofList (s.drop 3) else name)

/-- The signal that arguments of `kill` name. -/
def signalIn (arguments : List (List Char)) : Nat :=
  match arguments with
  | ['-', 's'] :: name :: _ => (signalOf? name).getD 15
  | ('-' :: name) :: _ => (signalOf? name).getD 15
  | _ => 15

namespace Machine

/-- Writes to a sink. -/
def deliver (sink : Sink) (s : List Char) (m : Machine) : Machine :=
  if s.isEmpty then m
  else match sink with
    | .output => { m with stdout := s :: m.stdout }
    | .errors => { m with stderr := s :: m.stderr }
    | .nowhere => m
    | .file path =>
      let append : Session Unit := do Session.write path ((← Session.read path) ++ toBytes s)
      { m with volume := (append m.volume).2 }

/-- All that was written. -/
def written (chunks : List (List Char)) : List Char :=
  chunks.reverse.flatten

/-- Sets the status. -/
def withStatus (status : Nat) (m : Machine) : Machine :=
  { m with scope := { m.scope with status } }

/-- The name of the script with the line of the command. -/
def self (m : Machine) : List Char :=
  m.scope.name ++ ": ".toList ++ digits m.line

/-- Complains and fails. -/
def complain (sinks : Sinks) (status : Nat) (message : List Char) (m : Machine) : Machine :=
  (m.deliver sinks.err (m.self ++ ": ".toList ++ message ++ ['\n'])).withStatus status

/-- Works on the files. -/
def attempt {α : Type} (session : Session α) (m : Machine) : Except Failure α × Machine :=
  let (result, volume) := session m.volume
  (result, { m with volume })

/-- Gives a variable a value. -/
def assign (name value : List Char) (m : Machine) : Machine :=
  { m with scope := m.scope.set name value }

/-- Gives variables back what they held before. -/
def restore (m : Machine) (names : List (List Char)) (before : Machine) : Machine :=
  let kept := m.scope.bindings.filter (·.1 ∉ names)
  let old := before.scope.bindings.filter (·.1 ∈ names)
  { m with scope := { m.scope with bindings := old ++ kept }, exported := before.exported }

/-- Has variables given to programs. -/
def giveOut (names : List (List Char)) (m : Machine) : Machine :=
  { m with exported := names ++ m.exported }

/-- What follows on a command: a strict script ends when it fails. -/
def flow (m : Machine) : Flow :=
  if m.strict ∧ m.scope.status ≠ 0 then .exit else .next

/-- Runs a utility under a name. -/
def useUtility (sinks : Sinks) (utility : Utility) (self : List Char)
    (arguments : List (List Char)) (m : Machine) : Machine :=
  let (result, volume) := utility self arguments m.input m.volume
  let m := { m with volume, input := result.input }
  ((m.deliver sinks.out result.stdout).deliver sinks.err result.stderr).withStatus result.status

/-- Goes to a directory. -/
def enter (place : Place) (m : Machine) : Machine :=
  let disk := { m.volume.disk with current := place }
  { m with volume := { m.volume with disk } }.assign "PWD".toList (ofText disk.currentPath)

end Machine

/-- A name and a value with an equals sign between them. -/
def assignment? (raw : List Char) : Option (List Char × List Char) :=
  let name := raw.takeWhile isNameChar
  match raw.drop name.length with
  | '=' :: value =>
    if name.isEmpty ∨ (name.head?.map Char.isDigit).getD true then none else some (name, value)
  | _ => none

/-- Whether a word holds commands whose output takes their place. -/
def substitutes : List Char → Bool
  | '\x60' :: _ => true
  | '$' :: '(' :: '(' :: rest => substitutes rest
  | '$' :: '(' :: _ => true
  | _ :: rest => substitutes rest
  | [] => false

/-- A span of seconds in milliseconds. -/
def millisOf (s : List Char) : Nat :=
  let whole := s.takeWhile Decimal.isDigit
  let fraction := ((s.drop (whole.length + 1)).takeWhile Decimal.isDigit).take 3
  (Decimal.value? whole).getD 0 * 1000 +
    (Decimal.value? fraction).getD 0 * Nat.pow 10 (3 - fraction.length)

/-- Opens a file to write to. -/
def openToWrite (mark path : String) : Session Unit := do
  if mark = ">>" then
    if ← Session.isDirectory path then throw (.refused .isADirectory)
    if ← Session.isThere path then return ()
    Session.write path []
  else Session.write path []

/-- The words of the shell for a file that cannot be written. -/
def writeReason (failure : Failure) : List Char :=
  if failure.isNotFound then "Directory nonexistent".toList else reason failure

/-- The words of the shell for a file that cannot be read. -/
def readReason (failure : Failure) : List Char :=
  if failure.isNotFound then "No such file".toList else reason failure

/-- The interpreter that the first line of a program names, and the argument for it. -/
def interpreter? (content : List Char) : Option (List Char × Option (List Char)) :=
  match content with
  | '#' :: '!' :: rest =>
    let isBlank := fun c => c = ' ' || c = '\t'
    let line := (rest.takeWhile (· ≠ '\n')).dropWhile isBlank
    let path := line.takeWhile fun c => !isBlank c
    let argument := (line.drop path.length).dropWhile isBlank
    let argument := (argument.reverse.dropWhile isBlank).reverse
    some (path, if argument.isEmpty then none else some argument)
  | _ => none

/-- Whether a name is that of a shell. -/
def isShellName (name : List Char) : Bool :=
  String.ofList name ∈ ["sh", "dash", "bash"]

/-- Whether a path is that of a shell. -/
def isShellPath (path : List Char) : Bool :=
  ["/bin/", "/usr/bin/"].any fun directory =>
    directory.toList.isPrefixOf path && isShellName (path.drop directory.length)

/-- Whether a program of the system, and not of the shell, has a name. -/
def isSystemName (name : String) : Bool :=
  isShellName name.toList || name ∈ ["env", "kill", "sleep"] ||
    (name ≠ ":" && (utility? false name).isSome)

/-- The directories that hold the programs of the system. -/
def systemDirectories : List String := ["/usr/bin", "/bin"]

/-- The file that a program of a name is found in. -/
def findFile? (m : Machine) (name : List Char) : Option String :=
  let candidates := if '/' ∈ name then [toText name]
    else m.search.map fun directory => Path.join directory (toText name)
  candidates.find? fun path =>
    match m.volume.disk.status path with
    | .ok (.file _ _) => true
    | _ => false

/-- Where a command of a name is, if there is one. -/
def whereIs? (m : Machine) (name : List Char) : Option (List Char) :=
  if (m.functions.lookup name).isSome ∨ isOwnUtility (String.ofList name) then some name
  else match findFile? m name with
    | some path => some (ofText path)
    | none =>
      if isSystemName (String.ofList name) then
        some ("/usr/bin/".toList ++ name)
      else none

/-- Gives variables the words of a line, the last one all that is left. -/
def readInto : List (List Char) → List Char → Machine → Machine
  | [], line, m => m.assign "REPLY".toList line
  | [name], line, m =>
    let line := line.dropWhile isGap
    m.assign name (line.reverse.dropWhile isGap).reverse
  | name :: rest, line, m =>
    let line := line.dropWhile isGap
    let word := line.takeWhile fun c => !isGap c
    readInto rest (line.drop word.length) (m.assign name word)

/-- Whether a field can stand for paths other than itself. -/
def isPattern (field : Field) : Bool :=
  field.any fun (c, active) => active && (c = '*' || c = '?' || c = '[')

/-- The pieces of a field between its slashes. -/
def fieldPieces (field : Field) : List Field :=
  field.splitOnP fun entry => entry.1 = '/'

/-- The paths below one that patterns match, one pattern for each name. -/
def pathsBelow (disk : Disk) : List Field → List Char → List (List Char)
  | [], path => [path]
  | piece :: rest, path =>
    let slash := if rest.isEmpty then [] else ['/']
    if isPattern piece then
      match disk.spot true (toText (if path.isEmpty then ['.'] else path)) with
      | .ok ⟨place, some .directory, _⟩ =>
        let names := (disk.tree.entries place).map fun entry => ofText entry.1
        let hidden := piece.head? = some ('.', true)
        let hits := names.filter fun name =>
          fits piece name && (hidden || name.head? ≠ some '.')
        hits.flatMap fun name => pathsBelow disk rest (path ++ name ++ slash)
      | _ => []
    else
      let path := path ++ piece.map (·.1) ++ slash
      if rest.isEmpty ∧ ¬ disk.isThere (toText path) then [] else pathsBelow disk rest path

/-- The words that a field stands for: the paths that it matches, or else itself. -/
def wordsOf (disk : Disk) (field : Field) : List (List Char) :=
  let found := if isPattern field then pathsBelow disk (fieldPieces field) [] else []
  if found.isEmpty then [field.map (·.1)] else found

end StyleMonitor.Shell
