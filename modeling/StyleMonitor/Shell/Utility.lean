import StyleMonitor.Disk.Session
import StyleMonitor.Shell.Word

/-!
The utilities that scripts use. Each takes arguments and what it can read, works on the files,
and leaves a status and what it wrote.
-/

namespace StyleMonitor.Shell

/-- What a utility leaves behind. -/
structure Result where
  status : Nat := 0
  stdout : List Char := []
  stderr : List Char := []
  /-- What it has not read of its input. -/
  input : List Char := []
  deriving DecidableEq, Repr

/-- A utility: from its own name, its arguments and its input. -/
abbrev Utility := List Char → List (List Char) → List Char → StateM Volume Result

/-- Works on the files. -/
def attempt {α : Type} (session : Session α) : StateM Volume (Except Failure α) := session.run

namespace Result

/-- A complaint of a utility on a line of its own, after what was written before. -/
def complain (self complaint : List Char) (result : Result) : Result :=
  { result with status := 1, stderr := result.stderr ++ self ++ ": ".toList ++ complaint ++ ['\n'] }

end Result

/-- The words of the system for a failure, without its number. -/
def reason : Failure → List Char
  | .refused cause => cause.words.toList
  | failure => failure.message.toList

/-- A character by its octal digits, at most `most` of them, and what follows. -/
def octalAt (most : Nat) (s : List Char) : Char × List Char :=
  let digits := (s.take most).takeWhile fun c => '0' ≤ c && c ≤ '7'
  let value := digits.foldl (fun high low => high * 8 + Decimal.digitValue low) 0
  (Char.ofNat (value % 256), s.drop digits.length)

/-- The characters that stand after a backslash for one character. -/
def escapes : List (Char × Char) := [
  ('a', '\x07'), ('b', '\x08'), ('f', '\x0c'), ('n', '\n'), ('r', '\r'), ('t', '\t'),
  ('v', '\x0b'), ('\\', '\\')]

/-- A text with its escapes replaced, in at most `fuel` steps, and whether it is to be cut off
there. With `leadingZero`, octal numbers start with a zero. -/
def unescape (leadingZero : Bool) : Nat → List Char → List Char × Bool
  | 0, _ => ([], false)
  | _, [] => ([], false)
  | fuel + 1, '\\' :: c :: rest =>
    let onward := fun (front rest : List Char) =>
      let (s, stops) := unescape leadingZero fuel rest
      (front ++ s, stops)
    match escapes.lookup c with
    | some plain => onward [plain] rest
    | none =>
      if c = 'c' then ([], true)
      else if c = '0' ∧ leadingZero then
        let (d, rest) := octalAt 3 rest
        onward [d] rest
      else if '0' ≤ c ∧ c ≤ '7' ∧ ¬ leadingZero then
        let (d, rest) := octalAt 3 (c :: rest)
        onward [d] rest
      else onward ['\\', c] rest
  | fuel + 1, c :: rest =>
    let (s, stops) := unescape leadingZero fuel rest
    (c :: s, stops)

/-- Writes its arguments on a line. The shell's own `echo` replaces escapes. -/
def echo (replaces : Bool) : Utility := fun _ arguments input =>
  let (bare, arguments) := match arguments with
    | ['-', 'n'] :: rest => (true, rest)
    | arguments => (false, arguments)
  let line := List.intercalate [' '] arguments
  let (line, stops) := if replaces then unescape true (line.length + 1) line else (line, false)
  return { stdout := line ++ (if bare ∨ stops then [] else ['\n']), input }

/-- Fills a text up to a width. -/
def padTo (width : Nat) (left zero : Bool) (s : List Char) : List Char :=
  let fill := List.replicate (width - s.length) (if zero ∧ ¬ left then '0' else ' ')
  if left then s ++ fill else fill ++ s

/-- The number of a numeral that may have a sign, if it is one. -/
def signed? (s : List Char) : Option Int :=
  let digits := match s with
    | '-' :: digits => digits
    | '+' :: digits => digits
    | digits => digits
  if digits.isEmpty ∨ ¬ digits.all (fun c => (Json.hexValue? c).isSome || c = 'x') then none
  else if ¬ digits.all Char.isDigit ∧ ¬ "0x".toList.isPrefixOf digits then none
  else some (if s.head? = some '-' then -numeral digits else numeral digits)

/-- What a format makes of arguments. -/
structure Formatted where
  text : List Char := []
  /-- The arguments that are left. -/
  left : List (List Char) := []
  complaints : List (List Char) := []
  /-- Whether nothing more is to be written. -/
  stops : Bool := false
  deriving DecidableEq, Repr

/-- Writes arguments as a format says, in at most `fuel` steps. -/
def format : Nat → List Char → List (List Char) → Formatted
  | 0, _, arguments => { left := arguments }
  | _, [], arguments => { left := arguments }
  | fuel + 1, '%' :: '%' :: rest, arguments =>
    let more := format fuel rest arguments
    { more with text := '%' :: more.text }
  | fuel + 1, '%' :: rest, arguments =>
    let flags := rest.takeWhile fun c => c = '-' || c = '0'
    let width := (rest.drop flags.length).takeWhile Decimal.isDigit
    let afterWidth := rest.drop (flags.length + width.length)
    let places? := match afterWidth with
      | '.' :: s => some (s.takeWhile Decimal.isDigit)
      | _ => none
    let argument := arguments.headD []
    let value? := if argument.isEmpty ∧ arguments.isEmpty then some 0 else signed? argument
    let value := value?.getD 0
    let numeric := fun (shown : List Char) =>
      (some shown, if value?.isNone then [argument ++ ": expected numeric value".toList] else [])
    match afterWidth.drop ((places?.map fun s => s.length + 1).getD 0) with
    | [] => { left := arguments }
    | c :: rest =>
      let (shown?, complaints) :=
        if c = 'd' ∨ c = 'i' ∨ c = 'u' then numeric (Decimal.intText value).toList
        else if c = 'x' then numeric (Nat.toDigits 16 value.toNat)
        else if c = 'X' then numeric ((Nat.toDigits 16 value.toNat).map Char.toUpper)
        else if c = 'o' then numeric (Nat.toDigits 8 value.toNat)
        else if c = 'c' then (some (argument.take 1), [])
        else if c = 'b' then (some (unescape true (argument.length + 1) argument).1, [])
        else if c = 's' then
          let places := places?.map fun s => (Decimal.value? s).getD 0
          (some (argument.take (places.getD argument.length)), [])
        else (none, ['%' :: c :: ": invalid directive".toList])
      match shown? with
      | none => { complaints, stops := true }
      | some shown =>
        let shown :=
          padTo ((Decimal.value? width).getD 0) ('-' ∈ flags) ('0' ∈ flags) shown
        let more := format fuel rest arguments.tail
        { more with text := shown ++ more.text, complaints := complaints ++ more.complaints }
  | fuel + 1, c :: rest, arguments =>
    let more := format fuel rest arguments
    { more with text := c :: more.text }

/-- Writes arguments as a format says, again and again until none is left. -/
def formatAll : Nat → List Char → List (List Char) → Formatted
  | 0, _, _ => {}
  | rounds + 1, form, arguments =>
    let first := format (form.length + 1) form arguments
    if first.left.isEmpty ∨ first.left.length = arguments.length ∨ first.stops then first
    else
      let more := formatAll rounds form first.left
      { more with
        text := first.text ++ more.text, complaints := first.complaints ++ more.complaints }

/-- A format with its escapes replaced. What an escape stands for is no directive. -/
def printf : Utility := fun self arguments input =>
  match arguments with
  | [] =>
    return { ({ input } : Result).complain self "usage: printf format [arg ...]".toList with
      status := 2 }
  | form :: arguments =>
    let form := (unescape false (form.length + 1) form).1
    let made := formatAll (arguments.length + 1) form arguments
    let result := made.complaints.foldl (fun result s => result.complain self s)
      ({ stdout := made.text, input } : Result)
    return if made.stops then { result with status := 2 } else result

/-- Copies files, or its input, to its output. -/
def cat : Utility := fun self arguments input => do
  let names := arguments.filter (¬ "-u".toList = ·)
  if names.isEmpty then return { stdout := input }
  let copy := fun (result : Result) (name : List Char) => do
    if name = ['-'] then
      return { result with stdout := result.stdout ++ result.input, input := [] }
    else if name = "/dev/null".toList then return result
    else match ← attempt (Session.read (toText name)) with
      | .ok content => return { result with stdout := result.stdout ++ ofBytes content }
      | .error failure =>
        return result.complain self (name ++ ": ".toList ++ reason failure)
  names.foldlM copy { input }

/-- Writes the path of the current directory. -/
def pwd : Utility := fun _ _ input => do
  return { stdout := ofText (← get).disk.currentPath ++ ['\n'], input }

/-- A path between quotes. -/
def inQuotes (path : List Char) : List Char :=
  '\'' :: path ++ ['\'']

/-- What could not be done with a path, and why. -/
def cannot (act : String) (path : List Char) (failure : Failure) : List Char :=
  "cannot ".toList ++ act.toList ++ ' ' :: inQuotes path ++ ": ".toList ++ reason failure

/-- Works through paths, and complains of each that fails. -/
def forEach (self : List Char) (act : String) (work : String → Session Unit)
    (paths : List (List Char)) (input : List Char) : StateM Volume Result :=
  let workOn := fun (result : Result) (path : List Char) => do
    match ← attempt (work (toText path)) with
    | .ok () => return result
    | .error failure => return result.complain self (cannot act path failure)
  paths.foldlM workOn { input }

/-- The arguments that are no options. -/
def operands (arguments : List (List Char)) : List (List Char) :=
  arguments.filter fun argument => argument = ['-'] || argument.head? ≠ some '-'

/-- The letters of the options among arguments. -/
def letters (arguments : List (List Char)) : List Char :=
  (arguments.filter (·.head? = some '-')).flatten

/-- Makes directories. -/
def mkdir : Utility := fun self arguments input =>
  let deep := 'p' ∈ letters arguments
  forEach self "create directory"
    (fun path => if deep then Session.makeDirectories path else Session.makeDirectory path)
    (operands arguments) input

/-- Removes a path with all below it, in at most `fuel` levels. -/
def removeAll : Nat → String → Session Unit
  | 0, _ => return ()
  | fuel + 1, path => do
    if ← Session.isDirectory path then
      let tree : List String ← fun volume =>
        (.ok (match volume.disk.spot false path with
          | .ok found => (volume.disk.tree.entries found.place).map (·.1)
          | .error _ => []), volume)
      tree.forM fun name => removeAll fuel (Path.join path name)
      Session.change fun disk => disk.removeDirectory path
    else Session.remove path

/-- Removes files. -/
def rm : Utility := fun self arguments input =>
  let flags := letters arguments
  let deep := 'r' ∈ flags ∨ 'R' ∈ flags
  forEach self "remove"
    (fun path => do
      if 'f' ∈ flags ∧ ¬ (← Session.isThere path) then return ()
      if deep then removeAll 64 path else Session.remove path)
    (operands arguments) input

/-- Removes empty directories. -/
def rmdir : Utility := fun self arguments input =>
  let workOn := fun (result : Result) (path : List Char) => do
    match ← attempt (Session.change fun disk => disk.removeDirectory (toText path)) with
    | .ok () => return result
    | .error failure =>
      return result.complain self
        ("failed to remove ".toList ++ inQuotes path ++ ": ".toList ++ reason failure)
  (operands arguments).foldlM workOn { input }

/-- Makes files that are not there. -/
def touch : Utility := fun self arguments input =>
  forEach self "touch"
    (fun path => do if ← Session.isThere path then return () else Session.write path [])
    (operands arguments) input

/-- Copies a file. -/
def cp : Utility := fun self arguments input =>
  match operands arguments with
  | [source, target] => do
    let result ← attempt do
      let content ← Session.read (toText source)
      let target := toText target
      if ← Session.isDirectory target then
        Session.write (Path.join target ((Path.fileName? (toText source)).getD "")) content
      else Session.write target content
    match result with
    | .ok () => return { input }
    | .error failure =>
      return ({ input } : Result).complain self (cannot "stat" source failure)
  | _ => return { status := 1, input }

/-- Moves a file. -/
def mv : Utility := fun self arguments input =>
  match operands arguments with
  | [source, target] => do
    let result ← attempt do
      let target := toText target
      if ← Session.isDirectory target then
        Session.rename (toText source)
          (Path.join target ((Path.fileName? (toText source)).getD ""))
      else Session.rename (toText source) target
    match result with
    | .ok () => return { input }
    | .error failure =>
      return ({ input } : Result).complain self (cannot "stat" source failure)
  | _ => return { status := 1, input }

/-- Writes the numbers of a range, a line each. -/
def seq : Utility := fun _ arguments input =>
  let numbers := arguments.map fun s => (Decimal.value? s).getD 0
  let (first, last) := match numbers with
    | [last] => (1, last)
    | [first, last] => (first, last)
    | _ => (1, 0)
  return { stdout := (List.range' first (last + 1 - first)).flatMap fun n => digits n ++ ['\n']
           input }

/-- A condition on files, texts and numbers, in at most `fuel` steps. -/
def holds : Nat → List (List Char) → StateM Volume Bool
  | 0, _ => return false
  | fuel + 1, arguments => do
    let status : List Char → StateM Volume (Option Node) := fun path => do
      return ((← get).disk.status (toText path)).toOption
    match arguments.map String.ofList, arguments with
    | [], _ => return false
    | "!" :: _, _ :: rest => return !(← holds fuel rest)
    | [_], [s] => return !s.isEmpty
    | ["-n", _], [_, s] => return !s.isEmpty
    | ["-z", _], [_, s] => return s.isEmpty
    | ["-e", _], [_, path] => return (← status path).isSome
    | ["-f", _], [_, path] =>
      match ← status path with
      | some (.file _ _) => return true
      | _ => return false
    | ["-d", _], [_, path] => return (← status path) = some .directory
    | ["-s", _], [_, path] =>
      match ← status path with
      | some (.file content _) => return !content.isEmpty
      | _ => return false
    | ["-r", _], [_, path] => return (← status path).isSome
    | ["-w", _], [_, path] => return (← status path).isSome
    | ["-x", _], [_, path] =>
      match ← status path with
      | some (.file _ executable) => return executable
      | node => return node.isSome
    | [_, operator, _], [a, _, b] =>
      let x := signed a
      let y := signed b
      match operator with
      | "=" => return a = b
      | "==" => return a = b
      | "!=" => return a ≠ b
      | "-eq" => return x = y
      | "-ne" => return x ≠ y
      | "-lt" => return x < y
      | "-le" => return x ≤ y
      | "-gt" => return y < x
      | "-ge" => return y ≤ x
      | _ => return false
    | words, arguments =>
      match words.findIdx? (· = "-o"), words.findIdx? (· = "-a") with
      | some i, _ =>
        return (← holds fuel (arguments.take i)) || (← holds fuel (arguments.drop (i + 1)))
      | none, some i =>
        return (← holds fuel (arguments.take i)) && (← holds fuel (arguments.drop (i + 1)))
      | none, none => return false
where
  /-- The number of a numeral that may have a minus sign. -/
  signed : List Char → Int
    | '-' :: s => -numeral s
    | s => numeral s

/-- Tests a condition. -/
def test : Utility := fun _ arguments input => do
  let arguments := if arguments.getLast? = some [']'] then arguments.dropLast else arguments
  return { status := if ← holds (arguments.length + 1) arguments then 0 else 1, input }

end StyleMonitor.Shell
