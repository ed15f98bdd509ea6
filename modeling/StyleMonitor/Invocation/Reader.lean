import StyleMonitor.Invocation

/-!
Reading invocations. Options may stand before and after the verb. What an option or a place is
given is looked at only when the next one comes or the arguments end; so of two faults, the one
in an option that is complete comes first.
-/

namespace StyleMonitor.Invocation

/-- An argument by its form. -/
inductive Form where
  /-- All that follows is a place. -/
  | dashes
  | long (name : String) (value : Option String)
  | short (letters : List Char)
  | plain
  deriving DecidableEq, Repr

namespace Form

/-- What stands before and after the first equals sign. -/
def cutValue (s : List Char) : String × Option String :=
  let name := s.takeWhile (· ≠ '=')
  match s.drop name.length with
  | [] => (String.ofList name, none)
  | _ :: value => (String.ofList name, some (String.ofList value))

/-- The form of an argument. -/
def ofText (argument : String) : Form :=
  match argument.toList with
  | ['-', '-'] => dashes
  | '-' :: '-' :: s => long (cutValue s).1 (cutValue s).2
  | ['-'] => plain
  | '-' :: letters => short letters
  | _ => plain

end Form

/-- What waits to be looked at. -/
inductive Waiting where
  | nothing
  /-- The option that names the settings file, still without a value. -/
  | config
  /-- The same with its value. -/
  | configAt (path : String)
  | places (places : List String)
  deriving DecidableEq, Repr

/-- What has been read so far, before a verb or after it. -/
structure Reading where
  config : Option String := none
  verbose : Bool := false
  places : List String := []
  waiting : Waiting := .nothing
  deriving DecidableEq, Repr

/-- The option of a long name. The version can be asked for in front of a verb only. -/
def longFlag? (topic : Topic) (name : String) : Option Flag :=
  match name with
  | "config" => some .config
  | "verbose" => some .verbose
  | "help" => some .help
  | "version" => if topic = .program then some .version else none
  | _ => none

/-- The option of a letter. -/
def shortFlag? (topic : Topic) (letter : Char) : Option Flag :=
  match letter with
  | 'v' => some .verbose
  | 'h' => some .help
  | 'V' => if topic = .program then some .version else none
  | _ => none

/-- The place of a verb as it is shown. -/
def placeShown : Topic → String
  | .verb .watch => "[ROOTS]..."
  | _ => "[ROOT]"

/-- The option that names the settings file as it is shown. -/
def configShown : String := "--config <PATH>"

namespace Reading

/-- Names the settings file. -/
def setConfig (topic : Topic) (path : String) (reading : Reading) :
    Except Refusal Reading :=
  if reading.config.isSome then .error (.fault (.repeated topic .config))
  else if path = "" then .error (.fault (.noValue configShown))
  else .ok { reading with config := some path }

/-- Looks at what waits. -/
def settle (topic : Topic) (reading : Reading) : Except Refusal Reading :=
  match reading.waiting with
  | .nothing => .ok reading
  | .config => .error (.fault (.noValue configShown))
  | .configAt path => { reading with waiting := .nothing }.setConfig topic path
  | .places places =>
    if "" ∈ places then .error (.fault (.noValue (placeShown topic)))
    else .ok { reading with places := reading.places ++ places, waiting := .nothing }

/-- Reads an option without a value. -/
def take (topic : Topic) (flag : Flag) (reading : Reading) : Except Refusal Reading := do
  let reading ← reading.settle topic
  match flag with
  | .config => return { reading with waiting := .config }
  | .verbose =>
    if reading.verbose then throw (.fault (.repeated topic .verbose))
    return { reading with verbose := true }
  | .help => throw (.help topic)
  | .version => throw .version

/-- Reads an option with a value. -/
def takeWith (topic : Topic) (flag : Flag) (value : String) (reading : Reading) :
    Except Refusal Reading :=
  match flag with
  | .config => do (← reading.settle topic).setConfig topic value
  | flag => .error (.fault (.needlessValue topic flag value))

/-- Reads a long option. -/
def takeLong (topic : Topic) (name : String) (value : Option String) (reading : Reading) :
    Except Refusal Reading :=
  match longFlag? topic name, value with
  | none, _ => .error (.fault (.unknownArgument topic ("--" ++ name)))
  | some flag, none => reading.take topic flag
  | some flag, some value => reading.takeWith topic flag value

/-- Reads options by their letters. -/
def takeLetters (topic : Topic) (letters : List Char) (reading : Reading) :
    Except Refusal Reading :=
  letters.foldlM
    (fun reading letter =>
      match shortFlag? topic letter with
      | some flag => reading.take topic flag
      | none => .error (.fault (.unknownArgument topic (String.ofList ['-', letter]))))
    reading

/-- The places read so far. -/
def allPlaces (reading : Reading) : List String :=
  match reading.waiting with
  | .places places => reading.places ++ places
  | _ => reading.places

/-- Reads a word that is no option. Only two verbs take places, and one of them only one. -/
def takeWord (verb : Verb) (word : String) (reading : Reading) : Except Refusal Reading :=
  let refused := Except.error (.fault (.unknownArgument (.verb verb) word))
  match verb with
  | .check =>
    if reading.allPlaces.isEmpty then do
      return { ← reading.settle (.verb verb) with waiting := .places [word] }
    else refused
  | .watch =>
    match reading.waiting with
    | .places places => .ok { reading with waiting := .places (places ++ [word]) }
    | _ => do return { ← reading.settle (.verb verb) with waiting := .places [word] }
  | _ => refused

/-- Reads the arguments after a verb. `onlyPlaces` tells that `--` came before. -/
def readAfter (verb : Verb) : Bool → List String → Reading → Except Refusal Reading
  | _, [], reading => reading.settle (.verb verb)
  | true, word :: rest, reading => do readAfter verb true rest (← reading.takeWord verb word)
  | false, word :: rest, reading => do
    match Form.ofText word with
    | .dashes => readAfter verb true rest reading
    | .long name value => readAfter verb false rest (← reading.takeLong (.verb verb) name value)
    | .short letters => readAfter verb false rest (← reading.takeLetters (.verb verb) letters)
    | .plain =>
      if reading.waiting = .config then
        readAfter verb false rest { reading with waiting := .configAt word }
      else readAfter verb false rest (← reading.takeWord verb word)

end Reading

/-- The refusal by which help is given on what stands after the verb `help`. -/
def helpOn : List String → Refusal
  | [] => .help .program
  | word :: rest =>
    match Topic.ofName? word, rest with
    | none, _ => .fault (.unknownVerb .program word)
    | some topic, [] => .help topic
    | some topic, word :: _ => .fault (.unknownVerb topic word)

/-- Reads the arguments after a verb, and puts them together with those before it. An option
after the verb goes before one in front of it. -/
def readVerb (verb : Verb) (rest : List String) (front : Reading) :
    Except Refusal Invocation := do
  let reading ← Reading.readAfter verb false rest {}
  let front ← front.settle .program
  return ⟨reading.config <|> front.config, reading.verbose || front.verbose,
    verb.request reading.places⟩

/-- Reads arguments from the front on. -/
def readFront : List String → Reading → Except Refusal Invocation
  | [], front => do
    let front ← front.settle .program
    if front.config.isNone ∧ front.verbose = false then throw (.fault .nothing)
    throw (.fault .noVerb)
  | word :: rest, front => do
    match front.waiting, Form.ofText word with
    | .config, .plain => readFront rest { front with waiting := .configAt word }
    | _, .plain =>
      match Topic.ofName? word with
      | some (.verb verb) => readVerb verb rest front
      | some _ => throw (helpOn rest)
      | none => throw (.fault (.unknownVerb .program word))
    | _, .long name value => readFront rest (← front.takeLong .program name value)
    | _, .short letters => readFront rest (← front.takeLetters .program letters)
    | _, .dashes =>
      match rest with
      | [] => readFront [] front
      | word :: _ =>
        if (Topic.ofName? word).isSome then throw (.fault (.verbAfterDashes word))
        throw (.fault (.unknownVerb .program word))

/-- What arguments ask for. -/
def ofArguments (arguments : List String) : Except Refusal Invocation :=
  readFront arguments {}

end StyleMonitor.Invocation
