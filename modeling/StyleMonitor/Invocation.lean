/-!
Invocations: what the program is asked to do by the arguments it is started with.
-/

namespace StyleMonitor

/-- What the program can do (`Command`). -/
inductive Request where
  /-- Analyze a project once. -/
  | check (root : String)
  /-- Analyze projects again whenever a file in them changes. -/
  | watch (roots : List String)
  | enable
  | disable
  | status
  | refresh
  deriving DecidableEq, Repr

/-- What the program is asked to do, and how (`Cli`). -/
structure Invocation where
  /-- The settings file, if one is named. -/
  config : Option String := none
  /-- Whether the log is to be detailed. -/
  verbose : Bool := false
  request : Request
  deriving DecidableEq, Repr

/-- The words that stand for requests. -/
inductive Verb where
  | check
  | watch
  | enable
  | disable
  | status
  | refresh
  deriving DecidableEq, Repr

namespace Verb

/-- All verbs, in the order in which they are listed. -/
def all : List Verb := [check, watch, enable, disable, status, refresh]

/-- A verb as it is written. -/
def name : Verb → String
  | check => "check"
  | watch => "watch"
  | enable => "enable"
  | disable => "disable"
  | status => "status"
  | refresh => "refresh"

/-- The verb of a name. -/
def ofName? (name : String) : Option Verb :=
  all.find? (·.name = name)

/-- What is asked for by a verb with the places named after it. Without a place, the current
directory is meant. -/
def request (places : List String) : Verb → Request
  | check => .check (places.head?.getD ".")
  | watch => .watch (if places.isEmpty then ["."] else places)
  | enable => .enable
  | disable => .disable
  | status => .status
  | refresh => .refresh

/-- Every verb is found by its name. -/
theorem ofName?_name (verb : Verb) : ofName? verb.name = some verb := by
  cases verb <;> decide

end Verb

/-- What there is help on. -/
inductive Topic where
  | program
  | verb (verb : Verb)
  /-- The verb that asks for help. -/
  | help
  deriving DecidableEq, Repr

namespace Topic

/-- The word for help. -/
def helpName : String := "help"

/-- The topic of a word. -/
def ofName? (name : String) : Option Topic :=
  if name = helpName then some help else (Verb.ofName? name).map verb

end Topic

/-- The options. -/
inductive Flag where
  | config
  | verbose
  | help
  | version
  deriving DecidableEq, Repr

/-- What is wrong with arguments. -/
inductive UsageFault where
  /-- There are none. -/
  | nothing
  /-- There is no verb where one is needed. -/
  | noVerb
  | unknownVerb (topic : Topic) (word : String)
  | unknownArgument (topic : Topic) (word : String)
  /-- A verb stands after `--`. -/
  | verbAfterDashes (word : String)
  /-- A value is missing, or is empty. -/
  | noValue (shown : String)
  | repeated (topic : Topic) (flag : Flag)
  /-- An option that takes no value has one. -/
  | needlessValue (topic : Topic) (flag : Flag) (value : String)
  deriving DecidableEq, Repr

/-- Why arguments come to no request. -/
inductive Refusal where
  /-- Help is asked for. -/
  | help (topic : Topic)
  | version
  | fault (fault : UsageFault)
  deriving DecidableEq, Repr

end StyleMonitor
