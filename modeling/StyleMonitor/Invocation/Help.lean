import StyleMonitor.Invocation.Reader

/-!
What is said on the use of the program: help on the program and on its verbs, and what is said
of arguments that come to no request.
-/

namespace StyleMonitor.Invocation

/-- The name of the program. -/
def programName : String := "stylewatch"

/-- The name of the program with its version. -/
def versionLine : String := programName ++ " 0.0.0"

/-- Rows of two columns: the first one is as wide as its widest entry. -/
def columns (rows : List (String × String)) : List String :=
  let width := ((rows.map fun row => row.1.length).max?).getD 0
  rows.map fun (left, right) =>
    "  " ++ left ++ String.ofList (List.replicate (width - left.length) ' ') ++ "  " ++ right

/-- A section of a help text. -/
def titled (title : String) (rows : List (String × String)) : List String :=
  if rows.isEmpty then [] else "" :: (title ++ ":") :: columns rows

/-- What the program is, or what a verb does. -/
def about : Topic → String
  | .program => "Coding-style checks through a container"
  | .verb .check => "Analyze a project once and print its findings"
  | .verb .watch => "Read changed file paths from stdin and re-analyze their projects"
  | .verb .enable => "Turn analysis on"
  | .verb .disable => "Turn analysis off"
  | .verb .status => "Show effective configuration and image freshness"
  | .verb .refresh => "Forget the last image pull and pull again"
  | .help => "Print this message or the help of the given subcommand(s)"

/-- What can stand after the program's name. -/
def pattern : Topic → String
  | .program => "[OPTIONS] <COMMAND>"
  | .verb .check => "check [OPTIONS] [ROOT]"
  | .verb .watch => "watch [OPTIONS] [ROOTS]..."
  | .help => "help [COMMAND]..."
  | .verb verb => verb.name ++ " [OPTIONS]"

/-- How the program or a verb is used. -/
def usageLine (topic : Topic) : String :=
  "Usage: " ++ programName ++ " " ++ pattern topic

/-- The verbs that can stand after the program's name. -/
def verbRows : Topic → List (String × String)
  | .program =>
    (Verb.all.map fun verb => (verb.name, about (.verb verb))) ++ [(Topic.helpName, about .help)]
  | _ => []

/-- The places that a verb takes. -/
def placeRows : Topic → List (String × String)
  | .verb .check => [("[ROOT]", "Project root [default: .]")]
  | .verb .watch => [("[ROOTS]...", "Workspace roots [default: .]")]
  | .help => [("[COMMAND]...", "Print help for the subcommand(s)")]
  | _ => []

/-- The options that can be used. -/
def optionRows (topic : Topic) : List (String × String) :=
  if topic = .help then []
  else
    [("    " ++ configShown,
        "Config file (default: $STYLEWATCH_CONFIG or ~/.stylewatch/config.toml)"),
      ("-v, --verbose", "Log at debug level regardless of RUST_LOG"),
      ("-h, --help", "Print help")] ++
    (if topic = .program then [("-V, --version", "Print version")] else [])

/-- The lines of the help on the program or on a verb. -/
def helpLines (topic : Topic) : List String :=
  [about topic, "", usageLine topic] ++ titled "Commands" (verbRows topic) ++
    titled "Arguments" (placeRows topic) ++ titled "Options" (optionRows topic)

/-- An option as it is shown. -/
def shown : Flag → String
  | .config => configShown
  | .verbose => "--verbose"
  | .help => "--help"
  | .version => "--version"

/-- What is wrong, in words. -/
def faultText : UsageFault → String
  | .nothing => ""
  | .noVerb =>
    "'" ++ programName ++ "' requires a subcommand but one was not provided\n  [subcommands: " ++
      String.intercalate ", " (Verb.all.map Verb.name ++ [Topic.helpName]) ++ "]"
  | .unknownVerb _ word => "unrecognized subcommand '" ++ word ++ "'"
  | .unknownArgument _ word => "unexpected argument '" ++ word ++ "' found"
  | .verbAfterDashes word => "unexpected argument '" ++ word ++ "' found\n\n  tip: subcommand '" ++
      word ++ "' exists; to use it, remove the '--' before it"
  | .noValue shown => "a value is required for '" ++ shown ++ "' but none was supplied"
  | .repeated _ flag => "the argument '" ++ shown flag ++ "' cannot be used multiple times"
  | .needlessValue _ flag value =>
    "unexpected value '" ++ value ++ "' for '" ++ shown flag ++ "' found; no more were expected"

/-- The topic whose use is explained after a fault. A value that is missing needs no
explanation. -/
def explained? : UsageFault → Option Topic
  | .unknownVerb topic _ => some topic
  | .unknownArgument topic _ => some topic
  | .repeated topic _ => some topic
  | .needlessValue topic _ _ => some topic
  | .noValue _ => none
  | _ => some .program

/-- The lines that are written of a fault. -/
def faultLines (fault : UsageFault) : List String :=
  match fault with
  | .nothing => helpLines .program
  | fault =>
    let usage := match explained? fault with
      | some topic => ["", usageLine topic]
      | none => []
    ("error: " ++ faultText fault) :: usage ++ ["", "For more information, try '--help'."]

/-- The exit code of a refusal: help and the version are answers, not failures. -/
def exitCode : Refusal → Nat
  | .fault _ => 2
  | _ => 0

end StyleMonitor.Invocation
