import StyleMonitor.Shell.Machine

/-!
Running shell scripts on the files of a volume. What a script writes is kept; a script that has
no more time, or that kills itself, ends where it is.
-/

namespace StyleMonitor.Shell

mutual

/-- Runs a script, in at most `fuel` steps. -/
def run : Nat → Sinks → Script → Machine → Flow × Machine
  | 0, _, _, m => (.late, m)
  | fuel + 1, sinks, script, m =>
    match script with
    | .simple words redirects below => runSimple fuel sinks words redirects below m
    | .sequence first second =>
      match run fuel sinks first m with
      | (.next, m) => run fuel sinks second m
      | stopped => stopped
    | .onSuccess first second =>
      match runTested fuel sinks first m with
      | (.next, m) => if m.scope.status = 0 then run fuel sinks second m else (.next, m)
      | stopped => stopped
    | .onFailure first second =>
      match runTested fuel sinks first m with
      | (.next, m) => if m.scope.status = 0 then (.next, m) else run fuel sinks second m
      | stopped => stopped
    | .negated body =>
      match runTested fuel sinks body m with
      | (.next, m) => (.next, m.withStatus (if m.scope.status = 0 then 1 else 0))
      | stopped => stopped
    | .piped first second =>
      let outer := m.stdout
      let (flow, m) := runApart fuel { sinks with out := .output } first { m with stdout := [] }
      let input := m.input
      let piped := { m with stdout := outer, input := Machine.written m.stdout }
      let (flow', m) := runApart fuel sinks second piped
      (if flow.isCutOff then flow else if flow' = .next then m.flow else flow', { m with input })
    | .branch condition first second =>
      match runTested fuel sinks condition m with
      | (.next, m) =>
        if m.scope.status = 0 then run fuel sinks first m
        else run fuel sinks second (m.withStatus 0)
      | stopped => stopped
    | .loop untilTrue condition body => runLoop fuel sinks untilTrue condition body 0 m
    | .each name words body =>
      let (fields, m) := expandWords fuel words m
      runEach fuel sinks name fields body (m.withStatus 0)
    | .choice word branches =>
      let (parts, m) := expandWord fuel word m
      runChoice fuel sinks (joined parts) branches (m.withStatus 0)
    | .apart body =>
      match runApart fuel sinks body m with
      | (.next, m) => (m.flow, m)
      | stopped => stopped
    | .aside body =>
      let (_, after) := runApart fuel sinks body { m with limit := none }
      (.next, { after with limit := m.limit, elapsed := m.elapsed }.withStatus 0)
    | .redirected body redirects =>
      let before := m.input
      match redirect fuel sinks redirects m with
      | (none, m) => (m.flow, m)
      | (some sinks, m) =>
        let (flow, after) := run fuel sinks body m
        (flow, if m.input = before then after else { after with input := before })
    | .define name body =>
      (.next, { m with functions := (name, body) :: m.functions }.withStatus 0)

/-- Runs a script that may fail without ending a strict one. -/
def runTested : Nat → Sinks → Script → Machine → Flow × Machine
  | 0, _, _, m => (.late, m)
  | fuel + 1, sinks, script, m =>
    let (flow, after) := run fuel sinks script { m with strict := false }
    (flow, { after with strict := m.strict })

/-- Runs a script apart from the shell: only files and texts come back from it, and its end. -/
def runApart : Nat → Sinks → Script → Machine → Flow × Machine
  | 0, _, _, m => (.late, m)
  | fuel + 1, sinks, script, m =>
    let (flow, after) := run fuel sinks script m
    let disk := { after.volume.disk with current := m.volume.disk.current }
    (if flow.isCutOff then flow else .next,
      { m with
        scope := { m.scope with status := after.scope.status }
        volume := { after.volume with disk }
        input := after.input
        stdout := after.stdout
        stderr := after.stderr
        elapsed := after.elapsed })

/-- Runs a loop. `last` is the status of its last turn. -/
def runLoop : Nat → Sinks → Bool → Script → Script → Nat → Machine → Flow × Machine
  | 0, _, _, _, _, _, m => (.late, m)
  | fuel + 1, sinks, untilTrue, condition, body, last, m =>
    match runTested fuel sinks condition m with
    | (.next, m) =>
      if (m.scope.status = 0) = (untilTrue = false) then
        match run fuel sinks body m with
        | (.next, m) => runLoop fuel sinks untilTrue condition body m.scope.status m
        | (.again, m) => runLoop fuel sinks untilTrue condition body m.scope.status m
        | (.leave, m) => (.next, m)
        | stopped => stopped
      else (.next, m.withStatus last)
    | stopped => stopped

/-- Runs a loop over words. -/
def runEach : Nat → Sinks → List Char → List (List Char) → Script → Machine → Flow × Machine
  | 0, _, _, _, _, m => (.late, m)
  | _, _, _, [], _, m => (.next, m)
  | fuel + 1, sinks, name, word :: words, body, m =>
    match run fuel sinks body (m.assign name word) with
    | (.next, m) => runEach fuel sinks name words body m
    | (.again, m) => runEach fuel sinks name words body m
    | (.leave, m) => (.next, m)
    | stopped => stopped

/-- Runs the first branch with a pattern that matches. -/
def runChoice : Nat → Sinks → List Char → List (List (List Char) × Script) → Machine →
    Flow × Machine
  | 0, _, _, _, m => (.late, m)
  | _, _, _, [], m => (.next, m)
  | fuel + 1, sinks, subject, (patterns, body) :: rest, m =>
    let (hit, m) := anyFits fuel subject patterns m
    if hit then run fuel sinks body m else runChoice fuel sinks subject rest m

/-- Whether one of some patterns matches. -/
def anyFits : Nat → List Char → List (List Char) → Machine → Bool × Machine
  | 0, _, _, m => (false, m)
  | _, _, [], m => (false, m)
  | fuel + 1, subject, pattern :: rest, m =>
    let (parts, m) := expandWord fuel pattern m
    if fits (patternOf parts) subject then (true, m) else anyFits fuel subject rest m

/-- What a script in a word writes, without line ends after it. -/
def substituted : Nat → List Char → Machine → List Char × Machine
  | 0, _, m => ([], m)
  | fuel + 1, source, m =>
    let tokens := tokens source
    match Script.ofTokens? tokens with
    | none => ([], m.complain {} 2 (Script.complaint tokens).toList)
    | some script =>
      let inner := { m with stdout := [], lines := lineEnds tokens + m.line - 1 }
      let (_, after) := runApart fuel {} script inner
      let written := Machine.written after.stdout
      ((written.reverse.dropWhile (· = '\n')).reverse,
        { after with stdout := m.stdout, lines := m.lines, line := m.line })

/-- Expands a word into parts. -/
def expandWord : Nat → List Char → Machine → List Part × Machine
  | 0, _, m => ([], m)
  | fuel + 1, raw, m =>
    let raw := if raw = ['~'] ∨ "~/".toList.isPrefixOf raw then "$HOME".toList ++ raw.tail else raw
    expand Machine.scope Machine.assign (substituted fuel) false (4 * raw.length + 4) raw m

/-- Expands words, each into any number of words. -/
def expandWords : Nat → List (List Char) → Machine → List (List Char) × Machine
  | 0, _, m => ([], m)
  | _, [], m => ([], m)
  | fuel + 1, word :: words, m =>
    let (parts, m) := expandWord fuel word m
    let (later, m) := expandWords fuel words m
    ((fieldsOf parts none).flatMap (wordsOf m.volume.disk) ++ later, m)

/-- Gives variables the values that stand in front of a command. -/
def assignAll : Nat → List (List Char × List Char) → Machine → Machine
  | 0, _, m => m
  | _, [], m => m
  | fuel + 1, (name, raw) :: rest, m =>
    let (parts, m) := expandWord fuel raw m
    assignAll fuel rest (m.assign name (joined parts))

/-- Opens redirections. There are no sinks if one fails. -/
def redirect : Nat → Sinks → List Redirect → Machine → Option Sinks × Machine
  | 0, _, _, m => (none, m)
  | _, sinks, [], m => (some sinks, m)
  | fuel + 1, sinks, .text _ body expands :: rest, m =>
    let (body, m) := if expands then
        let (parts, m) := expand Machine.scope Machine.assign (substituted fuel) true
          (4 * body.length + 4) body m
        (joined parts, m)
      else (body, m)
    redirect fuel sinks rest { m with input := body }
  | fuel + 1, sinks, .path file mark target :: rest, m =>
    let (parts, m) := expandWord fuel target m
    let target := joined parts
    let put := fun (sink : Sink) =>
      if file = 1 then { sinks with out := sink }
      else if file = 2 then { sinks with err := sink }
      else sinks
    if mark = ">&" then
      let sink := if target = ['1'] then sinks.out
        else if target = ['2'] then sinks.err else .nowhere
      redirect fuel (put sink) rest m
    else if mark = "<&" then redirect fuel sinks rest m
    else if target = "/dev/null".toList then
      if mark = "<" then redirect fuel sinks rest { m with input := [] }
      else redirect fuel (put .nowhere) rest m
    else if target = "/dev/stdout".toList then redirect fuel (put sinks.out) rest m
    else if target = "/dev/stderr".toList then redirect fuel (put sinks.err) rest m
    else if mark = "<" then
      match m.attempt (Session.read (toText target)) with
      | (.ok content, m) => redirect fuel sinks rest { m with input := ofBytes content }
      | (.error failure, m) =>
        (none, m.complain sinks 2
          ("cannot open ".toList ++ target ++ ": ".toList ++ readReason failure))
    else
      let path := toText target
      match m.attempt (openToWrite mark path) with
      | (.ok (), m) => redirect fuel (put (.file path)) rest m
      | (.error failure, m) =>
        (none, m.complain sinks 2
          ("cannot create ".toList ++ target ++ ": ".toList ++ writeReason failure))

/-- Runs a command with its assignments and redirections. What is assigned in front of a program
holds for that program alone. -/
def runSimple : Nat → Sinks → List (List Char) → List Redirect → Nat → Machine → Flow × Machine
  | 0, _, _, _, _, m => (.late, m)
  | fuel + 1, sinks, words, redirects, below, m =>
    let m := { m with line := m.lines + 1 - below }
    let assignments := (words.takeWhile fun raw => (assignment? raw).isSome).filterMap assignment?
    let (words', m) := expandWords fuel (words.drop assignments.length) m
    let before := m.input
    match redirect fuel sinks redirects m with
    | (none, m) => (m.flow, m)
    | (some inner, m) =>
      let after := fun (m : Machine) => if redirects.isEmpty then m else { m with input := before }
      match words' with
      | [] =>
        let status := if words.any substitutes then none else some 0
        let m := assignAll fuel assignments m
        let m := m.withStatus (status.getD m.scope.status)
        (m.flow, after m)
      | name :: arguments =>
        let names := assignments.map (·.1)
        let given := (assignAll fuel assignments m).giveOut names
        match runCommand fuel true inner name arguments given with
        | (flow, done) =>
          let done := if names.isEmpty then done else done.restore names m
          (if flow = .next then done.flow else flow, after done)

/-- Runs a command by its name. With `own`, the shell's own commands come first. -/
def runCommand : Nat → Bool → Sinks → List Char → List (List Char) → Machine → Flow × Machine
  | 0, _, _, _, _, m => (.late, m)
  | fuel + 1, own, sinks, name, arguments, m =>
    let done := fun (status : Nat) => (Flow.next, m.withStatus status)
    match if own then m.functions.lookup name else none with
    | some body =>
      let outer := m.scope.arguments
      let (flow, m) := run fuel sinks body { m with scope := { m.scope with arguments } }
      (if flow = .back then .next else flow,
        { m with scope := { m.scope with arguments := outer } })
    | none =>
      match if own then runOwn fuel sinks (String.ofList name) arguments m else none with
      | some ended => ended
      | none =>
        match String.ofList name with
        | "kill" =>
          let signal := signalIn arguments
          if arguments.getLast? = some (digits ownNumber) then
            if signal = 0 then done 0 else (.killed signal, m)
          else done 1
        | "sleep" =>
          let elapsed := m.elapsed + millisOf (arguments.headD [])
          if m.limit.any (· ≤ elapsed) then (.late, m)
          else (.next, { m with elapsed }.withStatus 0)
        | "env" =>
          let assigned := arguments.filterMap assignment?
          match arguments.dropWhile fun raw => (assignment? raw).isSome with
          | [] =>
            let shown := m.scope.bindings.filter (·.1 ∈ m.exported)
            (.next, (m.deliver sinks.out (ofLines (shown.map fun (name, value) =>
              name ++ '=' :: value))).withStatus 0)
          | name :: arguments =>
            let given := (assigned.foldl (fun m (name, value) => m.assign name value) m).giveOut
              (assigned.map (·.1))
            let (flow, after) := runCommand fuel false sinks name arguments given
            (flow, after.restore (assigned.map (·.1)) m)
        | "which" =>
          match whereIs? { m with functions := [] } (arguments.headD []) with
          | some path => (.next, (m.deliver sinks.out (path ++ ['\n'])).withStatus 0)
          | none => done 1
        | text =>
          match utility? own text with
          | some utility =>
            let self := if own ∧ isOwnUtility text then m.self ++ ": ".toList ++ name else name
            (.next, m.useUtility sinks utility self arguments)
          | none => runProgram fuel sinks name arguments m

/-- Runs a command that only the shell itself can carry out. -/
def runOwn : Nat → Sinks → String → List (List Char) → Machine → Option (Flow × Machine)
  | 0, _, _, _, _ => none
  | fuel + 1, sinks, name, arguments, m =>
    let done := fun (status : Nat) => some (Flow.next, m.withStatus status)
    let leaveWith := fun (flow : Flow) =>
      match arguments with
      | [] => some (flow, m)
      | argument :: _ =>
        match Decimal.value? argument with
        | some status => some (flow, m.withStatus (status % 256))
        | none =>
          some (.exit, m.complain sinks 2
            (name.toList ++ ": Illegal number: ".toList ++ argument))
    let assignGiven := fun (m : Machine) =>
      (arguments.filterMap assignment?).foldl (fun m (name, value) => m.assign name value) m
    match name with
    | "exit" => leaveWith .exit
    | "return" => leaveWith .back
    | "break" => some (.leave, m.withStatus 0)
    | "continue" => some (.again, m.withStatus 0)
    | "shift" =>
      let count := (arguments.head?.bind Decimal.value?).getD 1
      let arguments := m.scope.arguments.drop count
      some (.next, { m with scope := { m.scope with arguments, status := 0 } })
    | "cd" =>
      let target := arguments.head?.getD ((m.scope.get? "HOME".toList).getD [])
      match m.volume.disk.spot true (toText target) with
      | .ok ⟨place, some .directory, _⟩ => some (.next, (m.enter place).withStatus 0)
      | _ => some (.next, m.complain sinks 2 ("cd: can't cd to ".toList ++ target))
    | "export" =>
      let names := arguments.map fun raw => raw.takeWhile isNameChar
      some (.next, ((assignGiven m).giveOut names).withStatus 0)
    | "local" => some (.next, (assignGiven m).withStatus 0)
    | "readonly" => some (.next, (assignGiven m).withStatus 0)
    | "set" =>
      match arguments with
      | ['-', '-'] :: arguments =>
        some (.next, { m with scope := { m.scope with arguments, status := 0 } })
      | ('-' :: flags) :: rest =>
        let strict := m.strict || 'e' ∈ flags && rest = [] || rest = ["errexit".toList]
        some (.next, { m with strict }.withStatus 0)
      | ('+' :: flags) :: _ =>
        some (.next, { m with strict := m.strict && 'e' ∉ flags }.withStatus 0)
      | [] => done 0
      | arguments => some (.next, { m with scope := { m.scope with arguments, status := 0 } })
    | "unset" =>
      let bindings := m.scope.bindings.filter (·.1 ∉ arguments)
      some (.next, { m with scope := { m.scope with bindings, status := 0 } })
    | "trap" =>
      match arguments with
      | body :: conditions =>
        if "EXIT".toList ∈ conditions ∨ ['0'] ∈ conditions then
          some (.next, { m with atExit := if body = ['-'] then [] else body }.withStatus 0)
        else done 0
      | [] => done 0
    | "wait" => done 0
    | "umask" => done 0
    | "ulimit" => done 0
    | "eval" =>
      let tokens := tokens (List.intercalate [' '] arguments)
      match Script.ofTokens? tokens with
      | some script =>
        let inner := { m with lines := lineEnds tokens + m.line - 1 }.withStatus 0
        let (flow, after) := run fuel sinks script inner
        some (flow, { after with lines := m.lines })
      | none =>
        some (.exit, m.complain sinks 2 ("eval: ".toList ++ (Script.complaint tokens).toList))
    | "exec" =>
      match arguments with
      | [] => done 0
      | name :: arguments =>
        match runCommand fuel false sinks name arguments m with
        | (.next, m) => some (.exit, { m with atExit := [] })
        | stopped => some stopped
    | "command" =>
      match arguments with
      | [] => done 0
      | ['-', 'v'] :: name :: _ =>
        match whereIs? m name with
        | some path => some (.next, (m.deliver sinks.out (path ++ ['\n'])).withStatus 0)
        | none => done 127
      | name :: arguments => some (runCommand fuel true sinks name arguments m)
    | "type" =>
      let name := arguments.headD []
      match whereIs? m name with
      | some path =>
        let kind := if path = name then " is a shell builtin".toList else " is ".toList ++ path
        some (.next, (m.deliver sinks.out (name ++ kind ++ ['\n'])).withStatus 0)
      | none => some (.next, (m.deliver sinks.err (name ++ ": not found\n".toList)).withStatus 127)
    | "read" =>
      let names := arguments.filter (·.head? ≠ some '-')
      let line := m.input.takeWhile (· ≠ '\n')
      let status := if m.input.length = line.length then 1 else 0
      let m := { m with input := m.input.drop (line.length + 1) }
      some (.next, (readInto names line m).withStatus status)
    | "." =>
      let path := arguments.headD []
      match m.attempt (Session.read (toText path)) with
      | (.ok content, m) =>
        let tokens := tokens (ofBytes content)
        match Script.ofTokens? tokens with
        | some script =>
          let (flow, after) := run fuel sinks script { m with lines := lineEnds tokens }
          some (flow, { after with lines := m.lines })
        | none => some (.exit, m.complain sinks 2 (Script.complaint tokens).toList)
      | (.error failure, m) =>
        some (.exit, m.complain sinks 2
          (".: cannot open ".toList ++ path ++ ": ".toList ++ readReason failure))
    | _ => none

/-- Runs a program that is not part of the shell. If it is killed, the shell goes on. -/
def runProgram : Nat → Sinks → List Char → List (List Char) → Machine → Flow × Machine
  | 0, _, _, _, m => (.late, m)
  | fuel + 1, sinks, name, arguments, m =>
    let (flow, after) :=
      if isShellName name ∨ isShellPath name then runShell fuel sinks name false arguments m
      else match findFile? m name with
        | none => (.next, m.complain sinks 127 (name ++ ": not found".toList))
        | some path =>
          match m.volume.disk.status path with
          | .ok (.file content true) =>
            runFile fuel sinks (ofText path) (ofBytes content) arguments m
          | _ => (.next, m.complain sinks 126 (name ++ ": Permission denied".toList))
    match flow with
    | .killed signal =>
      let words := signalWords signal
      let line := if words.isEmpty then [] else words ++ ['\n']
      (.next, (after.deliver sinks.err line).withStatus (128 + signal))
    | flow => (flow, after)

/-- Runs a file that holds a program: the interpreter that it names, or a shell. -/
def runFile : Nat → Sinks → List Char → List Char → List (List Char) → Machine → Flow × Machine
  | 0, _, _, _, _, m => (.late, m)
  | fuel + 1, sinks, path, content, arguments, m =>
    match interpreter? content with
    | none => runSource fuel sinks path false content arguments m
    | some (interpreter, argument?) =>
      let arguments := argument?.toList ++ path :: arguments
      if isShellPath interpreter then runShell fuel sinks interpreter false arguments m
      else
        let name := (Path.fileName? (toText interpreter)).getD ""
        match utility? false name with
        | some utility => (.next, m.useUtility sinks utility interpreter arguments)
        | none => runCommand fuel false sinks (ofText name) arguments m

/-- Runs the source of a script in a shell of its own. -/
def runSource : Nat → Sinks → List Char → Bool → List Char → List (List Char) → Machine →
    Flow × Machine
  | 0, _, _, _, _, _, m => (.late, m)
  | fuel + 1, sinks, name, strict, source, arguments, m =>
    let tokens := tokens source
    let bindings := m.scope.bindings.filter (·.1 ∈ m.exported)
    let inner := ({ m with
      scope := { bindings, name, arguments }
      functions := []
      strict
      atExit := []
      lines := lineEnds tokens
      line := 1 } : Machine).enter m.volume.disk.current
    match Script.ofTokens? tokens with
    | none =>
      let ended := { inner with line := lineEnds tokens + 1 }.complain sinks 2
        (Script.complaint tokens).toList
      (.next, { m with stderr := ended.stderr, volume := ended.volume }.withStatus 2)
    | some script =>
      let (flow, after) := run fuel sinks script inner
      let (flow, after) :=
        if flow.isCutOff ∨ after.atExit.isEmpty then (flow, after)
        else match Script.ofTokens? (Shell.tokens after.atExit) with
          | none => (flow, after)
          | some last =>
            let (flow, ended) := run fuel sinks last { after with strict := false }
            (flow, if flow = .exit then ended else ended.withStatus after.scope.status)
      let disk := { after.volume.disk with current := m.volume.disk.current }
      (if flow.isCutOff then flow else .next,
        { m with
          scope := { m.scope with status := after.scope.status }
          volume := { after.volume with disk }
          input := after.input
          stdout := after.stdout
          stderr := after.stderr
          elapsed := after.elapsed })

/-- Runs a shell of the name `self` on its arguments. -/
def runShell : Nat → Sinks → List Char → Bool → List (List Char) → Machine → Flow × Machine
  | 0, _, _, _, _, m => (.late, m)
  | fuel + 1, sinks, self, strict, arguments, m =>
    let refused := fun (message : List Char) =>
      (Flow.next, (m.deliver sinks.err (self ++ ": 0: ".toList ++ message ++ ['\n'])).withStatus 2)
    match arguments with
    | [] => runSource fuel sinks self strict m.input [] { m with input := [] }
    | ('-' :: flag :: flags) :: rest =>
      let flags := flag :: flags
      let strict := strict || 'e' ∈ flags
      if 'c' ∈ flags then
        match rest with
        | [] => refused "-c requires an argument".toList
        | [source] => runSource fuel sinks self strict source [] m
        | source :: name :: arguments => runSource fuel sinks name strict source arguments m
      else runShell fuel sinks self strict rest m
    | path :: arguments =>
      match m.attempt (Session.read (toText path)) with
      | (.ok content, m) => runSource fuel sinks path strict (ofBytes content) arguments m
      | (.error failure, _) =>
        refused ("cannot open ".toList ++ path ++ ": ".toList ++ readReason failure)

end

end StyleMonitor.Shell
