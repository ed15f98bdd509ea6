import StyleMonitor.Shell.Token

/-!
Shell scripts as trees of commands.
-/

namespace StyleMonitor.Shell

/-- A redirection. -/
inductive Redirect where
  /-- The file with this number is read from or written to a path; `mark` tells how. -/
  | path (file : Nat) (mark : String) (target : List Char)
  | text (file : Nat) (body : List Char) (expands : Bool)
  deriving DecidableEq, Repr

/-- A command of a script. -/
inductive Script where
  /-- Words and redirections; `below` counts the line ends after the start of the command. -/
  | simple (words : List (List Char)) (redirects : List Redirect) (below : Nat)
  | sequence (first second : Script)
  | onSuccess (first second : Script)
  | onFailure (first second : Script)
  | negated (body : Script)
  | piped (first second : Script)
  | branch (condition first second : Script)
  /-- A loop; `until` tells whether it goes on while the condition fails. -/
  | loop (untilTrue : Bool) (condition body : Script)
  /-- A loop over words. -/
  | each (name : List Char) (words : List (List Char)) (body : Script)
  | choice (word : List Char) (branches : List (List (List Char) × Script))
  /-- Commands in parentheses. -/
  | apart (body : Script)
  /-- A command that nobody waits for. -/
  | aside (body : Script)
  | redirected (body : Script) (redirects : List Redirect)
  | define (name : List Char) (body : Script)

namespace Script

/-- The command that does nothing. -/
def nothing : Script := simple [] [] 0

/-- Words that mean something where a command starts. -/
def reserved : List String :=
  ["then", "else", "elif", "fi", "do", "done", "esac", "\x7d"]

/-- Tokens without line ends in front. -/
def skipLines (s : List Token) : List Token :=
  s.dropWhile (· = Token.newline)

/-- Whether the next token ends a list of commands. -/
def endsList : List Token → Bool
  | [] => true
  | .word raw :: _ => String.ofList raw ∈ reserved
  | .mark text :: _ => text = ")" || text = ";;"
  | _ => false

/-- Takes a word off the front. -/
def expect (word : String) (s : List Token) : Option (List Token) :=
  match skipLines s with
  | .word raw :: rest => if raw = word.toList then some rest else none
  | _ => none

/-- Takes a mark off the front. -/
def expectMark (text : String) (s : List Token) : Option (List Token) :=
  match s with
  | .mark found :: rest => if found = text then some rest else none
  | _ => none

/-- Takes words off the front. -/
def takeWords : List Token → List (List Char) × List Token
  | .word raw :: rest =>
    let (words, rest) := takeWords rest
    (raw :: words, rest)
  | s => ([], s)

/-- Takes redirections off the front. -/
def takeRedirects : List Token → List Redirect × List Token
  | .redirect file mark :: .word target :: rest =>
    let (redirects, rest) := takeRedirects rest
    (.path file mark target :: redirects, rest)
  | .here file body expands :: rest =>
    let (redirects, rest) := takeRedirects rest
    (.text file body expands :: redirects, rest)
  | s => ([], s)

/-- Takes words and redirections off the front. -/
def takeSimple : List Token → List (List Char) × List Redirect × List Token
  | .word raw :: rest =>
    let (words, redirects, rest) := takeSimple rest
    (raw :: words, redirects, rest)
  | .redirect file mark :: .word target :: rest =>
    let (words, redirects, rest) := takeSimple rest
    (words, .path file mark target :: redirects, rest)
  | .here file body expands :: rest =>
    let (words, redirects, rest) := takeSimple rest
    (words, .text file body expands :: redirects, rest)
  | s => ([], [], s)

/-- Takes the patterns of a branch of a choice off the front. -/
def takePatterns : Nat → List Token → Option (List (List Char) × List Token)
  | 0, _ => none
  | fuel + 1, .word raw :: .mark "|" :: rest => do
    let (patterns, rest) ← takePatterns fuel rest
    return (raw :: patterns, rest)
  | _, .word raw :: .mark ")" :: rest => some ([raw], rest)
  | _, _ => none

/-- A command with redirections after it. -/
def withRedirects (body : Script) (s : List Token) : Script × List Token :=
  match takeRedirects s with
  | ([], s) => (body, s)
  | (redirects, s) => (redirected body redirects, s)

mutual

/-- A list of commands, in at most `fuel` steps. -/
def readList : Nat → List Token → Option (Script × List Token)
  | 0, _ => none
  | fuel + 1, s => do
    let s := skipLines s
    if endsList s then return (nothing, s)
    let (first, s) ← readChain fuel s
    match s with
    | .mark text :: rest =>
      if text = ";" ∨ text = "newline" ∨ text = "&" then
        let first := if text = "&" then aside first else first
        if endsList (skipLines rest) then return (first, skipLines rest)
        let (second, s) ← readList fuel rest
        return (sequence first second, s)
      else return (first, s)
    | s => return (first, s)

/-- Commands that depend on each other's success. -/
def readChain : Nat → List Token → Option (Script × List Token)
  | 0, _ => none
  | fuel + 1, s => do
    let (first, s) ← readPipe fuel s
    readChainFrom fuel first s

/-- The rest of commands that depend on each other's success. -/
def readChainFrom : Nat → Script → List Token → Option (Script × List Token)
  | 0, _, _ => none
  | fuel + 1, first, .mark text :: rest => do
    if text = "&&" then
      let (second, s) ← readPipe fuel (skipLines rest)
      readChainFrom fuel (onSuccess first second) s
    else if text = "||" then
      let (second, s) ← readPipe fuel (skipLines rest)
      readChainFrom fuel (onFailure first second) s
    else return (first, .mark text :: rest)
  | _, first, s => some (first, s)

/-- Commands of which each reads what the one before it writes. -/
def readPipe : Nat → List Token → Option (Script × List Token)
  | 0, _ => none
  | fuel + 1, s => do
    match s with
    | .word ['!'] :: rest =>
      let (body, s) ← readPipe fuel rest
      return (negated body, s)
    | s =>
      let (first, s) ← readOne fuel s
      match s with
      | .mark "|" :: rest =>
        let (second, s) ← readPipe fuel (skipLines rest)
        return (piped first second, s)
      | s => return (first, s)

/-- One command. -/
def readOne : Nat → List Token → Option (Script × List Token)
  | 0, _ => none
  | fuel + 1, s => do
    match s with
    | .mark "(" :: rest =>
      let (body, s) ← readList fuel rest
      let s ← expectMark ")" s
      return withRedirects (apart body) s
    | .word raw :: .mark "(" :: .mark ")" :: rest =>
      let (body, s) ← readOne fuel (skipLines rest)
      return (define raw body, s)
    | .word raw :: rest =>
      let word := String.ofList raw
      if word = "\x7b" then
        let (body, s) ← readList fuel rest
        let s ← expect "\x7d" s
        return withRedirects body s
      else if word = "if" then
        let (body, s) ← readBranches fuel rest
        return withRedirects body s
      else if word = "while" ∨ word = "until" then
        let (condition, s) ← readList fuel rest
        let (body, s) ← readList fuel (← expect "do" s)
        return withRedirects (loop (word = "until") condition body) (← expect "done" s)
      else if word = "for" then
        match rest with
        | .word name :: rest =>
          let (words, s) := match skipLines rest with
            | .word ['i', 'n'] :: rest => takeWords rest
            | _ => (["\"$@\"".toList], rest)
          let s := match s with
            | .mark ";" :: rest => rest
            | s => s
          let (body, s) ← readList fuel (← expect "do" s)
          return withRedirects (each name words body) (← expect "done" s)
        | _ => none
      else if word = "case" then
        match rest with
        | .word subject :: rest =>
          let s ← expect "in" rest
          let (branches, s) ← readChoices fuel s
          return withRedirects (choice subject branches) s
        | _ => none
      else if word ∈ reserved then none
      else
        let (words, redirects, after) := takeSimple s
        return (simple words redirects (lineEnds s), after)
    | s =>
      match takeSimple s with
      | ([], [], _) => none
      | (words, redirects, after) => return (simple words redirects (lineEnds s), after)

/-- The rest of a branching after its first word. -/
def readBranches : Nat → List Token → Option (Script × List Token)
  | 0, _ => none
  | fuel + 1, s => do
    let (condition, s) ← readList fuel s
    let (first, s) ← readList fuel (← expect "then" s)
    match skipLines s with
    | .word raw :: rest =>
      let word := String.ofList raw
      if word = "elif" then
        let (second, s) ← readBranches fuel rest
        return (branch condition first second, s)
      else if word = "else" then
        let (second, s) ← readList fuel rest
        return (branch condition first second, ← expect "fi" s)
      else if word = "fi" then return (branch condition first nothing, rest)
      else none
    | _ => none

/-- The branches of a choice up to its last word. -/
def readChoices : Nat → List Token → Option (List (List (List Char) × Script) × List Token)
  | 0, _ => none
  | fuel + 1, s => do
    match skipLines s with
    | .word ['e', 's', 'a', 'c'] :: rest => return ([], rest)
    | s =>
      let s := match s with
        | .mark "(" :: rest => rest
        | s => s
      let (patterns, s) ← takePatterns fuel s
      let (body, s) ← readList fuel s
      match s with
      | .mark ";;" :: rest =>
        let (branches, s) ← readChoices fuel rest
        return ((patterns, body) :: branches, s)
      | s =>
        let s ← expect "esac" s
        return ([(patterns, body)], s)

end

/-- The tree of tokens, if they make up a script. -/
def ofTokens? (s : List Token) : Option Script :=
  match readList (4 * s.length + 8) s with
  | some (body, []) => some body
  | _ => none

/-- What is wrong with tokens that make up no script. -/
def complaint (s : List Token) : String :=
  if .unclosed ∈ s then "Syntax error: Unterminated quoted string" else "Syntax error"

end Script

end StyleMonitor.Shell
