import StyleMonitor.Decimal
import StyleMonitor.Text.Bytes

/-!
Tokens of shell scripts. A script is a sequence of bytes; here each byte is a character below
256, so that a script can be read and yet hold any bytes. A word keeps its quotes and its
dollars; they are looked at when it is expanded.
-/

namespace StyleMonitor.Shell

/-- Bytes as characters below 256. -/
def ofBytes (bytes : Bytes) : List Char :=
  bytes.map fun b => Char.ofNat b.toNat

/-- Characters below 256 as bytes. -/
def toBytes (s : List Char) : Bytes :=
  s.map fun c => UInt8.ofNat c.toNat

/-- The characters for the bytes of a text. -/
def ofText (text : String) : List Char :=
  ofBytes (Text.encode text)

/-- The text of the bytes that characters stand for. What is not text becomes nothing. -/
def toText (s : List Char) : String :=
  (Text.decode? (toBytes s)).getD ""

/-- A token. -/
inductive Token where
  | word (raw : List Char)
  /-- A mark such as `;` or `&&`, and the end of a line as `newline`. -/
  | mark (text : String)
  /-- A redirection of the file with this number, up to its target, which is the next word. -/
  | redirect (file : Nat) (text : String)
  /-- A text below the line that is read as the file with this number; `expands` tells whether
  dollars in it count. -/
  | here (file : Nat) (body : List Char) (expands : Bool)
  /-- A word whose quotes are not closed. -/
  | unclosed
  deriving DecidableEq, Repr

/-- The number of line ends in a text. -/
def countLines (s : List Char) : Nat :=
  s.count '\n'

/-- The token at the end of a line. -/
def Token.newline : Token := .mark "newline"

/-- The number of line ends in a token and in the text that belongs to it. -/
def Token.lineEnds : Token → Nat
  | .word raw => countLines raw
  | .mark text => if text = "newline" then 1 else 0
  | .here _ body _ => countLines body + 1
  | _ => 0

/-- The number of line ends in tokens. -/
def lineEnds (s : List Token) : Nat :=
  s.foldl (fun n token => n + token.lineEnds) 0

/-- Whether a character ends a word that is not quoted. -/
def endsWord (c : Char) : Bool :=
  c = ' ' || c = '\t' || c = '\n' || c = ';' || c = '&' || c = '|' || c = '(' || c = ')' ||
    c = '<' || c = '>'

/-- What is taken off the front of a script. -/
structure Taken where
  word : List Char
  rest : List Char
  /-- Whether all quotes and brackets in it are closed. -/
  isClosed : Bool
  deriving DecidableEq, Repr

/-- Takes the start off a script, in at most `fuel` steps. `closers` are the marks that close the
quotes and brackets that are open, the innermost first. What is taken ends where a word ends, or,
with `bracket`, where the last bracket closes. -/
def span (bracket : Bool) : Nat → List Char → List Char → Taken
  | 0, _, s => ⟨[], s, false⟩
  | _, closers, [] => ⟨[], [], closers.isEmpty⟩
  | fuel + 1, closers, c :: rest =>
    let take := fun (closers : List Char) =>
      let taken := span bracket fuel closers rest
      { taken with word := c :: taken.word }
    let takeTwo := fun (closers : List Char) =>
      let taken := span bracket fuel closers rest.tail
      { taken with word := c :: (rest.take 1 ++ taken.word) }
    let inner := closers.head?
    if bracket ∧ closers.isEmpty then ⟨[], c :: rest, true⟩
    else if inner = some '\'' then take (if c = '\'' then closers.tail else closers)
    else if c = '\\' then takeTwo closers
    else if inner = some c then take closers.tail
    else if c = '\'' ∧ inner ≠ some '"' then take ('\'' :: closers)
    else if c = '"' then take ('"' :: closers)
    else if c = '$' ∧ rest.head? = some '(' then takeTwo (')' :: closers)
    else if c = '$' ∧ rest.head? = some '\x7b' then takeTwo ('\x7d' :: closers)
    else if c = '\x60' then take ('\x60' :: closers)
    else if c = '(' ∧ inner = some ')' then take (')' :: closers)
    else if closers.isEmpty ∧ endsWord c then ⟨[], c :: rest, true⟩
    else take closers

/-- Takes a word off a script. -/
def spanWord (s : List Char) : Taken :=
  span false (s.length + 1) [] s

/-- Takes what stands before the mark that closes a bracket off a script, and that mark. -/
def spanBracket (closer : Char) (s : List Char) : List Char × List Char :=
  let taken := span true (s.length + 1) [closer] s
  (taken.word.dropLast, taken.rest)

/-- The marks of the shell, longer ones first. -/
def marks : List String := [";;", "&&", "||", ";", "&", "|", "(", ")"]

/-- The redirections of the shell, longer ones first. -/
def redirections : List String := ["<<-", "<<", ">>", ">&", "<&", ">|", "<", ">"]

/-- The first of some marks that a text starts with, and what follows it. -/
def markAt? (marks : List String) (s : List Char) : Option (String × List Char) :=
  (marks.find? fun mark => mark.toList.isPrefixOf s).map fun mark => (mark, s.drop mark.length)

/-- A word without its quotes. -/
def unquoted : List Char → List Char
  | [] => []
  | '\\' :: c :: rest => c :: unquoted rest
  | c :: rest => if c = '\'' ∨ c = '"' then unquoted rest else c :: unquoted rest

/-- A text below a line, up to the line that ends it, and what follows, in at most `fuel`
lines. -/
def takeHere (mark : List Char) (tabs : Bool) : Nat → List Char → List Char × List Char
  | 0, s => ([], s)
  | fuel + 1, s =>
    if s.isEmpty then ([], [])
    else
      let line := s.takeWhile (· ≠ '\n')
      let rest := s.drop (line.length + 1)
      let line := if tabs then line.dropWhile (· = '\t') else line
      if line = mark then ([], rest)
      else
        let (body, rest) := takeHere mark tabs fuel rest
        (line ++ '\n' :: body, rest)

/-- A text below the line that is still to come: its mark, and whether tabs in front of its lines
are left out. -/
abbrev Awaited := List Char × Bool

/-- Takes the texts that are awaited, and what follows. -/
def takeHeres : List Awaited → List Char → List (List Char) × List Char
  | [], s => ([], s)
  | (mark, tabs) :: more, s =>
    let (body, rest) := takeHere mark tabs (s.length + 1) s
    let (bodies, rest) := takeHeres more rest
    (body :: bodies, rest)

/-- The tokens of a script, with the texts below lines apart, in at most `fuel` steps. -/
def readTokens : Nat → List Awaited → List Char → List Token × List (List Char)
  | 0, _, _ => ([], [])
  | _, awaited, [] => ([], awaited.map fun _ => [])
  | fuel + 1, awaited, c :: rest =>
    if c = ' ' ∨ c = '\t' then readTokens fuel awaited rest
    else if c = '\\' ∧ rest.head? = some '\n' then readTokens fuel awaited rest.tail
    else if c = '\n' then
      let (bodies, rest) := takeHeres awaited.reverse rest
      let (tokens, later) := readTokens fuel [] rest
      (.newline :: tokens, bodies ++ later)
    else if c = '#' then readTokens fuel awaited (rest.dropWhile (· ≠ '\n'))
    else
      let digits := (c :: rest).takeWhile Decimal.isDigit
      let file? := Decimal.value? digits
      match markAt? redirections ((c :: rest).drop digits.length), markAt? marks (c :: rest) with
      | some (text, rest), _ =>
        let file := file?.getD (if text.toList.head? = some '<' then 0 else 1)
        if text = "<<" ∨ text = "<<-" then
          let rest := rest.dropWhile fun c => c = ' ' || c = '\t'
          let mark := (spanWord rest).word
          let expands := unquoted mark = mark
          let (tokens, bodies) :=
            readTokens fuel ((unquoted mark, text = "<<-") :: awaited) (rest.drop mark.length)
          (.here file [] expands :: tokens, bodies)
        else
          let (tokens, bodies) := readTokens fuel awaited rest
          (.redirect file text :: tokens, bodies)
      | none, some (text, rest) =>
        let (tokens, bodies) := readTokens fuel awaited rest
        (.mark text :: tokens, bodies)
      | none, none =>
        let taken := spanWord (c :: rest)
        let (tokens, bodies) := readTokens fuel awaited taken.rest
        (if taken.isClosed then (.word taken.word :: tokens, bodies) else ([.unclosed], []))

/-- Puts the texts below lines where they belong. -/
def placeHeres : List Token → List (List Char) → List Token
  | [], _ => []
  | .here file _ expands :: rest, body :: bodies =>
    .here file body expands :: placeHeres rest bodies
  | token :: rest, bodies => token :: placeHeres rest bodies

/-- The tokens of a script. -/
def tokens (script : List Char) : List Token :=
  let (tokens, bodies) := readTokens (script.length + 1) [] script
  placeHeres tokens bodies

end StyleMonitor.Shell
