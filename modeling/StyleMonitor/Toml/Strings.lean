import StyleMonitor.Json.Node

/-!
The strings of TOML: basic strings, which know escapes, and literal strings, which do not, each on
one line or on several.
-/

namespace StyleMonitor.Toml

/-- Whether a character must not stand in strings and comments: a control character other than
the tab. -/
def isControl (c : Char) : Bool :=
  (c < ' ' && c ≠ '\t') || c = '\x7f'

/-- Whether a character is a blank within a line. -/
def isBlank (c : Char) : Bool :=
  c = ' ' || c = '\t'

/-- A character by its number in hexadecimal digits. -/
def ofHex? (digits : List Char) : Option Char :=
  match digits.mapM Json.hexValue? with
  | none => none
  | some values =>
    let number := values.foldl (fun high low => high * 16 + low) 0
    if number < 0xD800 ∨ (0xDFFF < number ∧ number < 0x110000) then some (Char.ofNat number)
    else none

/-- The characters that stand after a backslash for one character. -/
def simpleEscape? (c : Char) : Option Char :=
  if c = '"' ∨ c = '\\' then some c
  else if c = 'b' then some '\x08'
  else if c = 't' then some '\t'
  else if c = 'n' then some '\n'
  else if c = 'f' then some '\x0c'
  else if c = 'r' then some '\r'
  else if c = 'e' then some '\x1b'
  else none

/-- How many digits the number of a character has after this letter. -/
def hexWidth? (c : Char) : Option Nat :=
  if c = 'x' then some 2 else if c = 'u' then some 4 else if c = 'U' then some 8 else none

/-- What a backslash and the text after it stand for. With `multiline`, a backslash at the end
of a line joins the lines and all blanks after it. -/
def readEscape (multiline : Bool) : List Char → Option (List Char × List Char)
  | [] => none
  | c :: rest =>
    match simpleEscape? c, hexWidth? c with
    | some plain, _ => some ([plain], rest)
    | none, some width =>
      if (rest.take width).length < width then none
      else (ofHex? (rest.take width)).map fun plain => ([plain], rest.drop width)
    | none, none =>
      let later := (c :: rest).dropWhile isBlank
      if multiline ∧ later.head? = some '\n' then
        some ([], later.dropWhile fun c => isBlank c || c = '\n')
      else none

/-- A string on one line, after its opening quote, in at most `fuel` steps: its content and what
follows. -/
def readLine (quote : Char) : Nat → List Char → Option (List Char × List Char)
  | 0, _ => none
  | _, [] => none
  | fuel + 1, c :: rest =>
    if c = quote then some ([], rest)
    else if c = '\\' ∧ quote = '"' then do
      let (plain, rest) ← readEscape false rest
      let (content, rest) ← readLine quote fuel rest
      return (plain ++ content, rest)
    else if isControl c then none
    else (readLine quote fuel rest).map fun (content, rest) => (c :: content, rest)

/-- A string on several lines, after its opening quotes, in at most `fuel` steps. Up to two
quotes may stand directly before the three that close it. -/
def readLines (quote : Char) : Nat → List Char → Option (List Char × List Char)
  | 0, _ => none
  | _, [] => none
  | fuel + 1, c :: rest =>
    if c = quote then
      let count := ((c :: rest).take 5).takeWhile (· = quote) |>.length
      if count < 3 then
        (readLines quote fuel rest).map fun (content, rest) => (c :: content, rest)
      else some (List.replicate (count - 3) quote, (c :: rest).drop count)
    else if c = '\\' ∧ quote = '"' then do
      let (plain, rest) ← readEscape true rest
      let (content, rest) ← readLines quote fuel rest
      return (plain ++ content, rest)
    else if isControl c ∧ c ≠ '\n' then none
    else (readLines quote fuel rest).map fun (content, rest) => (c :: content, rest)

/-- A string: its content and what follows. A newline directly after opening quotes of a string
on several lines is not part of it. -/
def readString : List Char → Option (List Char × List Char)
  | a :: b :: c :: rest =>
    if a = '"' ∨ a = '\'' then
      if a = b ∧ b = c then
        let body := if rest.head? = some '\n' then rest.tail else rest
        readLines a (body.length + 1) body
      else readLine a (rest.length + 3) (b :: c :: rest)
    else none
  | [a, b] => if (a = '"' ∨ a = '\'') ∧ a = b then some ([], []) else none
  | _ => none

end StyleMonitor.Toml
