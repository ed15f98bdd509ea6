import StyleMonitor.Text.Blank
import StyleMonitor.Text.Rows

/-!
Patterns that exclude paths. In a pattern `*` stands for any run of characters other than a
newline, slashes included, and every other character stands for itself. A pattern has to match
the whole path; one that ends in a slash also matches everything below what it names.
-/

namespace StyleMonitor.Exclusion

/-- One element of a pattern. -/
inductive Symbol where
  /-- This character and no other. -/
  | literal (c : Char)
  /-- Any run of characters other than a newline. -/
  | anyRun
  deriving DecidableEq, Repr

/-- What a character of a pattern stands for (`pattern_to_regex`). -/
def Symbol.ofChar (c : Char) : Symbol :=
  if c = '*' then anyRun else literal c

/-- One pattern of an ignore file (`CompiledPattern`). -/
structure Pattern where
  /-- The pattern as it was written, without trailing blanks. -/
  source : String
  /-- The elements, a final slash left out. -/
  symbols : List Symbol
  /-- Whether the pattern ends in a slash. -/
  directory : Bool
  deriving DecidableEq, Repr

/-- Marks the suffixes of a text of which the symbols match all. -/
def suffixRow : List Symbol → List Char → List Bool
  | [], s => Text.endRow s
  | .literal c :: rest, s => Text.oneRow (· == c) s (suffixRow rest s)
  | .anyRun :: rest, s => Text.runRow (· != '\n') s (suffixRow rest s)

/-- Whether the symbols match all of a text. -/
def matchesAll (symbols : List Symbol) (s : List Char) : Bool :=
  (suffixRow symbols s).headD false

namespace Pattern

/-- The pattern of a line of an ignore file. Blank lines and lines that start with `#` hold
none. -/
def ofLine? (line : List Char) : Option Pattern :=
  match Text.trimEnd line with
  | [] => none
  | '#' :: _ => none
  | source =>
    let directory := source.getLast? == some '/'
    let body := if directory then source.dropLast else source
    some ⟨String.ofList source, body.map Symbol.ofChar, directory⟩

/-- Whether a pattern matches a path. -/
def isMatch (pattern : Pattern) (path : List Char) : Bool :=
  matchesAll pattern.symbols path ||
    (pattern.directory && matchesAll (pattern.symbols ++ [.literal '/', .anyRun]) path)

end Pattern

end StyleMonitor.Exclusion
