import StyleMonitor.Ignore.Glob
import StyleMonitor.Text.Blank
import StyleMonitor.Text.Readable

/-!
Ignore files: lists of rules that say which entries of a directory tree are left out. The last
rule that applies decides. A rule without a slash applies at any depth, one with a slash from the
directory of the file on.
-/

namespace StyleMonitor.Ignore

/-- What rules say about an entry. -/
inductive Verdict where
  | ignored
  /-- The entry is kept, whatever other files say. -/
  | kept
  deriving DecidableEq, Repr

/-- One rule of an ignore file. -/
structure Rule where
  glob : Glob
  /-- Whether the rule keeps what it matches. -/
  keeps : Bool
  /-- Whether the rule is for directories only. -/
  directories : Bool
  deriving DecidableEq, Repr

namespace Rule

/-- A line without trailing blanks. A last blank after a backslash stays. -/
def trimLine (line : List Char) : List Char :=
  if "\\ ".toList.isSuffixOf line then line else Text.trimEnd line

/-- A text without one last character, if it ends in it. -/
def withoutFinal (c : Char) (s : List Char) : List Char :=
  if s.getLast? = some c then s.dropLast else s

/-- The text of the glob of a rule. `anchored` tells whether a slash stood in front of it. -/
def globText (anchored : Bool) (body : List Char) : List Char :=
  let deep := if anchored ∨ '/' ∈ body ∨ "**/".toList.isPrefixOf body ∨ body = "**".toList then body
    else "**/".toList ++ body
  if "/**".toList.isSuffixOf deep then deep ++ "/*".toList else deep

/-- The mark in front of a rule: whether it keeps, whether it is anchored, and the rest of it. -/
def front : List Char → Bool × Bool × List Char
  | '\\' :: '!' :: rest => (false, false, '!' :: rest)
  | '\\' :: '#' :: rest => (false, false, '#' :: rest)
  | '!' :: '/' :: rest => (true, true, rest)
  | '!' :: rest => (true, false, rest)
  | '/' :: rest => (false, true, rest)
  | s => (false, false, s)

/-- The rule of a line. Blank lines, comments and lines that are no glob hold none. -/
def ofLine? (line : List Char) : Option Rule :=
  if line.head? = some '#' then none
  else match trimLine line with
    | [] => none
    | line =>
      let (keeps, anchored, body) := front line
      let directories := body.getLast? = some '/'
      let body := if directories then withoutFinal '\\' body.dropLast else body
      (Glob.ofText? (globText anchored body)).map fun glob => ⟨glob, keeps, directories⟩

end Rule

/-- The rules of a file. A mark of the byte order in front of it does not count. -/
def rulesOf (content : Bytes) : List Rule :=
  match (Text.readableLines content).map String.toList with
  | [] => []
  | line :: rest => (line.dropWhile (· = '\uFEFF') :: rest).filterMap Rule.ofLine?

/-- What the rules of a file say about an entry: its path from the directory of the file, and
whether it is a directory. -/
def verdict? (rules : List Rule) (path : Bytes) (isDirectory : Bool) : Option Verdict :=
  (rules.reverse.find? fun rule =>
    (isDirectory || !rule.directories) && rule.glob.isMatch path).map fun rule =>
      if rule.keeps then .kept else .ignored

end StyleMonitor.Ignore
