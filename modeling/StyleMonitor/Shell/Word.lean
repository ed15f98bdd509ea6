import StyleMonitor.Shell.Arithmetic
import StyleMonitor.Shell.Token
import StyleMonitor.Text.Rows

/-!
Expansion of words: quotes go, variables and expressions give way to their values, and what was
not quoted is cut at blanks into fields.
-/

namespace StyleMonitor.Shell

/-- What a word is expanded with. -/
structure Scope where
  bindings : List (List Char × List Char) := []
  /-- The name of the script. -/
  name : List Char := "sh".toList
  arguments : List (List Char) := []
  /-- The status of the last command. -/
  status : Nat := 0
  deriving DecidableEq, Repr

/-- The number of the shell among the processes. -/
def ownNumber : Nat := 4242

/-- A number in decimal digits. -/
def digits (n : Nat) : List Char :=
  (Decimal.text n).toList

namespace Scope

/-- The value of a variable or parameter. -/
def get? (scope : Scope) (name : List Char) : Option (List Char) :=
  match name with
  | ['?'] => some (digits scope.status)
  | ['#'] => some (digits scope.arguments.length)
  | ['$'] => some (digits ownNumber)
  | ['0'] => some scope.name
  | ['@'] => some (joinWords scope.arguments)
  | ['*'] => some (joinWords scope.arguments)
  | name =>
    match Decimal.value? name with
    | some n => scope.arguments[n - 1]?
    | none => scope.bindings.lookup name
where
  /-- Words with one blank between each two. -/
  joinWords (words : List (List Char)) : List Char := List.intercalate [' '] words

/-- Gives a variable a value. -/
def set (name value : List Char) (scope : Scope) : Scope :=
  { scope with
    bindings := (name, value) :: scope.bindings.filter fun entry => entry.1 ≠ name }

/-- The value of a variable as a number. -/
def number (scope : Scope) (name : List Char) : Int :=
  match (scope.get? name).getD [] with
  | '-' :: rest => -numeral rest
  | s => numeral s

end Scope

/-- A part of an expanded word. -/
inductive Part where
  /-- A text. What is quoted stands for itself in patterns; what is soft is cut at blanks. -/
  | text (s : List Char) (quoted soft : Bool)
  /-- The end of a field. -/
  | cut
  deriving DecidableEq, Repr

/-- The text of parts that are not cut. -/
def joined (parts : List Part) : List Char :=
  parts.flatMap fun
    | .text s _ _ => s
    | .cut => [' ']

/-- The characters of parts as a pattern: whether each may have a meaning of its own. -/
def patternOf (parts : List Part) : List (Char × Bool) :=
  parts.flatMap fun
    | .text s quoted _ => s.map fun c => (c, !quoted)
    | .cut => []

/-- A class in brackets at the front of a pattern: its test, and what follows. -/
def classAt? (s : List (Char × Bool)) : Option ((Char → Bool) × List (Char × Bool)) :=
  let body := s.takeWhile fun entry => entry ≠ (']', true)
  let rest := s.drop body.length
  let chars := body.map (·.1)
  let negated := chars.head? = some '!'
  let chars := if negated then chars.tail else chars
  let rec holds (c : Char) : List Char → Bool
    | low :: '-' :: high :: rest => (low ≤ c && c ≤ high) || holds c rest
    | d :: rest => c = d || holds c rest
    | [] => false
  if rest.isEmpty then none else some (fun c => holds c chars != negated, rest.tail)

/-- The row of marks of a pattern, in at most `fuel` steps. -/
def patternRow : Nat → List (Char × Bool) → List Char → List Bool
  | 0, _, s => Text.endRow s
  | _, [], s => Text.endRow s
  | fuel + 1, (c, active) :: rest, s =>
    if active ∧ c = '*' then Text.runRow (fun _ => true) s (patternRow fuel rest s)
    else if active ∧ c = '?' then Text.oneRow (fun _ => true) s (patternRow fuel rest s)
    else
      match if active ∧ c = '[' then classAt? rest else none with
      | some (test, rest) => Text.oneRow test s (patternRow fuel rest s)
      | none => Text.oneRow (· == c) s (patternRow fuel rest s)

/-- Whether a pattern matches all of a text. -/
def fits (pattern : List (Char × Bool)) (s : List Char) : Bool :=
  (patternRow (pattern.length + 1) pattern s).headD false

/-- A text without what a pattern matches at its end, the least or the most of it. -/
def withoutEnd (most : Bool) (pattern : List (Char × Bool)) (s : List Char) : List Char :=
  let cuts := List.range (s.length + 1)
  let cuts := if most then cuts else cuts.reverse
  match cuts.find? fun n => fits pattern (s.drop n) with
  | some n => s.take n
  | none => s

/-- A text without what a pattern matches at its front, the least or the most of it. -/
def withoutFront (most : Bool) (pattern : List (Char × Bool)) (s : List Char) : List Char :=
  let cuts := List.range (s.length + 1)
  let cuts := if most then cuts.reverse else cuts
  match cuts.find? fun n => fits pattern (s.take n) with
  | some n => s.drop n
  | none => s

/-- The name of a parameter at the front of a text, and what follows. -/
def spanName (s : List Char) : List Char × List Char :=
  match s with
  | [] => ([], [])
  | c :: rest =>
    if c ∈ "@*#?$!".toList ∨ c.isDigit then ([c], rest)
    else (s.takeWhile isNameChar, s.dropWhile isNameChar)

/-- A field of characters that each may have a meaning of its own in patterns. -/
abbrev Field := List (Char × Bool)

/-- The fields of expanded parts. -/
def fieldsOf : List Part → Option Field → List Field
  | [], field => field.toList
  | .cut :: rest, field => field.toList ++ fieldsOf rest none
  | .text s quoted false :: rest, field =>
    fieldsOf rest (some (field.getD [] ++ s.map fun c => (c, !quoted)))
  | .text s quoted true :: rest, field =>
    let (fields, last) := cutAtBlanks quoted s field
    fields ++ fieldsOf rest last
where
  /-- Cuts a text at blanks: the fields that end in it, and the one that does not. -/
  cutAtBlanks (quoted : Bool) : List Char → Option Field → List Field × Option Field
    | [], field => ([], field)
    | c :: rest, field =>
      if c = ' ' ∨ c = '\t' ∨ c = '\n' then
        let (fields, last) := cutAtBlanks quoted rest none
        (field.toList ++ fields, last)
      else cutAtBlanks quoted rest (some (field.getD [] ++ [(c, !quoted)]))

section Expand
variable {σ : Type} (scopeOf : σ → Scope) (assign : List Char → List Char → σ → σ)
  (substitute : List Char → σ → List Char × σ)

/-- The arguments as parts. -/
def argumentParts (quoted : Bool) (arguments : List (List Char)) : List Part :=
  (arguments.map fun argument => Part.text argument quoted (!quoted)).intersperse .cut

mutual

/-- Expands a text, in at most `fuel` steps. `quoted` tells whether it stands between double
quotes. -/
def expand (quoted : Bool) : Nat → List Char → σ → List Part × σ
  | 0, _, m => ([], m)
  | _, [], m => ([], m)
  | fuel + 1, c :: rest, m =>
    let onward := fun (parts : List Part) (rest : List Char) (m : σ) =>
      let (more, m) := expand quoted fuel rest m
      (parts ++ more, m)
    if c = '$' then
      let (parts, rest, m) := expandDollar quoted fuel rest m
      onward parts rest m
    else if c = '\x60' then
      let (source, rest) := spanBracket '\x60' rest
      let (s, m) := substitute source m
      onward [.text s quoted (!quoted)] rest m
    else if c = '\\' then
      match rest with
      | [] => onward [.text ['\\'] quoted false] [] m
      | '\n' :: rest => onward [] rest m
      | d :: rest =>
        if quoted ∧ d ∉ "$\"\\\x60".toList then onward [.text ['\\', d] true false] rest m
        else onward [.text [d] true false] rest m
    else if quoted then onward [.text [c] true false] rest m
    else if c = '\'' then
      let inside := rest.takeWhile (· ≠ '\'')
      onward [.text inside true false] (rest.drop (inside.length + 1)) m
    else if c = '"' then
      let (inside, rest) := spanBracket '"' rest
      let (parts, m) := expand true fuel inside m
      let start := if inside = "$@".toList then [] else [Part.text [] true false]
      onward (start ++ parts) rest m
    else onward [.text [c] false false] rest m

/-- Expands what follows a dollar, and gives what follows that. -/
def expandDollar (quoted : Bool) : Nat → List Char → σ → List Part × List Char × σ
  | 0, s, m => ([], s, m)
  | fuel + 1, s, m =>
    let value := fun (s : List Char) => [Part.text s quoted (!quoted)]
    match s with
    | '(' :: '(' :: rest =>
      let (inside, rest) := spanBracket ')' rest
      let (parts, m) := expand true fuel inside m
      let n := calculate (scopeOf m).number (joined parts)
      (value (Decimal.intText n).toList, rest.tail, m)
    | '(' :: rest =>
      let (source, rest) := spanBracket ')' rest
      let (s, m) := substitute source m
      (value s, rest, m)
    | '\x7b' :: rest =>
      let (inside, rest) := spanBracket '\x7d' rest
      match inside with
      | '#' :: d :: name =>
        (value (digits (((scopeOf m).get? (d :: name)).getD []).length), rest, m)
      | inside =>
        let (name, operation) := spanName inside
        let (parts, m) := expandParameter quoted fuel name operation m
        (parts, rest, m)
    | s =>
      let (name, rest) := spanName s
      if name.isEmpty then ([.text ['$'] true false], s, m)
      else if name = ['@'] ∨ (name = ['*'] ∧ ¬ quoted) then
        (argumentParts quoted (scopeOf m).arguments, rest, m)
      else (value (((scopeOf m).get? name).getD []), rest, m)

/-- Expands a parameter in braces with what stands after its name. -/
def expandParameter (quoted : Bool) : Nat → List Char → List Char → σ → List Part × σ
  | 0, _, _, m => ([], m)
  | fuel + 1, name, operation, m =>
    let found := (scopeOf m).get? name
    let s := found.getD []
    let value := fun (s : List Char) => [Part.text s quoted (!quoted)]
    match operation with
    | '%' :: '%' :: word =>
      let (parts, m) := expand false fuel word m
      (value (withoutEnd true (patternOf parts) s), m)
    | '%' :: word =>
      let (parts, m) := expand false fuel word m
      (value (withoutEnd false (patternOf parts) s), m)
    | '#' :: '#' :: word =>
      let (parts, m) := expand false fuel word m
      (value (withoutFront true (patternOf parts) s), m)
    | '#' :: word =>
      let (parts, m) := expand false fuel word m
      (value (withoutFront false (patternOf parts) s), m)
    | ':' :: '-' :: word => if s.isEmpty then expand quoted fuel word m else (value s, m)
    | '-' :: word => if found.isNone then expand quoted fuel word m else (value s, m)
    | ':' :: '=' :: word =>
      if s.isEmpty then
        let (parts, m) := expand quoted fuel word m
        (parts, assign name (joined parts) m)
      else (value s, m)
    | ':' :: '+' :: word => if s.isEmpty then ([], m) else expand quoted fuel word m
    | '+' :: word => if found.isNone then ([], m) else expand quoted fuel word m
    | _ =>
      if name = ['@'] then (argumentParts quoted (scopeOf m).arguments, m) else (value s, m)

end

end Expand

end StyleMonitor.Shell
