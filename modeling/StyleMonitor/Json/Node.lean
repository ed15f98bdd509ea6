import StyleMonitor.Decimal

/-!
JSON as it is read. A text is read as far as it is JSON; where it stops being JSON the tree holds
a break with the reason. So a tree exists for every text, and a reader that knows what it expects
meets the faults of the text and its own disappointments in the order of the text.
-/

namespace StyleMonitor.Json

/-- Why a text cannot be taken as a value. -/
inductive Fault where
  /-- The text is not JSON. -/
  | malformed
  /-- The text ends too early. -/
  | endsEarly
  /-- The text is JSON so far, but not of the kind expected. -/
  | mismatch
  deriving DecidableEq, Repr

/-- A number: its sign, its digits as a natural number, and the power of ten to scale it by. -/
structure Number where
  negative : Bool
  digits : Nat
  scale : Int
  /-- Whether the number was written without fraction and exponent. -/
  whole : Bool
  deriving DecidableEq, Repr

/-- A break in a text. What a reader says about it can depend on whether it wants the value or
only skips it. -/
structure Break where
  wanted : Fault
  skipped : Fault
  deriving DecidableEq, Repr

namespace Break

/-- A break that every reader takes alike. -/
def plain (fault : Fault) : Break := ⟨fault, fault⟩

/-- A place where something has to come and nothing fitting does: the text ends, or goes on in
another way. -/
def atRest : List Char → Break
  | [] => plain .endsEarly
  | _ :: _ => plain .malformed

/-- A place in a number where a digit has to come and none does. Only a reader that wants the
number tells an early end apart. -/
def atDigit : List Char → Break
  | [] => ⟨.endsEarly, .malformed⟩
  | _ :: _ => plain .malformed

end Break

/-- How a list of items or members ends. -/
inductive Ending where
  | closed
  /-- The list breaks, directly after a comma or not. -/
  | stopped (gap : Break) (afterComma : Bool)
  deriving DecidableEq, Repr

/-- A value as it is read. A string that is well formed but for the pairing of its surrogates
can be skipped and not be wanted. -/
inductive Node where
  | null
  | bool (value : Bool)
  | number (value : Number)
  | string (content : Except Fault String)
  | array (items : List Node) (ending : Ending)
  | object (members : List (Except Fault String × Node)) (ending : Ending)
  | broken (gap : Break)

/-- A text after its JSON blanks. -/
def skipBlanks (s : List Char) : List Char :=
  s.dropWhile fun c => c = ' ' ∨ c = '\n' ∨ c = '\t' ∨ c = '\r'

/-- The value of a hexadecimal digit. -/
def hexValue? (c : Char) : Option Nat :=
  if '0' ≤ c ∧ c ≤ '9' then some (c.toNat - '0'.toNat)
  else if 'a' ≤ c ∧ c ≤ 'f' then some (c.toNat - 'a'.toNat + 10)
  else if 'A' ≤ c ∧ c ≤ 'F' then some (c.toNat - 'A'.toNat + 10)
  else none

/-- Four hexadecimal digits. A text that holds less than four more bytes ends too early. -/
def readUnit (s : List Char) : Except Fault (Nat × List Char) :=
  if (s.take 4).foldl (fun n c => n + c.utf8Size) 0 < 4 then .error .endsEarly
  else match s with
    | a :: b :: c :: d :: rest =>
      match hexValue? a, hexValue? b, hexValue? c, hexValue? d with
      | some a, some b, some c, some d => .ok (((a * 16 + b) * 16 + c) * 16 + d, rest)
      | _, _, _, _ => .error .malformed
    | _ => .error .malformed

/-- The characters that stand after a backslash for one character. -/
def simpleEscape? (c : Char) : Option Char :=
  if c = '"' ∨ c = '\\' ∨ c = '/' then some c
  else if c = 'b' then some '\x08'
  else if c = 'f' then some '\x0c'
  else if c = 'n' then some '\n'
  else if c = 'r' then some '\r'
  else if c = 't' then some '\t'
  else none

/-- The second unit of a pair of surrogates, which has to follow at once. -/
def readTrail (high : Nat) (s : List Char) : Except Fault (Char × List Char) :=
  match s with
  | '\\' :: 'u' :: rest =>
    match readUnit rest with
    | .error fault => .error fault
    | .ok (low, rest) =>
      if 0xDC00 ≤ low ∧ low ≤ 0xDFFF then
        .ok (Char.ofNat ((high - 0xD800) * 0x400 + (low - 0xDC00) + 0x10000), rest)
      else .error .malformed
  | ['\\'] => .error .endsEarly
  | [] => .error .endsEarly
  | _ => .error .malformed

/-- The character that a `\u` escape stands for. -/
def readUnicode (s : List Char) : Except Fault (Char × List Char) :=
  match readUnit s with
  | .error fault => .error fault
  | .ok (unit, rest) =>
    if 0xDC00 ≤ unit ∧ unit ≤ 0xDFFF then .error .malformed
    else if 0xD800 ≤ unit ∧ unit ≤ 0xDBFF then readTrail unit rest
    else .ok (Char.ofNat unit, rest)

/-- One character of a string, or none at the closing quote. With `lenient`, surrogates need no
partner and stand for any character. -/
def readChar (lenient : Bool) : List Char → Except Fault (Option Char × List Char)
  | [] => .error .endsEarly
  | '"' :: rest => .ok (none, rest)
  | ['\\'] => .error .endsEarly
  | '\\' :: 'u' :: rest =>
    if lenient then (readUnit rest).map fun (_, rest) => (some '?', rest)
    else (readUnicode rest).map fun (c, rest) => (some c, rest)
  | '\\' :: c :: rest =>
    match simpleEscape? c with
    | some c => .ok (some c, rest)
    | none => .error .malformed
  | c :: rest => if c < ' ' then .error .malformed else .ok (some c, rest)

/-- The characters of a string up to its closing quote, in at most `fuel` steps. -/
def readChars (lenient : Bool) : Nat → List Char → Except Fault (List Char × List Char)
  | 0, _ => .error .endsEarly
  | fuel + 1, s =>
    match readChar lenient s with
    | .error fault => .error fault
    | .ok (none, rest) => .ok ([], rest)
    | .ok (some c, rest) =>
      match readChars lenient fuel rest with
      | .error fault => .error fault
      | .ok (more, rest) => .ok (c :: more, rest)

/-- A string after its opening quote: its content and what follows, or the break in it. -/
def readString (s : List Char) : Except Break (Except Fault String × List Char) :=
  let wanted := (readChars false (s.length + 1) s).map fun (content, _) => String.ofList content
  match readChars true (s.length + 1) s, wanted with
  | .ok (_, rest), content => .ok (content, rest)
  | .error skipped, .error wanted => .error ⟨wanted, skipped⟩
  | .error skipped, .ok _ => .error (.plain skipped)

/-- The digits that a text starts with, and the rest. -/
def spanDigits (s : List Char) : List Char × List Char :=
  (s.takeWhile Decimal.isDigit, s.dropWhile Decimal.isDigit)

/-- The exponent that may follow the digits of a number. -/
def readExponent (number : Number) (s : List Char) : Except Break (Number × List Char) :=
  match s with
  | c :: rest =>
    if c = 'e' ∨ c = 'E' then
      let negative := rest.head? == some '-'
      let rest := if rest.head? == some '-' ∨ rest.head? == some '+' then rest.tail else rest
      let (digits, after) := spanDigits rest
      if digits = [] then .error (.atDigit rest)
      else
        let size : Int := Decimal.valueFrom 0 digits
        let scale := number.scale + (if negative then -size else size)
        .ok ({ number with scale := scale, whole := false }, after)
    else .ok (number, s)
  | [] => .ok (number, s)

/-- The fraction and the exponent that may follow the digits of a number. -/
def readFraction (number : Number) (s : List Char) : Except Break (Number × List Char) :=
  match s with
  | '.' :: rest =>
    let (digits, after) := spanDigits rest
    if digits = [] then .error (.atDigit rest)
    else readExponent { number with
      digits := Decimal.valueFrom number.digits digits, scale := -digits.length,
      whole := false } after
  | _ => readExponent number s

/-- A number after its sign. No zero stands before other digits. -/
def readNumber (negative : Bool) (s : List Char) : Except Break (Number × List Char) :=
  match s with
  | '0' :: rest =>
    if (rest.head?.map Decimal.isDigit).getD false then .error (.plain .malformed)
    else readFraction ⟨negative, 0, 0, true⟩ rest
  | _ =>
    let (digits, after) := spanDigits s
    if digits = [] then .error (.atDigit s)
    else readFraction ⟨negative, Decimal.valueFrom 0 digits, 0, true⟩ after

/-- A word of JSON after its first letter. -/
def readWord (word : List Char) (node : Node) (s : List Char) : Node × List Char :=
  if word.isPrefixOf s then (node, s.drop word.length)
  else if s.isPrefixOf word then (.broken (.plain .endsEarly), [])
  else (.broken (.plain .malformed), [])

/-- Whether a list goes on after a comma, ends, or breaks. -/
inductive Turn where
  | item (rest : List Char)
  | ended (ending : Ending) (rest : List Char)

/-- What comes next in a list that `close` closes. Before its first item it may end at once, and
later items follow a comma. -/
def turn (close : Char) (first : Bool) (s : List Char) : Turn :=
  match skipBlanks s with
  | [] => .ended (.stopped (.plain .endsEarly) false) []
  | c :: rest =>
    if c = close then .ended .closed rest
    else if first then .item (c :: rest)
    else if c = ',' then
      match skipBlanks rest with
      | [] => .ended (.stopped (.plain .endsEarly) true) []
      | d :: more =>
        if d = close then .ended (.stopped (.plain .malformed) true) []
        else .item (d :: more)
    else .ended (.stopped (.plain .malformed) false) []

/-- Whether reading goes on after a node. -/
def Node.isWhole : Node → Bool
  | .broken _ => false
  | .array _ (.stopped _ _) => false
  | .object _ (.stopped _ _) => false
  | _ => true

/-- A list that ends because an item in it is broken. -/
def Ending.atItem : Ending := .stopped (.plain .malformed) false

mutual

/-- A value, blanks before it skipped, in at most `fuel` steps. -/
def readNode : Nat → List Char → Node × List Char
  | 0, _ => (.broken (.plain .malformed), [])
  | fuel + 1, s =>
    match skipBlanks s with
    | [] => (.broken (.plain .endsEarly), [])
    | '"' :: rest =>
      match readString rest with
      | .ok (content, rest) => (.string content, rest)
      | .error gap => (.broken gap, [])
    | '[' :: rest =>
      let (items, ending, rest) := readItems fuel true rest
      (.array items ending, rest)
    | '{' :: rest =>
      let (members, ending, rest) := readMembers fuel true rest
      (.object members ending, rest)
    | 'n' :: rest => readWord ['u', 'l', 'l'] .null rest
    | 't' :: rest => readWord ['r', 'u', 'e'] (.bool true) rest
    | 'f' :: rest => readWord ['a', 'l', 's', 'e'] (.bool false) rest
    | c :: rest =>
      if c = '-' ∨ Decimal.isDigit c then
        match readNumber (c = '-') (if c = '-' then rest else c :: rest) with
        | .ok (number, rest) => (.number number, rest)
        | .error gap => (.broken gap, [])
      else (.broken (.plain .malformed), [])

/-- The items of an array after its bracket. -/
def readItems : Nat → Bool → List Char → List Node × Ending × List Char
  | 0, _, _ => ([], .atItem, [])
  | fuel + 1, first, s =>
    match turn ']' first s with
    | .ended ending rest => ([], ending, rest)
    | .item rest =>
      let (node, rest) := readNode fuel rest
      if node.isWhole then
        let (items, ending, rest) := readItems fuel false rest
        (node :: items, ending, rest)
      else ([node], .atItem, [])

/-- The members of an object after its brace. -/
def readMembers : Nat → Bool → List Char →
    List (Except Fault String × Node) × Ending × List Char
  | 0, _, _ => ([], .atItem, [])
  | fuel + 1, first, s =>
    match turn '}' first s with
    | .ended ending rest => ([], ending, rest)
    | .item ('"' :: rest) =>
      match readString rest with
      | .error gap => ([], .stopped gap false, [])
      | .ok (key, rest) =>
        match skipBlanks rest with
        | ':' :: rest =>
          let (node, rest) := readNode fuel rest
          if node.isWhole then
            let (members, ending, rest) := readMembers fuel false rest
            ((key, node) :: members, ending, rest)
          else ([(key, node)], .atItem, [])
        | rest => ([(key, .broken (.atRest rest))], .atItem, [])
    | .item _ => ([], .stopped (.plain .malformed) false, [])

end

/-- A text as a value, and whether anything but blanks follows it. -/
def ofText (text : String) : Node × Bool :=
  let s := text.toList
  let (node, rest) := readNode (s.length + 1) s
  (node, skipBlanks rest != [])

end StyleMonitor.Json
