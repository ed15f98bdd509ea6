import StyleMonitor.Json.Node

/-!
Arithmetic in shell scripts: integers, variables, and the usual operators with their ranks.
-/

namespace StyleMonitor.Shell

/-- The operators between two operands, longer ones first, each with its rank. -/
def operators : List (String × Nat) := [
  ("||", 1), ("&&", 2), ("==", 6), ("!=", 6), ("<=", 7), (">=", 7), ("<<", 8), (">>", 8),
  ("|", 3), ("^", 4), ("&", 5), ("<", 7), (">", 7), ("+", 9), ("-", 9), ("*", 10), ("/", 10),
  ("%", 10)]

/-- A truth value as a number. -/
def ofBool (b : Bool) : Int := if b then 1 else 0

/-- Applies an operator. Division by zero gives zero. -/
def operate (operator : String) (a b : Int) : Int :=
  match operator with
  | "||" => ofBool (a ≠ 0 || b ≠ 0)
  | "&&" => ofBool (a ≠ 0 && b ≠ 0)
  | "==" => ofBool (a = b)
  | "!=" => ofBool (a ≠ b)
  | "<=" => ofBool (a ≤ b)
  | ">=" => ofBool (b ≤ a)
  | "<" => ofBool (a < b)
  | ">" => ofBool (b < a)
  | "<<" => a * Int.pow 2 b.toNat
  | ">>" => a / Int.pow 2 b.toNat
  | "|" => Int.ofNat (a.toNat ||| b.toNat)
  | "^" => Int.ofNat (a.toNat ^^^ b.toNat)
  | "&" => Int.ofNat (a.toNat &&& b.toNat)
  | "+" => a + b
  | "-" => a - b
  | "*" => a * b
  | "/" => Int.tdiv a b
  | _ => Int.tmod a b

/-- Whether a character can be part of a name. -/
def isNameChar (c : Char) : Bool :=
  c.isAlphanum || c = '_'

/-- The value of a numeral: octal after `0`, hexadecimal after `0x`. -/
def numeral (s : List Char) : Int :=
  let read := fun (base : Nat) (digits : List Char) =>
    Int.ofNat ((digits.filterMap Json.hexValue?).foldl (fun high low => high * base + low) 0)
  match s with
  | '0' :: 'x' :: digits => read 16 digits
  | '0' :: digits => read 8 digits
  | digits => read 10 digits

/-- A text without blanks in front. -/
def skipSpaces (s : List Char) : List Char :=
  s.dropWhile fun c => c = ' ' || c = '\t' || c = '\n'

mutual

/-- An operand and what follows, in at most `fuel` steps. -/
def readOperand (look : List Char → Int) : Nat → List Char → Int × List Char
  | 0, s => (0, s)
  | fuel + 1, s =>
    match skipSpaces s with
    | '(' :: rest =>
      let (value, rest) := readExpression look fuel 0 rest
      (value, (skipSpaces rest).tail)
    | '-' :: rest => let (value, rest) := readOperand look fuel rest; (-value, rest)
    | '+' :: rest => readOperand look fuel rest
    | '!' :: rest => let (value, rest) := readOperand look fuel rest; (ofBool (value = 0), rest)
    | s =>
      let name := s.takeWhile isNameChar
      let rest := s.dropWhile isNameChar
      if (name.head?.map Char.isDigit).getD false then (numeral name, rest)
      else (look name, rest)

/-- An expression of operators of at least a rank, and what follows. -/
def readExpression (look : List Char → Int) : Nat → Nat → List Char → Int × List Char
  | 0, _, s => (0, s)
  | fuel + 1, rank, s =>
    let (first, rest) := readOperand look fuel s
    readOperators look fuel rank first rest

/-- The operators of at least a rank after an operand, applied to it. -/
def readOperators (look : List Char → Int) : Nat → Nat → Int → List Char → Int × List Char
  | 0, _, first, s => (first, s)
  | fuel + 1, rank, first, s =>
    let s := skipSpaces s
    match operators.find? fun entry => entry.1.toList.isPrefixOf s with
    | none => (first, s)
    | some (operator, level) =>
      if level < rank then (first, s)
      else
        let (second, rest) := readExpression look fuel (level + 1) (s.drop operator.length)
        readOperators look fuel rank (operate operator first second) rest

end

/-- The value of an expression. -/
def calculate (look : List Char → Int) (s : List Char) : Int :=
  (readExpression look (4 * s.length + 4) 0 s).1

end StyleMonitor.Shell
