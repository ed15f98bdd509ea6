import StyleMonitor.Decimal
import StyleMonitor.Json.Node
import StyleMonitor.Text.Fields
import StyleMonitor.Toml.Tree

/-!
The scalars of TOML that are written without quotes: truth values, numbers, dates and times.
-/

namespace StyleMonitor.Toml

/-- The value of a digit of a base up to sixteen. -/
def digitValue? (base : Nat) (c : Char) : Option Nat :=
  (Json.hexValue? c).filter (· < base)

/-- A row of digits, of which two neighbours may have one underscore between them. -/
def digits? (base : Nat) (s : List Char) : Option (List Nat) :=
  (Text.fields '_' s).foldr
    (fun piece rest => do
      let values ← piece.mapM (digitValue? base)
      if values.isEmpty then none else return values ++ (← rest))
    (some [])

/-- The number that a row of digits stands for. -/
def ofDigits (base : Nat) (digits : List Nat) : Nat :=
  digits.foldl (fun high low => high * base + low) 0

/-- A text without its sign, and whether the sign is a minus. -/
def unsigned : List Char → Bool × List Char
  | '+' :: rest => (false, rest)
  | '-' :: rest => (true, rest)
  | s => (false, s)

/-- Cuts at the first character of a kind: what stands before it, and what stands after it. -/
def cutAt (mark : Char → Bool) (s : List Char) : List Char × Option (List Char) :=
  match s.dropWhile (!mark ·) with
  | [] => (s, none)
  | _ :: after => (s.takeWhile (!mark ·), some after)

/-- A decimal number, after its sign. -/
def decimal? (negative : Bool) (s : List Char) : Option Scalar := do
  let (mantissa, power) := cutAt (fun c => c = 'e' || c = 'E') s
  let (whole, fraction) := cutAt (· = '.') mantissa
  let wholeDigits ← digits? 10 whole
  if wholeDigits.head? = some 0 ∧ 1 < wholeDigits.length then none
  match fraction, power with
  | none, none =>
    let size : Int := ofDigits 10 wholeDigits
    return .integer (if negative then -size else size)
  | _, _ =>
    let fractionDigits ← (fraction.map (digits? 10)).getD (some [])
    let (down, powerText) := unsigned (power.getD ['0'])
    let power : Int := ofDigits 10 (← digits? 10 powerText)
    let scale := (if down then -power else power) - fractionDigits.length
    return .float (Decimal.overflows (ofDigits 10 (wholeDigits ++ fractionDigits)) scale)

/-- A number. -/
def number? : List Char → Option Scalar
  | '0' :: 'x' :: rest => (digits? 16 rest).map fun digits => .integer (ofDigits 16 digits)
  | '0' :: 'o' :: rest => (digits? 8 rest).map fun digits => .integer (ofDigits 8 digits)
  | '0' :: 'b' :: rest => (digits? 2 rest).map fun digits => .integer (ofDigits 2 digits)
  | s =>
    let (negative, rest) := unsigned s
    if rest = "inf".toList ∨ rest = "nan".toList then some (.float false)
    else decimal? negative rest

/-- A number of exactly this many decimal digits, and what follows. -/
def fixed? (width : Nat) (s : List Char) : Option (Nat × List Char) :=
  if (s.take width).length = width then
    (Decimal.value? (s.take width)).map fun number => (number, s.drop width)
  else none

/-- The days of a month. -/
def daysIn (year month : Nat) : Nat :=
  if month = 2 then
    if year % 4 = 0 ∧ (year % 100 ≠ 0 ∨ year % 400 = 0) then 29 else 28
  else if month = 4 ∨ month = 6 ∨ month = 9 ∨ month = 11 then 30
  else 31

/-- A text after a character that has to come first. -/
def after? (c : Char) : List Char → Option (List Char)
  | [] => none
  | d :: rest => if d = c then some rest else none

/-- What follows a date. -/
def afterDate? (s : List Char) : Option (List Char) := do
  let (year, s) ← fixed? 4 s
  let (month, s) ← fixed? 2 (← after? '-' s)
  let (day, s) ← fixed? 2 (← after? '-' s)
  if 1 ≤ month ∧ month ≤ 12 ∧ 1 ≤ day ∧ day ≤ daysIn year month then some s else none

/-- What follows the seconds of a time, which may be missing. -/
def afterSeconds? (s : List Char) : Option (List Char) :=
  match after? ':' s with
  | none => some s
  | some s => do
    let (second, s) ← fixed? 2 s
    if 60 < second then none
    match after? '.' s with
    | none => some s
    | some s =>
      if (s.takeWhile Decimal.isDigit).isEmpty then none else some (s.dropWhile Decimal.isDigit)

/-- What follows a time of day. -/
def afterTime? (s : List Char) : Option (List Char) := do
  let (hour, s) ← fixed? 2 s
  let (minute, s) ← fixed? 2 (← after? ':' s)
  if hour ≤ 23 ∧ minute ≤ 59 then afterSeconds? s else none

/-- Whether a text is an offset from universal time, or nothing. -/
def isOffset : List Char → Bool
  | [] => true
  | ['Z'] => true
  | ['z'] => true
  | c :: rest =>
    (c = '+' || c = '-') && (do
      let (hour, s) ← fixed? 2 rest
      let (minute, s) ← fixed? 2 (← after? ':' s)
      return hour ≤ 23 && minute ≤ 59 && s.isEmpty).getD false

/-- Whether a text is a date, a time, or a date and a time. -/
def isMoment (s : List Char) : Bool :=
  match afterDate? s with
  | none => afterTime? s = some []
  | some [] => true
  | some (c :: rest) =>
    (c = 'T' || c = 't' || c = ' ') && ((afterTime? rest).map isOffset).getD false

/-- Whether a character can be part of a scalar without quotes. -/
def isScalarChar (c : Char) : Bool :=
  ('a' ≤ c && c ≤ 'z') || ('A' ≤ c && c ≤ 'Z') || Decimal.isDigit c ||
    c = '+' || c = '-' || c = '_' || c = '.' || c = ':'

/-- The spelling of a scalar without quotes, and what follows. A blank between a date and a time
is part of it. -/
def spanScalar (s : List Char) : List Char × List Char :=
  let first := s.takeWhile isScalarChar
  match s.dropWhile isScalarChar with
  | ' ' :: c :: rest =>
    if Decimal.isDigit c ∧ afterDate? first = some [] then
      (first ++ ' ' :: (c :: rest).takeWhile isScalarChar, (c :: rest).dropWhile isScalarChar)
    else (first, ' ' :: c :: rest)
  | rest => (first, rest)

/-- The scalar of a spelling. -/
def ofSpelling? (s : List Char) : Option Scalar :=
  if s = "true".toList then some (.boolean true)
  else if s = "false".toList then some (.boolean false)
  else if isMoment s then some .moment
  else number? s

end StyleMonitor.Toml
