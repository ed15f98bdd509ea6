/-!
Decimal numerals: one or more of the digits 0 to 9, most significant first. Leading zeros are
allowed and change nothing.
-/

namespace StyleMonitor.Decimal

/-- A decimal digit. -/
def isDigit (c : Char) : Bool :=
  '0' ≤ c && c ≤ '9'

/-- The value of a digit. -/
def digitValue (c : Char) : Nat :=
  c.toNat - '0'.toNat

/-- The value of a row of digits that follows digits of value `high`. -/
def valueFrom (high : Nat) : List Char → Nat
  | [] => high
  | c :: rest => valueFrom (10 * high + digitValue c) rest

/-- The value of a numeral, if the text is one. -/
def value? (s : List Char) : Option Nat :=
  if s ≠ [] ∧ s.all isDigit then some (valueFrom 0 s) else none

/-- The value of a numeral that may have a plus sign in front, if the text is one. -/
def signedValue? : List Char → Option Nat
  | '+' :: rest => value? rest
  | s => value? s

/-- The numeral of a number, without leading zeros. -/
def text (n : Nat) : String :=
  Nat.repr n

/-- The numeral of an integer, with a minus sign in front when it is negative. -/
def intText (n : Int) : String :=
  if n < 0 then "-" ++ text n.natAbs else text n.natAbs

/-- A numeral with at least this many digits, filled with zeros in front. -/
def padded (width n : Nat) : String :=
  String.ofList (List.replicate (width - (text n).length) '0') ++ text n

/-- Whether `digits * 10 ^ scale` is too large for a floating-point number of 64 bits, so large
that it is nearer to 2 ^ 1024 than to the largest of them. A number of at most 308 digits before
its point never is, one of more than 309 always. -/
def overflows (digits : Nat) (scale : Int) : Bool :=
  let limit := Nat.pow 2 1024 - Nat.pow 2 970
  let size : Int := (text digits).length + scale
  if digits = 0 ∨ size ≤ 308 then false
  else if 309 < size then true
  else if scale < 0 then limit ≤ digits / Nat.pow 10 scale.natAbs
  else limit ≤ digits * Nat.pow 10 scale.natAbs

end StyleMonitor.Decimal
