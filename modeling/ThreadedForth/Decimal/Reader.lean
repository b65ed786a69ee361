import ThreadedForth.Decimal.Shortest

/-!
# Reading floats

A float is written as digits with an optional point among, before or after them, and an optional
exponent; at least one digit stands outside the exponent.  It is read as the float nearest to its
exact value, with ties to the even mantissa.
-/

namespace ThreadedForth.Decimal

/-- The value of a run of decimal digits. -/
def digitsValue (digits : List Char) : Nat :=
  digits.foldl (fun value c => value * 10 + (c.toNat - '0'.toNat)) 0

/-- The value of an optionally signed run of at least one digit. -/
def readInteger? (text : List Char) : Option Int :=
  let (negative, digits) := match text with
    | '-' :: rest => (true, rest)
    | '+' :: rest => (false, rest)
    | rest => (false, rest)
  if digits ≠ [] ∧ digits.all Char.isDigit then
    let magnitude : Int := digitsValue digits
    some (if negative then -magnitude else magnitude)
  else none

/-- The magnitude that an unsigned text writes. -/
def ofText? (text : List Char) : Option Decimal := do
  let whole := text.takeWhile Char.isDigit
  let afterWhole := text.dropWhile Char.isDigit
  let (fraction, afterFraction) := match afterWhole with
    | '.' :: rest => (rest.takeWhile Char.isDigit, rest.dropWhile Char.isDigit)
    | rest => ([], rest)
  guard (whole ≠ [] ∨ fraction ≠ [])
  let exponent ← match afterFraction with
    | [] => some 0
    | 'e' :: rest | 'E' :: rest => readInteger? rest
    | _ => none
  return ⟨digitsValue (whole ++ fraction), exponent - fraction.length⟩

/-- The float nearest to a magnitude.  A magnitude from `10 ^ 311` on is infinite and one below
`10 ^ -330` is zero, whatever its digits are. -/
def toFloat (d : Decimal) : Binary64 :=
  let top := d.exponent + digitCount d.coefficient
  if d.coefficient = 0 ∨ top < -330 then .zero
  else if 311 < top then .infinity
  else .ofFloat (Float.ofScientific d.coefficient (decide (d.exponent < 0)) d.exponent.natAbs)

/-- Reads a float.  Infinity and the number that is none may be written by name, in either case. -/
def readFloat? (text : List Char) : Option Binary64 := do
  let (negative, unsigned) := match text with
    | '-' :: rest => (true, rest)
    | '+' :: rest => (false, rest)
    | rest => (false, rest)
  let magnitude ←
    match String.ofList (unsigned.map Char.toLower) with
    | "inf" | "infinity" => some Binary64.infinity
    | "nan" => some Binary64.nan
    | _ => toFloat <$> ofText? unsigned
  return if negative then -magnitude else magnitude

end ThreadedForth.Decimal
