/-!
# Integers in a radix

Integers are read and written in the radix that `BASE` holds, from 2 to 36.  A token may override
the radix with a mark after its sign: `$` for 16, `#` for 10 and `%` for 2.  Letters stand for the
digits from 10 on, in either case when reading and in upper case when writing.

A number is read from the left in 64-bit integers, and a step that would leave them fails.  No
accepted token ever wraps, then, and none whose value is a 64-bit integer is refused.
-/

namespace ThreadedForth.Numeral

/-- The radixes that have enough digit characters. -/
def IsRadix (base : Nat) : Prop := 2 ≤ base ∧ base ≤ 36

instance (base : Nat) : Decidable (IsRadix base) := inferInstanceAs (Decidable (_ ∧ _))

/-! ## Digits -/

/-- The value of an ASCII letter or digit. -/
def digitValue? (c : Char) : Option Nat :=
  if '0' ≤ c ∧ c ≤ '9' then some (c.toNat - '0'.toNat)
  else if 'a' ≤ c ∧ c ≤ 'z' then some (c.toNat - 'a'.toNat + 10)
  else if 'A' ≤ c ∧ c ≤ 'Z' then some (c.toNat - 'A'.toNat + 10)
  else none

/-- The value of a digit in a radix. -/
def digit? (radix : Nat) (c : Char) : Option Nat :=
  (digitValue? c).filter (· < radix)

/-- The digit with a value below 36. -/
def digitChar (value : Nat) : Char :=
  if value < 10 then Char.ofNat ('0'.toNat + value) else Char.ofNat ('A'.toNat + (value - 10))

/-- The digits of a natural number, most significant first, without leading zeros. -/
def digits (radix n : Nat) : List Char :=
  if _h : radix < 2 ∨ n < radix then [digitChar n]
  else digits radix (n / radix) ++ [digitChar (n % radix)]
  termination_by n
  decreasing_by exact Nat.div_lt_self (by omega) (by omega)

/-! ## Reading -/

/-- Takes the sign off a token: whether it is negative, and what follows the sign. -/
def splitSign : List Char → Bool × List Char
  | '-' :: rest => (true, rest)
  | '+' :: rest => (false, rest)
  | rest => (false, rest)

/-- Takes the radix mark off an unsigned token: the radix to read it in, and its digits. -/
def splitRadix (base : Nat) : List Char → Nat × List Char
  | '$' :: rest => (16, rest)
  | '#' :: rest => (10, rest)
  | '%' :: rest => (2, rest)
  | rest => (base, rest)

/-- The 64-bit integer with a given value, if there is one. -/
def ofInt? (value : Int) : Option Int64 :=
  if Int64.minValue.toInt ≤ value ∧ value ≤ Int64.maxValue.toInt then some (Int64.ofInt value)
  else none

/-- What one more digit makes of a number, unless the number or its product with the radix is no
64-bit integer.  Negative numbers are counted down, since the least of them has no opposite. -/
def extend? (negative : Bool) (radix : Nat) (value : Int64) (digit : Nat) : Option Int64 := do
  let shifted ← ofInt? (value.toInt * radix)
  ofInt? (if negative then shifted.toInt - digit else shifted.toInt + digit)

/-- The number that a run of digits stands for after a sign, most significant digit first.  It is
read one digit after the other, and does not leave the 64-bit integers on the way. -/
def readDigits? (negative : Bool) (radix : Nat) (digits : List Char) : Option Int64 :=
  digits.foldlM (fun value c => digit? radix c >>= extend? negative radix value) 0

/-- Reads a token as an integer.  It has an optional sign, an optional radix mark, and at least one
digit; a base that is no radix matters only if there is no mark. -/
def read? (base : Nat) (token : String) : Option Int64 := do
  let (negative, unsigned) := splitSign token.toList
  let (radix, digits) := splitRadix base unsigned
  guard (IsRadix radix ∧ digits ≠ [])
  readDigits? negative radix digits

/-! ## Writing -/

/-- Writes an integer in a base; a base that is no radix stands for ten. -/
def write (base : Nat) (n : Int64) : String :=
  let radix := if IsRadix base then base else 10
  let magnitude := digits radix n.toInt.natAbs
  String.ofList (if n < 0 then '-' :: magnitude else magnitude)

end ThreadedForth.Numeral
