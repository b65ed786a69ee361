import ThreadedForth.Decimal.Shortest

/-!
# Floats as text

A float is written with the digits of its shortest decimal, either positionally or with an
exponent.  Where positional notation ends, and whether a whole number keeps its point, is the
choice of a `Style`.
-/

namespace ThreadedForth.Decimal

/-- How floats are laid out. -/
structure Style where
  /-- Magnitudes below `10 ^ low` or from `10 ^ high` on are written with an exponent, where the
  pair is `(low, high)`; without a pair, none are. -/
  positional : Option (Int × Int)
  /-- A positional whole number ends in `.0`. -/
  keepPoint : Bool
  deriving DecidableEq, Repr

/-- The digits of the coefficient. -/
def digits (d : Decimal) : List Char := Nat.toDigits 10 d.coefficient

/-- The exponent of the leading digit. -/
def leading (d : Decimal) : Int := d.exponent + d.digits.length - 1

/-- Every digit in its place; zeros fill the places up to the point. -/
def positional (keepPoint : Bool) (d : Decimal) : List Char :=
  let digits := d.digits
  if 0 ≤ d.exponent then
    digits ++ List.replicate d.exponent.toNat '0' ++ (if keepPoint then ['.', '0'] else [])
  else
    let places := (-d.exponent).toNat
    if places < digits.length then
      digits.take (digits.length - places) ++ '.' :: digits.drop (digits.length - places)
    else '0' :: '.' :: List.replicate (places - digits.length) '0' ++ digits

/-- One digit before the point, and the exponent of that digit. -/
def scientific (d : Decimal) : List Char :=
  let mantissa := match d.digits with
    | first :: second :: rest => first :: '.' :: second :: rest
    | digits => digits
  mantissa ++ 'e' :: (toString d.leading).toList

/-- Lays out a magnitude. -/
def format (style : Style) (d : Decimal) : List Char :=
  match style.positional with
  | some (low, high) =>
    if d.coefficient = 0 ∨ (low ≤ d.leading ∧ d.leading < high) then
      d.positional style.keepPoint
    else d.scientific
  | none => d.positional style.keepPoint

/-- The text of a float.  A number that is none has no sign. -/
def write (style : Style) (x : Binary64) : String :=
  let signed (negative : Bool) (text : List Char) : String :=
    String.ofList (if negative then '-' :: text else text)
  match x.view with
  | .nan => "NaN"
  | .infinite negative => signed negative ['i', 'n', 'f']
  | .finite negative mantissa exponent =>
    signed negative ((shortest mantissa exponent).format style)

end ThreadedForth.Decimal
