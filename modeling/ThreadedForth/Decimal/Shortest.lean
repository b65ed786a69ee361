import ThreadedForth.Binary64

/-!
# The shortest decimal that reads back

Among the decimals that are read as a given float, one with the fewest digits is chosen, and of
those the one nearest to the float's exact value; if two are equally near, the larger magnitude.

For a number of digits the float's value has two neighbours on the grid of decimals with that many
digits, and if any point of the grid reads back then so does one of the two.  So it is enough to
test the neighbours for 1, 2, … digits; 17 digits always suffice.
-/

namespace ThreadedForth

/-- The magnitude `coefficient · 10 ^ exponent`. -/
structure Decimal where
  coefficient : Nat
  exponent : Int
  deriving DecidableEq, Repr

namespace Decimal

/-- The count of decimal digits; zero has one. -/
def digitCount (n : Nat) : Nat := (Nat.toDigits 10 n).length

/-- The exponent of the leading decimal digit of the positive fraction `p / q`. -/
def leadingExponent (p q : Nat) : Int :=
  if q ≤ p then (digitCount (p / q) : Int) - 1
  else - (digitCount ((q - 1) / p) : Int)

/-- The decimals that read back as one float: those between `low / scale` and `high / scale`, the
ends included if `closed`; the float itself is `value / scale`. -/
structure Interval where
  low : Nat
  value : Nat
  high : Nat
  scale : Nat
  closed : Bool

/-- Halfway to the neighbours on either side, in quarters of a unit in the last place.  The ends
are rounded to the even mantissa. -/
def Interval.ofParts (mantissa : Nat) (exponent : Int) : Interval :=
  let below :=
    if mantissa = Binary64.leastNormalMantissa ∧ exponent ≠ Binary64.minExponent then 1 else 2
  let up := 1 <<< (exponent - 2).toNat
  { low := (4 * mantissa - below) * up
    value := 4 * mantissa * up
    high := (4 * mantissa + 2) * up
    scale := 1 <<< (2 - exponent).toNat
    closed := mantissa % 2 == 0 }

/-- The better of the two neighbours of the float on the grid with spacing `10 ^ exponent`, if one
of them reads back. -/
def Interval.neighbour? (interval : Interval) (exponent : Int) : Option Decimal :=
  -- One point of the grid is `step / unit` and the float is `value / unit`.
  let step := interval.scale * Nat.pow 10 exponent.toNat
  let unit := Nat.pow 10 (-exponent).toNat
  let value := interval.value * unit
  let below := value / step
  let above := below + 1
  let readsBack (point : Nat) : Bool :=
    let position := point * step
    let low := interval.low * unit
    let high := interval.high * unit
    if interval.closed then decide (low ≤ position ∧ position ≤ high)
    else decide (low < position ∧ position < high)
  let aboveIsNearer := decide (above * step - value ≤ value - below * step)
  match readsBack below, readsBack above with
  | true, true => some ⟨if aboveIsNearer then above else below, exponent⟩
  | true, false => some ⟨below, exponent⟩
  | false, true => some ⟨above, exponent⟩
  | false, false => none

/-- Moves a last digit zero into the exponent. -/
def dropZero (d : Decimal) : Decimal :=
  if d.coefficient % 10 = 0 then ⟨d.coefficient / 10, d.exponent + 1⟩ else d

/-- The shortest decimal that reads back as the float of magnitude `mantissa · 2 ^ exponent`. -/
def shortest (mantissa : Nat) (exponent : Int) : Decimal :=
  if mantissa = 0 then ⟨0, 0⟩
  else
    let interval := Interval.ofParts mantissa exponent
    let leading := leadingExponent interval.value interval.scale
    let found := (List.range 17).findSome? fun (more : Nat) => interval.neighbour? (leading - more)
    -- Only the first grid can answer with a zero at the end, where nine and a bit becomes ten.
    (found.getD ⟨0, 0⟩).dropZero

end Decimal

end ThreadedForth
