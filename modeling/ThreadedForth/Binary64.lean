/-!
# Floats

A float is a pattern of 64 bits: a sign, an exponent and a fraction.  Two floats are the same
exactly if they have the same bits, so the two zeros differ, and so do the two signs of what is not
a number.

A finite float is a whole number of units in the last place: a sign, a mantissa `m` and an exponent
`q` with the magnitude `m · 2 ^ q`.  Everything that has to be exact about floats, which is their
decimal text and their remainder, is calculated on `m` and `q` in natural numbers.
-/

namespace ThreadedForth

structure Binary64 where
  bits : UInt64
  deriving DecidableEq, Repr, Inhabited

namespace Binary64

/-! ## Bits -/

def signBit : UInt64 := 0x8000000000000000

def isNegative (x : Binary64) : Bool := x.bits &&& signBit != 0

/-- The other sign; a number that is none has a sign too. -/
def negate (x : Binary64) : Binary64 := ⟨x.bits ^^^ signBit⟩

def abs (x : Binary64) : Binary64 := ⟨x.bits &&& ~~~signBit⟩

instance : Neg Binary64 := ⟨negate⟩

def zero : Binary64 := ⟨0⟩

def infinity : Binary64 := ⟨0x7ff0000000000000⟩

/-- The number that is none, as it is written. -/
def nan : Binary64 := ⟨0x7ff8000000000000⟩

/-- The result of an operation that has no result, such as the difference of two infinities.  It has
its sign set. -/
def invalid : Binary64 := ⟨0xfff8000000000000⟩

def isNaN (x : Binary64) : Bool := infinity.bits < x.abs.bits

/-- Both zeros count. -/
def isZero (x : Binary64) : Bool := x.abs.bits == 0

/-! ## Exact values -/

/-- What a float stands for.  Zero is finite with mantissa 0 and keeps its sign. -/
inductive View where
  | nan
  | infinite (negative : Bool)
  | finite (negative : Bool) (mantissa : Nat) (exponent : Int)
  deriving DecidableEq, Repr

/-- The smallest exponent of a finite float. -/
def minExponent : Int := -1074

/-- The mantissa of the first float after each power of two, so the predecessor of a float with this
mantissa is only half as far away as its successor. -/
def leastNormalMantissa : Nat := 0x10000000000000

/-- Reads the fields of the bit pattern: one bit of sign, eleven of exponent, 52 of mantissa. -/
def view (x : Binary64) : View :=
  let magnitude := x.abs.bits.toNat
  let scale := magnitude / leastNormalMantissa
  let fraction := magnitude % leastNormalMantissa
  if scale = 0x7ff then
    if fraction = 0 then .infinite x.isNegative else .nan
  else if scale = 0 then .finite x.isNegative fraction minExponent
  else .finite x.isNegative (leastNormalMantissa + fraction) (minExponent + (scale - 1 : Nat))

/-! ## Calculation -/

/-- The float as the hardware knows it, which has only one number that is none. -/
def toFloat (x : Binary64) : Float := Float.ofBits x.bits

def ofFloat (x : Float) : Binary64 := ⟨x.toBits⟩

/-- The float nearest to an integer. -/
def ofInt (n : Int) : Binary64 := ofFloat (Float.ofInt n)

/-- The float nearest to `m · 2 ^ q` with the given sign; it is exact whenever one equals it. -/
def ofParts (negative : Bool) (mantissa : Nat) (exponent : Int) : Binary64 :=
  let magnitude := ofFloat <| Float.ofModel <| .pack <|
    .normalize .binary64 mantissa exponent .positive
  if negative then -magnitude else magnitude

/-- Calculates with two floats.  An operand that is no number is the result, the first one if both
are none. -/
def lift (f : Binary64 → Binary64 → Binary64) (x y : Binary64) : Binary64 :=
  if x.isNaN then x
  else if y.isNaN then y
  else
    let result := f x y
    if result.isNaN then invalid else result

/-- Calculates in hardware. -/
def liftFloat (f : Float → Float → Float) : Binary64 → Binary64 → Binary64 :=
  lift fun x y => ofFloat (f x.toFloat y.toFloat)

instance : Add Binary64 := ⟨liftFloat (· + ·)⟩
instance : Sub Binary64 := ⟨liftFloat (· - ·)⟩
instance : Mul Binary64 := ⟨liftFloat (· * ·)⟩
instance : Div Binary64 := ⟨liftFloat (· / ·)⟩

/-- The remainder of truncated division: the dividend less a whole multiple of the divisor, smaller
than the divisor in magnitude and with the sign of the dividend.  It is exact: both magnitudes are
whole multiples of the unit with the smaller exponent.  There is none for an infinite dividend or a
divisor zero, and an infinite divisor leaves a finite dividend as it is. -/
def remainder : Binary64 → Binary64 → Binary64 :=
  lift fun x y =>
    match x.view, y.view with
    | .finite negative m p, .finite _ n q =>
      if n = 0 then invalid
      else
        let unit := min p q
        ofParts negative ((m <<< (p - unit).toNat) % (n <<< (q - unit).toNat)) unit
    | .finite .., .infinite _ => x
    | _, _ => invalid

/-- The order of two floats.  One that is no number has no order with anything; the two zeros are
equal. -/
def compare? (x y : Binary64) : Option Ordering :=
  let a := x.toFloat
  let b := y.toFloat
  if a < b then some .lt
  else if a == b then some .eq
  else if a > b then some .gt
  else none

end Binary64

end ThreadedForth
