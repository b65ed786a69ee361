import ThreadedForth.Error
import ThreadedForth.Binary64

/-!
# The numeric tower

Arithmetic works on integers and floats.  Two integers are combined as integers, modulo `2 ^ 64`;
as soon as one operand is a float, the other is lifted to the nearest float first.
-/

namespace ThreadedForth

inductive Number where
  | int (n : Int64)
  | float (x : Binary64)
  deriving DecidableEq, Inhabited

/-- The two levels of the tower. -/
inductive Rank where
  | int
  | float
  deriving DecidableEq, Repr

def Rank.name : Rank → String
  | .int => "Int"
  | .float => "Float"

namespace Number

def rank : Number → Rank
  | int _ => .int
  | float _ => .float

/-- The float nearest to a number. -/
def toFloat : Number → Binary64
  | int n => Binary64.ofInt n.toInt
  | float x => x

/-- Raises a number to a rank.  A number is never lowered. -/
def lift (rank : Rank) : Number → Number
  | int n => match rank with
    | .int => int n
    | .float => float (int n).toFloat
  | float x => float x

/-- Raises both operands to the higher of their ranks. -/
def promote (a b : Number) : Number × Number :=
  let rank := if a.rank = .float then .float else b.rank
  (a.lift rank, b.lift rank)

/-- Combines two numbers at the higher of their ranks. -/
def combine (onInts : Int64 → Int64 → Int64) (onFloats : Binary64 → Binary64 → Binary64)
    (a b : Number) : Number :=
  match promote a b with
  | (int m, int n) => int (onInts m n)
  | (x, y) => float (onFloats x.toFloat y.toFloat)

def plus : Number → Number → Number := combine (· + ·) (· + ·)

def minus : Number → Number → Number := combine (· - ·) (· - ·)

def times : Number → Number → Number := combine (· * ·) (· * ·)

/-- Both float zeros count. -/
def isZero : Number → Bool
  | int n => n == 0
  | float x => x.isZero

/-- The quotient.  Integers are divided towards zero; the one quotient that is out of range, of the
least integer by -1, wraps to its dividend. -/
def divide? (a b : Number) : Except Cause Number :=
  if b.isZero then .error .divisionByZero else .ok (combine (· / ·) (· / ·) a b)

/-- What truncated division leaves, with the sign of the dividend. -/
def remainder? (a b : Number) : Except Cause Number :=
  if b.isZero then .error .divisionByZero else .ok (combine (· % ·) Binary64.remainder a b)

/-- The negated number; the least integer is its own negative. -/
def negate : Number → Number
  | int n => int (-n)
  | float x => float (-x)

/-- The magnitude; the least integer stays as it is. -/
def abs : Number → Number
  | int n => int (if n < 0 then -n else n)
  | float x => float x.abs

/-- The order of two numbers.  A float that is no number has no order with anything. -/
def compare? (a b : Number) : Option Ordering :=
  match promote a b with
  | (int m, int n) => some (compare m n)
  | (x, y) => x.toFloat.compare? y.toFloat

end Number

end ThreadedForth
