import ThreadedForth.Number
import ThreadedForth.Decimal.Text
import ThreadedForth.Text.Quoted

/-!
# Values

A value is what the stacks and the literal cells hold: an integer, a float, a character or a
string.  Addresses and truth values are integers.  Values are compared by what they are: two floats
are the same value exactly if they have the same bits.
-/

namespace ThreadedForth

inductive Value where
  | int (n : Int64)
  | float (x : Binary64)
  | char (c : Char)
  | string (s : String)
  deriving DecidableEq, Inhabited

namespace Value

/-- The canonical truth values are all ones and all zeros. -/
def flag (b : Bool) : Value := int (if b then -1 else 0)

def kind : Value → Kind
  | int _ => .int
  | float _ => .float
  | char _ => .char
  | string _ => .string

/-- Only a numeric zero is false. -/
def isTruthy : Value → Bool
  | int n => n != 0
  | float x => !x.isZero
  | char _ | string _ => true

/-! ## Views

Each view asks whether a value can serve as an operand of one kind. -/

def asInt? : Value → Option Int64
  | int n => some n
  | _ => none

def asFloat? : Value → Option Binary64
  | float x => some x
  | _ => none

/-- The character with a code point, if the code point belongs to one. -/
def charOfCode? (code : Int) : Option Char :=
  if 0 ≤ code ∧ code.toNat.isValidChar then some (Char.ofNat code.toNat) else none

/-- An integer serves as the character with that code point. -/
def asChar? : Value → Option Char
  | char c => some c
  | int n => charOfCode? n.toInt
  | _ => none

def asString? : Value → Option String
  | string s => some s
  | _ => none

def asNumber? : Value → Option Number
  | int n => some (.int n)
  | float x => some (.float x)
  | _ => none

def ofNumber : Number → Value
  | .int n => int n
  | .float x => float x

/-- The operand a word asked for, or the complaint that the value is of another kind. -/
def expect {α : Type} (expected : Kind) (view : Value → Option α) (v : Value) :
    Except Cause α :=
  match view v with
  | some operand => .ok operand
  | none => .error (.kindMismatch expected v.kind)

def toInt : Value → Except Cause Int64 := expect .int asInt?

def toChar : Value → Except Cause Char := expect .char asChar?

def toNumber : Value → Except Cause Number := expect .number asNumber?

/-! ## Text -/

/-- Printed floats show that they are floats: whole ones keep their point, and only the very large
and the very small ones have an exponent. -/
def printedFloat : Decimal.Style := ⟨some (-4, 16), true⟩

/-- A dump names the kind beside the float, so the float is written out in full. -/
def dumpedFloat : Decimal.Style := ⟨none, false⟩

/-- The text a program prints. -/
def display : Value → String
  | int n => toString n
  | float x => Decimal.write printedFloat x
  | char c => c.toString
  | string s => s

/-- The text in a dump of memory, which tells the kinds apart. -/
def dump : Value → String
  | int n => s!"Int({n})"
  | float x => "Float(" ++ Decimal.write dumpedFloat x ++ ")"
  | char c => "Char(" ++ Text.quoted (Char.ofNat 39) [c] ++ ")"
  | string s => "Str(" ++ Text.quoted '"' s.toList ++ ")"

end Value

end ThreadedForth
