import ThreadedForth.Machine.Primitive

/-!
# Words of arithmetic, comparison and logic

All of these look at their operands, lower one first, and take them only when nothing can fail any
more.
-/

namespace ThreadedForth.Words

open Effect

/-- Replaces the two topmost values. -/
def replaceTwo (results : List Value) : Effect Unit := do
  discard pop
  discard pop
  results.forM push

/-- Replaces two numbers by what a function makes of them. -/
def onNumbers (f : Number → Number → Except Cause Value) : Effect Unit := do
  let a ← (← pick 1).toNumber
  let b ← (← pick 0).toNumber
  let result ← f a b
  replaceTwo [result]

/-- Replaces a number by what a function makes of it. -/
def onNumber (f : Number → Value) : Effect Unit := do
  let n ← (← peek).toNumber
  discard pop
  push (f n)

/-! ## Arithmetic -/

/-- A word of arithmetic that cannot fail on numbers. -/
def arithmetic (f : Number → Number → Number) : Effect Unit :=
  onNumbers fun a b => .ok (.ofNumber (f a b))

/-- A word of division. -/
def division (f : Number → Number → Except Cause Number) : Effect Unit :=
  onNumbers fun a b => Value.ofNumber <$> f a b

/-- `/MOD` ( a b -- remainder quotient ) -/
def divMod : Effect Unit := do
  let a ← (← pick 1).toNumber
  let b ← (← pick 0).toNumber
  let quotient ← a.divide? b
  let remainder ← a.remainder? b
  replaceTwo [.ofNumber remainder, .ofNumber quotient]

/-- The first of two promoted numbers, unless their order is the given one. -/
def select (order : Ordering) (a b : Number) : Number :=
  let (a, b) := a.promote b
  if a.compare? b = some order then b else a

/-- `+!` ( n address -- ) adds to what a cell holds. -/
def plusStore : Effect Unit := do
  let n ← (← pick 1).toNumber
  let address ← topInt
  let held ← (← examine (·.fetch address)).toNumber
  discard pop
  discard pop
  Effect.store address (.ofNumber (held.plus n))

/-! ## Comparison -/

/-- Whether two numbers are in an order that passes a test. -/
def inOrder (test : Ordering → Bool) (a b : Number) : Bool := (a.compare? b).any test

/-- A word that compares two numbers. -/
def comparison (test : Ordering → Bool) : Effect Unit :=
  onNumbers fun a b => .ok (.flag (inOrder test a b))

/-- A word that compares a number with zero. -/
def zeroComparison (test : Ordering → Bool) : Effect Unit :=
  onNumber fun n => .flag (inOrder test n (.int 0))

/-- Numbers are equal by their magnitude, all other values by what they are. -/
def sameValue (a b : Value) : Bool :=
  match a.asNumber?, b.asNumber? with
  | some x, some y => x.compare? y == some .eq
  | _, _ => decide (a = b)

/-- A word that tests two values for equality. -/
def equality (expected : Bool) : Effect Unit := do
  let a ← pick 1
  let b ← pick 0
  replaceTwo [.flag (sameValue a b == expected)]

/-! ## Logic -/

/-- A word that combines the bits of two integers. -/
def onBits (f : Int64 → Int64 → Int64) : Effect Unit := do
  let a ← (← pick 1).toInt
  let b ← (← pick 0).toInt
  replaceTwo [.int (f a b)]

/-- `INVERT` ( n -- n ) flips all bits. -/
def invert : Effect Unit := do
  let n ← takeInt
  push (.int (~~~n))

end ThreadedForth.Words
