import ThreadedForth.Machine.Primitive

/-!
# Words that read and write memory
-/

namespace ThreadedForth.Words

open Effect

/-- `@` ( address -- x ) -/
def fetch : Effect Unit := do
  let address ← topInt
  let v ← examine (·.fetch address)
  discard pop
  push v

/-- `!` ( x address -- ) -/
def store : Effect Unit := do
  examine (·.parameters.require 2)
  let address ← takeInt
  Effect.store address (← pop)

/-- `,` ( x -- ) compiles a literal cell. -/
def comma : Effect Unit := do discard <| compile (.literal (← pop))

/-- `COMPILE,` ( address -- ) compiles a call. -/
def compileComma : Effect Unit := do discard <| compile (.reference (← takeInt))

/-- The most cells that `ALLOT` reserves or gives back at once. -/
def allotLimit : Int64 := 1048576

/-- The sum of two integers, or the end of the range that it lies beyond. -/
def clampedAdd (a b : Int64) : Int64 :=
  Int64.ofInt (max Int64.minValue.toInt (min Int64.maxValue.toInt (a.toInt + b.toInt)))

/-- Compiles a cell a number of times. -/
def compileTimes (cell : Cell) : Nat → Effect Unit
  | 0 => pure ()
  | n + 1 => do
    discard <| compile cell
    compileTimes cell n

/-- `ALLOT` ( n -- ) reserves `n` cells and clears them, or moves `HERE` back and clears nothing. -/
def allot : Effect Unit := do
  let n ← topInt
  if allotLimit.toInt < n.toInt.natAbs then fail (.countOutOfRange "ALLOT" n allotLimit)
  let here ← examine State.here
  discard pop
  if n < 0 then writeVariable .here (clampedAdd here n)
  else compileTimes (.literal (.int 0)) n.toNatClampNeg

end ThreadedForth.Words
