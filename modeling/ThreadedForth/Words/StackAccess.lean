import ThreadedForth.Machine.Primitive

/-!
# Words for positions on the stacks

Positions count from the bottom.  A word that takes a position pops it only if it is one, so after
a failure the operand is still there.
-/

namespace ThreadedForth.Words

open Effect

/-- The position that an operand asks for on a stack of `size` values. -/
def position (stack : StackKind) (requested : Int64) (size : Nat) : Except Cause Nat :=
  if 0 ≤ requested ∧ requested.toInt < size then .ok requested.toNatClampNeg
  else .error (.invalidStackPointer stack requested size)

/-- A count as a value. -/
def count (n : Nat) : Value := .int (Int64.ofInt (min n Int64.maxValue.toInt))

/-- `DSP@` ( -- p ) -/
def parameterPointer : Effect Unit := do push (count (← examine (·.parameters.pointer)))

/-- `RSP@` ( -- p ) -/
def returnPointer : Effect Unit := do push (count (← examine (·.returns.pointer)))

/-- The position on the parameter stack that its top asks for; the top itself has none. -/
def requestedParameter : Effect Nat := do
  let requested ← topInt
  examine fun s => position .parameter requested (s.parameters.size - 1)

/-- The position on the return stack that the top of the parameter stack asks for. -/
def requestedReturn : Effect Nat := do
  let requested ← topInt
  examine fun s => position .returns requested s.returns.size

/-- `DSP!` ( p -- ) drops everything above position `p`. -/
def setParameterPointer : Effect Unit := do
  let p ← requestedParameter
  discard pop
  let parameters ← examine (·.parameters.setPointer p)
  modify ({ · with parameters })

/-- `RSP!` ( p -- ) drops everything above position `p` of the return stack. -/
def setReturnPointer : Effect Unit := do
  let p ← requestedReturn
  discard pop
  let returns ← examine (·.returns.setPointer p)
  modify ({ · with returns })

/-- `DS-ITEM` ( p -- x ) -/
def parameterItem : Effect Unit := do
  let p ← requestedParameter
  let v ← examine (·.parameters.item p)
  discard pop
  push v

/-- `RS-ITEM` ( p -- x ) -/
def returnItem : Effect Unit := do
  let p ← requestedReturn
  let v ← examine (·.returns.item p)
  discard pop
  push v

/-- `>R` ( x -- ) ( R: -- x ) -/
def toReturn : Effect Unit := do pushReturn (← pop)

/-- `R>` ( -- x ) ( R: x -- ) -/
def fromReturn : Effect Unit := do push (← popReturn)

/-- `R@` ( -- x ) ( R: x -- x ) -/
def copyReturn : Effect Unit := do push (← examine (·.returns.peek))

/-- `RDROP` ( R: x -- ) -/
def dropReturn : Effect Unit := discard popReturn

end ThreadedForth.Words
