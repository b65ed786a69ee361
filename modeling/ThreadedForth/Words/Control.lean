import ThreadedForth.Machine.Primitive

/-!
# Words that direct execution

A word that is called through a reference finds the address after that reference in `nip`.  Words
with an inline operand read it there and move `nip` past it; branches set `nip` and `ip` to the
same target.
-/

namespace ThreadedForth.Words

open Effect

/-- `LIT` pushes the literal that follows it. -/
def lit : Effect Unit := do
  let operand := (← get).nip
  push (← examine (·.literalAt operand))
  modify ({ · with nip := operand + 1 })

/-- Goes on at an address in the caller. -/
def branchTo (target : Address) : Effect Unit := modify ({ · with nip := target, ip := target })

/-- `BRANCH` adds the distance that follows it to the address of that distance. -/
def branch : Effect Unit := do
  let operand := (← get).nip
  let offset ← examine (·.distanceAt operand)
  branchTo (operand + offset)

/-- `0BRANCH` branches if the popped value is false, and otherwise skips the distance. -/
def zeroBranch : Effect Unit := do
  let operand := (← get).nip
  let offset ← examine (·.distanceAt operand)
  let flag ← pop
  branchTo (if flag.isTruthy then operand + 1 else operand + offset)

/-- `EXECUTE` goes on at the popped address. -/
def execute : Effect Unit := do jump (← takeInt)

/-- A variable of the compiler pushes its address. -/
def pushAddress (v : Variable) : Effect Unit := push (.int v.address)

end ThreadedForth.Words
