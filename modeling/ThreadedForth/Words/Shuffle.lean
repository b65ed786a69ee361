import ThreadedForth.Words.StackAccess

/-!
# Words that rearrange the parameter stack
-/

namespace ThreadedForth.Words

open Effect

/-- Replaces the topmost `n` values by a selection from them; the values are numbered from the
lowest one, and the selection is listed from the bottom up. -/
def rearrange (n : Nat) (selection : List Nat) : Effect Unit := do
  examine (·.parameters.require n)
  modify fun s =>
    let taken := (s.parameters.items.take n).reverse
    let selected := selection.filterMap (taken[·]?)
    { s with parameters := ⟨selected.reverse ++ s.parameters.items.drop n⟩ }

/-- `DROP` ( a -- ) -/
def drop : Effect Unit := discard pop

/-- `DUP` ( a -- a a ) -/
def dup : Effect Unit := do push (← peek)

/-- `OVER` ( a b -- a b a ) -/
def copySecond : Effect Unit := do push (← pick 1)

/-- `?DUP` ( a -- a a | a ) doubles a value that is true. -/
def questionDup : Effect Unit := do
  let top ← peek
  if top.isTruthy then push top

/-- `PICK` ( u -- x ) copies the value below `u` others. -/
def pickWord : Effect Unit := do
  let u ← requestedParameter
  let v ← pick (u + 1)
  discard pop
  push v

/-- `DEPTH` ( -- n ) -/
def depth : Effect Unit := do push (count (← get).parameters.size)

end ThreadedForth.Words
