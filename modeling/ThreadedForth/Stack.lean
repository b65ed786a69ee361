import ThreadedForth.Value

/-!
# Stacks

The machine has two stacks of values, one for operands and one for call links.  They differ only in
the name that a failure gives them, so the kind is an index of the type.

Values are pushed and popped at the top, but positions are counted from the bottom, which has the
position 0.  The pointer of a stack is the position of its top, and setting the pointer drops
everything above that position.
-/

namespace ThreadedForth

structure Stack (kind : StackKind) where
  /-- The values, top first. -/
  items : List Value := []
  deriving DecidableEq, Inhabited

namespace Stack

variable {kind : StackKind}

def size (stack : Stack kind) : Nat := stack.items.length

def isEmpty (stack : Stack kind) : Bool := stack.items.isEmpty

/-- The values, bottom first. -/
def toList (stack : Stack kind) : List Value := stack.items.reverse

def push (stack : Stack kind) (v : Value) : Stack kind := ⟨v :: stack.items⟩

/-- The top, and what is below it. -/
def pop (stack : Stack kind) : Except Cause (Value × Stack kind) :=
  match stack.items with
  | v :: rest => .ok (v, ⟨rest⟩)
  | [] => .error (.stackUnderflow kind)

/-- The top. -/
def peek (stack : Stack kind) : Except Cause Value :=
  match stack.items with
  | v :: _ => .ok v
  | [] => .error (.stackUnderflow kind)

/-- The value below `n` others. -/
def pick (stack : Stack kind) (n : Nat) : Except Cause Value :=
  match stack.items[n]? with
  | some v => .ok v
  | none => .error (.stackUnderflow kind)

/-- Fails unless at least `n` values are there. -/
def require (stack : Stack kind) (n : Nat) : Except Cause Unit :=
  if n ≤ stack.size then .ok () else .error (.stackUnderflow kind)

/-! ## Positions from the bottom -/

/-- The position of the top. -/
def pointer (stack : Stack kind) : Except Cause Nat :=
  if stack.size = 0 then .error (.stackUnderflow kind) else .ok (stack.size - 1)

/-- The complaint about a position that holds nothing.  It shows the greatest integer in place of
any position beyond it. -/
def outside (stack : Stack kind) (position : Nat) : Cause :=
  .invalidStackPointer kind (Int64.ofInt (min position Int64.maxValue.toInt)) stack.size

/-- The value at a position. -/
def item (stack : Stack kind) (position : Nat) : Except Cause Value :=
  if position < stack.size then stack.pick (stack.size - 1 - position)
  else .error (stack.outside position)

/-- Drops everything above a position. -/
def setPointer (stack : Stack kind) (position : Nat) : Except Cause (Stack kind) :=
  if position < stack.size then .ok ⟨stack.items.drop (stack.size - 1 - position)⟩
  else .error (stack.outside position)

/-! ## In terms of the values, bottom first -/

@[simp] theorem toList_push (stack : Stack kind) (v : Value) :
    (stack.push v).toList = stack.toList ++ [v] := by
  simp [push, toList]

@[simp] theorem length_toList (stack : Stack kind) : stack.toList.length = stack.size := by
  simp [toList, size]

@[simp] theorem pop_push (stack : Stack kind) (v : Value) :
    (stack.push v).pop = .ok (v, stack) := rfl

/-- What is popped was pushed last. -/
theorem pop_eq_ok_iff {stack rest : Stack kind} {v : Value} :
    stack.pop = .ok (v, rest) ↔ stack = rest.push v := by
  rcases stack with ⟨_ | ⟨top, items⟩⟩ <;> rcases rest with ⟨rest⟩ <;>
    simp [pop, push]

/-- A position is an index from the bottom. -/
theorem item_eq_ok_iff {stack : Stack kind} {position : Nat} {v : Value} :
    stack.item position = .ok v ↔ stack.toList[position]? = some v := by
  by_cases h : position < stack.items.length
  · have hlt : stack.items.length - 1 - position < stack.items.length := by omega
    simp [item, pick, size, toList, h, List.getElem?_eq_getElem hlt]
  · simp [item, size, toList, h]

/-- Setting the pointer keeps the values up to a position. -/
theorem toList_setPointer {stack rest : Stack kind} {position : Nat}
    (h : stack.setPointer position = .ok rest) :
    rest.toList = stack.toList.take (position + 1) := by
  by_cases hp : position < stack.items.length
  · simp only [setPointer, size, hp, if_true, Except.ok.injEq] at h
    subst h
    simp only [toList, List.take_reverse]
    congr 2
    omega
  · simp [setPointer, size, hp] at h

end Stack

end ThreadedForth
