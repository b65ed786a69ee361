import ThreadedForth.Machine.State

/-!
# Decompiling

A definition can be shown as source again.  Memory does not record where a definition ends, so its
body is taken to end at the first return that is followed by the end of memory or by the start of
another word.  Inline operands are shown with the word that they belong to.

First the body is scanned for the addresses at which its items begin, and then each item is shown.
The scan never looks for an item behind `HERE`, but an operand can be the last cell that there is,
and then the address of the next item cannot be calculated.
-/

namespace ThreadedForth

/-- The address after another one; the last one has none. -/
def Address.next (address : Address) : Except Cause Address :=
  if address = Int64.maxValue then .error .addressOverflow else .ok (address + 1)

/-- Whether a call of that word is followed by an operand. -/
def Kernel.takesOperand (kernel : Kernel) (target : Address) : Bool :=
  target = kernel.lit ∨ target = kernel.branch ∨ target = kernel.zeroBranch

namespace State

/-- The word that begins at an address, by the name it was given first. -/
def nameOf (s : State) (address : Address) : String :=
  (s.dictionary.nameAt? address).getD (Cell.display (.reference address))

/-- A value as source. -/
def source (base : Nat) : Value → String
  | .int n => Numeral.write base n
  | .char c => String.ofList [Char.ofNat 39, c, Char.ofNat 39]
  | .string text => "S\" " ++ text ++ "\""
  | .float x => Value.display (.float x)

/-! ## The items of a body -/

/-- Whether the return at a cursor is the end of the body. -/
def closesBody (s : State) (kernel : Kernel) (here cursor : Int) : Bool :=
  s.memory.get (Int64.ofInt cursor) = .reference kernel.exit &&
    (here ≤ cursor + 1 || (s.dictionary.nameAt? (Int64.ofInt (cursor + 1))).isSome)

/-- How many cells the item at a cursor takes. -/
def itemSize (s : State) (kernel : Kernel) (cursor : Int) : Nat :=
  match s.memory.get (Int64.ofInt cursor) with
  | .reference target => if kernel.takesOperand target then 2 else 1
  | _ => 1

theorem itemSize_pos (s : State) (kernel : Kernel) (cursor : Int) :
    0 < s.itemSize kernel cursor := by
  rw [itemSize]
  split
  · split <;> decide
  · decide

/-- Where the items of the body begin from a cursor on, added to those found before. -/
def bodyItems (s : State) (kernel : Kernel) (here cursor : Int) (found : Array Int) :
    Except Cause (Array Int) :=
  if cursor < here ∧ s.closesBody kernel here cursor = false then
    if cursor + s.itemSize kernel cursor ≤ Int64.maxValue.toInt then
      s.bodyItems kernel here (cursor + s.itemSize kernel cursor) (found.push cursor)
    else .error .addressOverflow
  else .ok found
  termination_by (here - cursor).toNat
  decreasing_by
    have hpositive := s.itemSize_pos kernel cursor
    omega

/-- The item at a cursor as source. -/
def itemText (s : State) (kernel : Kernel) (base : Nat) (cursor : Int) : String :=
  match s.memory.get (Int64.ofInt cursor) with
  | .reference target =>
    if target = kernel.lit then
      match s.memory.get (Int64.ofInt (cursor + 1)) with
      | .literal v => source base v
      | cell => "LIT " ++ cell.display
    else if target = kernel.branch ∨ target = kernel.zeroBranch then
      let offset := match s.distanceAt (Int64.ofInt (cursor + 1)) with
        | .ok offset => offset
        | .error _ => 0
      s!"{s.nameOf target}({offset})"
    else s.nameOf target
  | .literal v => source base v
  | cell => cell.display

/-! ## Entries -/

/-- A definition as source, with its items at those places. -/
def definitionSource (s : State) (kernel : Kernel) (base : Nat) (entry : Entry)
    (items : List Int) : String :=
  let suffix := if entry.immediate then " IMMEDIATE" else ""
  " ".intercalate ([": " ++ entry.name] ++ items.map (s.itemText kernel base) ++ [";" ++ suffix])

/-- An entry as source, or a description of it if it is no definition. -/
def decompile (s : State) (entry : Entry) : Except Cause String := do
  let kernel ← s.kernel
  let base ← s.base
  let here ← s.here
  let suffix := if entry.immediate then " IMMEDIATE" else ""
  match s.memory.get entry.address with
  | .native id =>
    if id = kernel.docol then
      let first ← entry.address.next
      let items ← s.bodyItems kernel here.toInt first.toInt #[]
      return s.definitionSource kernel base entry items.toList
    else if id = kernel.dovar then return "CREATE " ++ entry.name
    else if id = kernel.docon then
      let v ← s.literalAt (← entry.address.next)
      return source base v ++ " CONSTANT " ++ entry.name
    else return entry.name ++ " is a primitive" ++ suffix
  | cell => return entry.name ++ " is data: " ++ cell.display

end State

end ThreadedForth
