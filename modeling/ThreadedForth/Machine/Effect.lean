import ThreadedForth.Machine.State

/-!
# Effects

What a word does is an effect on the state.  An effect that fails leaves behind whatever it had
already done: nothing is undone, so a word that should have no effect when it fails has to look
before it takes.

This module holds the effects that words are made of.  Looking at the state is not among them:
`examine` lifts any fallible reading of the state.
-/

namespace ThreadedForth

/-- Something that changes the state and may fail. -/
abbrev Effect := EStateM Error State

/-- A failure of a reading or a storage operation is a failure of the effect that makes it. -/
instance : MonadLift (Except Cause) Effect where
  monadLift
    | .ok a => pure a
    | .error cause => throw { cause }

namespace Effect

variable {α : Type}

def fail (cause : Cause) : Effect α := throw { cause }

/-- Reads something off the state. -/
def examine (reading : State → Except Cause α) : Effect α := do reading (← get)

/-! ## Stacks -/

def push (v : Value) : Effect Unit :=
  modify fun s => { s with parameters := s.parameters.push v }

def pop : Effect Value := do
  let (v, parameters) ← (← get).parameters.pop
  modify ({ · with parameters })
  return v

def pushReturn (v : Value) : Effect Unit :=
  modify fun s => { s with returns := s.returns.push v }

def popReturn : Effect Value := do
  let (v, returns) ← (← get).returns.pop
  modify ({ · with returns })
  return v

def peek : Effect Value := examine (·.parameters.peek)

/-- The value below `n` others. -/
def pick (n : Nat) : Effect Value := examine (·.parameters.pick n)

def topInt : Effect Int64 := examine State.topInt

/-- Pops an integer; a value of another kind stays. -/
def takeInt : Effect Int64 := do
  let n ← topInt
  discard pop
  return n

/-! ## Memory -/

def store (address : Address) (v : Value) : Effect Unit :=
  modify fun s => { s with memory := s.memory.set address (.literal v) }

def writeVariable (v : Variable) (n : Int64) : Effect Unit := modify (·.writeVariable v n)

def setMode (mode : Mode) : Effect Unit := modify (·.setMode mode)

/-- Writes a cell at `HERE`, moves `HERE` on to the next address, and returns the address of the
cell.  The last address is never used, since there is no next one. -/
def compile (cell : Cell) : Effect Address := do
  let here ← examine State.here
  if here = Int64.maxValue then fail (.internal "address space exhausted")
  modify fun s => { s with memory := s.memory.set here cell }
  writeVariable .here (here + 1)
  return here

/-- Compiles code that pushes a value. -/
def compilePush (v : Value) : Effect Unit := do
  let kernel ← examine State.kernel
  discard <| compile (.reference kernel.lit)
  discard <| compile (.literal v)

/-! ## Control -/

def jump (target : Address) : Effect Unit := modify ({ · with ip := target })

/-- Goes on with the next cell of the caller. -/
def resume : Effect Unit := modify fun s => { s with ip := s.nip }

/-- Enters the body of a definition: the way back is saved. -/
def enter : Effect Unit :=
  modify fun s => { s with returns := s.returns.push (.int s.nip), depth := s.depth + 1 }

/-- Leaves the body of a definition by the way back that was saved. -/
def exit : Effect Unit := do
  let s ← get
  match s.returns.items with
  | [] => fail .unbalancedReturn
  | link :: rest =>
    if s.depth = 0 then fail .invalidDepth
    let target ← link.toInt
    set { s with returns := ⟨rest⟩, depth := s.depth - 1, nip := target, ip := target }

/-- Abandons all calls and any definition in progress, and goes on with the next token. -/
def restart : Effect Unit := do
  let kernel ← examine State.kernel
  modify fun s => { s.setMode .interpret with returns := {}, depth := 1, ip := kernel.outerLoop }

def requestHalt (halt : Halt) : Effect Unit := modify ({ · with halt? := some halt })

/-! ## Input and output -/

def readChar : Effect (Option Char) :=
  modifyGet fun s => let (c, input) := s.input.next; (c, { s with input })

/-- The next token, if there is one. -/
def readToken? : Effect (Option String) :=
  modifyGet fun s => let (token, input) := s.input.readToken; (token, { s with input })

/-- The next token, which has to be there. -/
def readToken : Effect String := do
  match ← readToken? with
  | some token => return token
  | none => fail .endOfInput

/-- The text before a delimiter, if the delimiter comes. -/
def readText? (delimiter : Char) : Effect (Option String) :=
  modifyGet fun s =>
    let (text, input) := s.input.readText delimiter
    (text, { s with input })

def dropLine : Effect Unit := modify fun s => { s with input := s.input.dropLine }

def write (text : String) : Effect Unit := do
  let output ← (← get).output.write text
  modify ({ · with output })

/-! ## What effects do to the state -/

theorem examine_ok {reading : State → Except Cause α} {s : State} {a : α}
    (h : reading s = .ok a) : examine reading s = .ok a s := by
  change (monadLift (reading s) : Effect α) s = _
  rw [h]
  rfl

/-- A reading that fails leaves the state alone. -/
theorem examine_error {reading : State → Except Cause α} {s : State} {cause : Cause}
    (h : reading s = .error cause) : examine reading s = .error { cause } s := by
  change (monadLift (reading s) : Effect α) s = _
  rw [h]
  rfl

theorem push_apply (v : Value) (s : State) :
    push v s = .ok () { s with parameters := s.parameters.push v } := rfl

/-- Popping fails on the empty stack only, and then changes nothing. -/
theorem pop_apply (s : State) :
    pop s = match s.parameters.pop with
      | .ok (v, parameters) => .ok v { s with parameters }
      | .error cause => .error { cause } s := by
  change EStateM.bind (monadLift s.parameters.pop)
    (fun popped => do modify ({ · with parameters := popped.2 }); return popped.1) s = _
  rcases s.parameters.pop with cause | ⟨v, parameters⟩ <;> rfl

/-- Compiling writes one cell at `HERE` and moves `HERE` on. -/
theorem compile_ok {cell : Cell} {s : State} {here : Address} (h : s.here = .ok here)
    (hmax : here ≠ Int64.maxValue) :
    compile cell s =
      .ok here ({ s with memory := s.memory.set here cell }.writeVariable .here (here + 1)) := by
  simp only [compile, bind, EStateM.bind, examine_ok h, if_neg hmax]
  rfl

end Effect

end ThreadedForth
