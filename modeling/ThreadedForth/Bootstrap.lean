import ThreadedForth.Machine
import ThreadedForth.Vocabulary

/-!
# Setting up a machine

A machine is set up once.  Memory then begins like this, where `L` is the address after the last
primitive:

```text
0, 1, 2, 3      HERE, STATE, BASE, LATEST
4, 6, 8, …      a primitive, and after each the trampoline that returns from it
L, L+1, L+2     INTERPRET, BRANCH and the distance -2: the outer loop
L+3             HERE
```

Kernel words come first and the words of each library after them.  The words that the machine itself
refers to are looked up by their names as soon as the kernel is installed, so a library may use the
names of kernel words again.

Setting up may fail, and then the machine is left as far as it got.
-/

namespace ThreadedForth

/-- Changes a machine while it is set up, and may fail. -/
abbrev Installation := EStateM Cause Machine

/-- A failure of a look-up or of the table is a failure of setting up. -/
instance : MonadLift (Except Cause) Installation where
  monadLift
    | .ok a => pure a
    | .error cause => throw cause

namespace Installation

/-- Changes the state of the machine. -/
def modifyState (change : State → State) : Installation Unit :=
  modify fun m => { m with state := change m.state }

/-- Adds a primitive to the table and returns its number. -/
def register (primitive : Primitive) : Installation Nat := do
  let (id, primitives) ← PrimitiveTable.register (← get).primitives primitive
  modify fun m => { m with primitives }
  return id

/-- Adds one word at an address: its primitive and the trampoline in memory, and its name in the
dictionary.  The trampoline itself is in the table already. -/
def install (trampolineId : Nat) (address : Address) (word : Primitive) : Installation Unit := do
  let id ← if word.name = trampolineName then pure trampolineId else register word
  modifyState fun s => { s with
    memory := (s.memory.set address (.native id)).set (address + 1) (.native trampolineId)
    dictionary := s.dictionary.define word.name address word.immediate word.hidden }

/-- Adds words one after the other, the first of them at an address, and returns the address after
the last one. -/
def installAll (trampolineId : Nat) : Address → List Primitive → Installation Address
  | next, [] => return next
  | next, word :: words => do
    install trampolineId next word
    installAll trampolineId (next + 2) words

/-- What was looked up by a name has to be there. -/
def require {α : Type} (name : String) : Option α → Installation α
  | some found => return found
  | none => throw (.unknownName name)

/-- The number of the primitive that has a name. -/
def primitiveOf (name : String) : Installation Nat := do
  require name (PrimitiveTable.find? (← get).primitives name)

/-- The address of the word that a name means. -/
def addressOf (name : String) : Installation Address := do
  let entry ← require name ((← get).state.dictionary.find? name)
  return entry.address

/-- Looks up what the machine refers to.  Where the outer loop begins is not known yet. -/
def findKernel : Installation Kernel := do
  return {
    docol := ← primitiveOf "DOCOL"
    dovar := ← primitiveOf "(DOVAR)"
    docon := ← primitiveOf "(DOCON)"
    lit := ← addressOf "LIT"
    exit := ← addressOf "EXIT"
    branch := ← addressOf "BRANCH"
    zeroBranch := ← addressOf "0BRANCH"
    type := ← addressOf "TYPE"
    interpret := ← addressOf "INTERPRET"
    quit := ← addressOf "QUIT"
    outerLoop := 0 }

/-- Writes the outer loop, and has the machine begin at `QUIT`.  The latest word lies right below
the outer loop. -/
def finish (found : Kernel) (outerLoop : Address) : Installation Unit := do
  let kernel := { found with outerLoop }
  modifyState fun s => { s with
    memory := ((s.memory.set outerLoop (.reference kernel.interpret)).set
      (outerLoop + 1) (.reference kernel.branch)).set (outerLoop + 2) (.literal (.int (-2))) }
  modifyState (·.writeVariable .here (outerLoop + 3))
  modifyState (·.writeVariable .latest (outerLoop - 2))
  modifyState ({ · with kernel? := some kernel, ip := kernel.quit, nip := 0, depth := 0 })

/-- Writes the variables and adds the trampoline, whose number it returns. -/
def begin : Installation Nat := do
  if (← get).state.kernel?.isSome then throw (.internal "machine is already bootstrapped")
  Variable.all.forM fun v => modifyState (·.writeVariable v v.initial)
  register (← require trampolineName (kernelWords.find? (·.name = trampolineName)))

/-- Sets the machine up with the kernel and some libraries. -/
def setUp (libraries : List (List Primitive)) : Installation Unit := do
  let trampolineId ← begin
  let next ← installAll trampolineId Variable.past kernelWords
  let kernel ← findKernel
  let outerLoop ← installAll trampolineId next libraries.flatten
  finish kernel outerLoop

end Installation

/-- Sets a machine up with the kernel and some libraries, or leaves it as far as that got. -/
def Machine.bootstrap (libraries : List (List Primitive)) (m : Machine) :
    EStateM.Result Cause Machine Unit :=
  Installation.setUp libraries m

end ThreadedForth
