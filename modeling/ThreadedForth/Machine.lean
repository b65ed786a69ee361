import ThreadedForth.Machine.Primitive

/-!
# Running the machine

A step executes the cell at `ip`.  A native cell runs its primitive; a reference goes on at its
target and, inside threaded code, notes in `nip` where the target is to return to; a literal is
skipped; and the empty cell cannot be executed.  After a failed step `ip` is back at the cell that
failed.

Running makes steps until the machine halts.  No failure ends a run: it is recorded, reported if
the machine is set up to, the rest of the source line is dropped, and execution goes on at `QUIT`,
which returns to the outer loop.  A program may run forever, so a run is given fuel, and running out
of it is told apart from every way of halting.
-/

namespace ThreadedForth

/-- Memory and dictionary at one moment. -/
structure Image where
  memory : Memory
  dictionary : Dictionary
  deriving Inhabited

structure Machine where
  state : State := {}
  primitives : PrimitiveTable := #[]
  /-- Failures that are recovered from are printed. -/
  report : Bool := true
  /-- How many steps one run may make. -/
  stepLimit : Option Nat := none
  /-- The failures recovered from so far. -/
  recovered : Array Error := #[]
  /-- Whether somebody waits to be told of the next halt; each wait ends with one halt. -/
  watched : Bool := false
  /-- The halts told so far. -/
  told : Array Halt := #[]
  deriving Inhabited

/-! ## One step -/

namespace Effect

/-- The end of a step that did not fail: a halt that was asked for is taken note of. -/
def finish (s : State) : EStateM.Result Error State (Option Halt) :=
  .ok s.halt? { s with halt? := none }

/-- Executes one cell. -/
def step (table : PrimitiveTable) : Effect (Option Halt) := fun s =>
  let address := s.ip
  let fault (error : Error) (s : State) : EStateM.Result Error State (Option Halt) :=
    .error (error.locate (s.contextAt address)) s
  match s.memory.get address with
  | .empty => fault (Cause.unknownCell address) s
  | .native id =>
    match table.lookup id with
    | .error cause => fault cause s
    | .ok primitive =>
      match primitive.effect s with
      | .error error s => fault error { s with ip := address }
      | .ok () s =>
        match primitive.control with
        | .advance => finish { s with ip := address + 1 }
        | .owned => finish s
  | .reference target =>
    finish { s with nip := if s.depth = 0 then s.nip else address + 1, ip := target }
  | .literal _ => finish { s with ip := address + 1 }

/-- Executes a number of cells.  A halt does not stop this; the result is the last one, or else the
one `before`. -/
def stepTimes (table : PrimitiveTable) (before : Option Halt) : Nat → Effect (Option Halt)
  | 0 => pure before
  | n + 1 => do
    let halt? ← step table
    stepTimes table (halt? <|> before) n

end Effect

/-! ## Recovering -/

/-- Prints the report of a failure; nothing more can be done if that fails too. -/
def State.print (s : State) (text : String) : State :=
  match s.output.write text with
  | .ok output => { s with output }
  | .error _ => s

/-- Goes back to `QUIT` after a failure. -/
def State.recover (report : Bool) (quit : Address) (error : Error) (s : State) : State :=
  let s := if report then s.print error.report else s
  { s with input := s.input.dropLine, ip := quit }

namespace Machine

/-! ## Running -/

/-- One step of a run: a failure is recovered from and recorded. -/
@[inline] def advance (table : PrimitiveTable) (report : Bool) (quit : Address) (s : State)
    (recovered : Array Error) : Option Halt × State × Array Error :=
  match Effect.step table s with
  | .ok halt? s => (halt?, s, recovered)
  | .error error s => (none, s.recover report quit error, recovered.push error)

/-- Makes steps until the machine halts or the allowed number of steps is used up, and collects the
failures on the way; `none` if the fuel does not last that long. -/
def loop (table : PrimitiveTable) (report : Bool) (quit : Address) :
    Nat → Option Nat → State → Array Error → Option (Halt × State × Array Error)
  | _, some 0, s, recovered => some (.stepLimit, s, recovered)
  | 0, _, _, _ => none
  | fuel + 1, allowance, s, recovered =>
    match advance table report quit s recovered with
    | (none, s, recovered) => loop table report quit fuel (allowance.map (· - 1)) s recovered
    | (some halt, s, recovered) => some (halt, s, recovered)

/-- Tells of a halt, if somebody waits for it. -/
def tell (m : Machine) (halt : Halt) : Machine :=
  if m.watched then { m with watched := false, told := m.told.push halt } else m

/-- Runs the machine from where it is.  It has to be set up for that. -/
def run (fuel : Nat) (m : Machine) : Option (Except Cause Halt × Machine) :=
  match m.state.kernel with
  | .error cause => some (.error cause, m)
  | .ok kernel =>
    let ⟨state, primitives, report, stepLimit, recovered, watched, told⟩ := m
    let state := { state with halt? := none }
    match loop primitives report kernel.quit fuel stepLimit state recovered with
    | none => none
    | some (halt, state, recovered) =>
      let m : Machine := ⟨state, primitives, report, stepLimit, recovered, watched, told⟩
      some (.ok halt, m.tell halt)

/-- More steps than any computer makes. -/
def ampleFuel : Nat := 1000000000000000000

/-- Replaces the input. -/
def withInput (m : Machine) (input : Input) : Machine := { m with state := { m.state with input } }

/-- Replaces the output. -/
def withOutput (m : Machine) (output : Output) : Machine :=
  { m with state := { m.state with output } }

/-- Runs the machine on a text. -/
def runSource (fuel : Nat) (source : String) (m : Machine) :
    Option (Except Cause Halt × Machine) :=
  (m.withInput (.ofString source)).run fuel

/-- Lets an effect act on the machine from outside. -/
def perform {α : Type} (m : Machine) (effect : Effect α) : Except Error α × Machine :=
  match effect m.state with
  | .ok a state => (.ok a, { m with state })
  | .error error state => (.error error, { m with state })

/-! ## Snapshots -/

def snapshot (m : Machine) : Image := ⟨m.state.memory, m.state.dictionary⟩

/-- Goes back to an earlier memory and dictionary.  The stacks are empty then, and the next run
begins at `QUIT`. -/
def restore (m : Machine) (image : Image) : Except Cause Machine := do
  let kernel ← m.state.kernel
  return { m with state := { m.state with
    memory := image.memory
    dictionary := image.dictionary
    parameters := {}
    returns := {}
    depth := 0
    nip := 0
    ip := kernel.quit
    halt? := none } }

end Machine

end ThreadedForth
