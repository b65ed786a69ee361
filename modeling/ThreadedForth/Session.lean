import ThreadedForth.Bootstrap

/-!
# Sessions

A session is a machine with the kernel, the library and, unless it is left out, the prelude.  It
keeps the image that it began with, so that it can be reset.  Text can be evaluated in a session
for what it prints, or loaded so that it prints to the session's own output.
-/

namespace ThreadedForth

/-- How much is logged. -/
inductive LogLevel where
  | off
  | error
  | warn
  | info
  | debug
  | trace
  deriving DecidableEq, Repr, Inhabited

namespace LogLevel

def all : List LogLevel := [off, error, warn, info, debug, trace]

def name : LogLevel → String
  | off => "off"
  | error => "error"
  | warn => "warn"
  | info => "info"
  | debug => "debug"
  | trace => "trace"

/-- A natural number with an optional plus sign. -/
def readNumber? (text : List Char) : Option Nat :=
  let digits := match text with
    | '+' :: rest => rest
    | rest => rest
  if digits ≠ [] ∧ digits.all Char.isDigit then some (Decimal.digitsValue digits) else none

/-- A level is given by its number, from 0 for `off`, or by its name in either case.  The empty text
stands for `error`. -/
def ofText? (text : String) : Option LogLevel :=
  match (readNumber? text.toList).bind (all[·]?) with
  | some level => some level
  | none =>
    if text.isEmpty then some error else all.find? fun level => level.name == text.toLower

end LogLevel

/-- How a session is set up. -/
structure Settings where
  /-- The conversation begins with a banner. -/
  banner : Bool := true
  prompt : String := "tc> "
  /-- The control structures are available. -/
  prelude : Bool := true
  /-- How many lines the history keeps. -/
  historySize : Nat := 1000
  logLevel : LogLevel := .warn
  /-- Failures that are recovered from are printed. -/
  report : Bool := true
  /-- How many steps one run may make. -/
  stepLimit : Option Nat := none
  deriving DecidableEq, Inhabited

/-- A history keeps at least one line. -/
def Settings.withHistory (settings : Settings) (size : Nat) : Settings :=
  { settings with historySize := max size 1 }

structure Session where
  machine : Machine
  /-- The memory and dictionary that the session began with. -/
  initialImage : Image
  settings : Settings
  deriving Inhabited

namespace Session

/-- A session over a machine that has just been set up.  What the machine printed until now is not
shown. -/
def ofMachine (settings : Settings) (m : Machine) : Session :=
  let machine := m.withOutput {}
  ⟨machine, machine.snapshot, settings⟩

/-- The first failure that a run recovered from stands for the run; if there is none, its result
does. -/
def firstFailure {α : Type} (recovered : Array Error) (result : α) : Except Error α :=
  match recovered[0]? with
  | some error => .error error
  | none => .ok result

/-- Runs a text and returns why the machine halted, or the first failure.  The failures are taken
out of the machine's record. -/
def runText (fuel : Nat) (source : String) (m : Machine) :
    Option (Except Error Halt × Machine) := do
  let (result, m) ← { m with recovered := #[] }.runSource fuel source
  match result with
  | .error cause => return (.error { cause }, m)
  | .ok halt => return (firstFailure m.recovered halt, { m with recovered := #[] })

/-- Sets up a session whose dictionary has drawn an order.  It fails if the prelude does. -/
def build (fuel : Nat) (settings : Settings) (order : NameOrder := default) :
    Option (Except Error Session) :=
  let fresh : Machine := { state := { dictionary := { order } }
                           report := settings.report
                           stepLimit := settings.stepLimit }
  match fresh.bootstrap [libraryWords] with
  | .error cause _ => some (.error { cause })
  | .ok () m =>
    if settings.prelude then do
      let (result, m) ← runText fuel ThreadedForth.prelude m
      return result.map fun _ => ofMachine settings m
    else some (.ok (ofMachine settings m))

/-- Runs a text and returns what it printed, or the first failure.  What the text has defined
stays, even after a failure. -/
def eval (fuel : Nat) (source : String) (session : Session) :
    Option (Except Error String × Session) := do
  let console := session.machine.state.output
  let (result, m) ← runText fuel source (session.machine.withOutput {})
  let printed := m.state.output.text
  return (result.map fun _ => printed, { session with machine := m.withOutput console })

/-- Runs a text that was read from a file, or fails if it could not be read. -/
def load (fuel : Nat) (content : Except String String) (session : Session) :
    Option (Except Error Halt × Session) :=
  match content with
  | .error reason => some (.error { cause := .io reason }, session)
  | .ok source => do
    let (result, machine) ← runText fuel source session.machine
    return (result, { session with machine })

/-- Goes back to the memory and dictionary that the session began with. -/
def reset (session : Session) : Except Cause Session := do
  let machine ← session.machine.restore session.initialImage
  return { session with machine := { machine with recovered := #[] } }

end Session

end ThreadedForth
