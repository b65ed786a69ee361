import ThreadedForth.Memory
import ThreadedForth.Dictionary
import ThreadedForth.Stack
import ThreadedForth.Input
import ThreadedForth.Output
import ThreadedForth.Numeral

/-!
# The state of the machine

Threaded code is run with two registers.  `ip` is the address of the cell to be executed and `nip`
is where a word that was called returns to.  Calls that are still active have saved their `nip` on
the return stack; `depth` counts how deep in threaded code the machine is, and at depth 0 a call
saves nothing.

The four lowest cells are the variables of the compiler, which programs may read and write like any
other cell, so every use of one checks what it holds.
-/

namespace ThreadedForth

/-- Why the machine came to rest. -/
inductive Halt where
  /-- The program asked for it. -/
  | bye
  /-- There is no more source. -/
  | endOfInput
  /-- The machine has made as many steps as it was allowed. -/
  | stepLimit
  deriving DecidableEq, Repr, Inhabited

def Halt.name : Halt → String
  | .bye => "bye"
  | .endOfInput => "end of input"
  | .stepLimit => "step limit"

/-! ## The variables of the compiler -/

inductive Variable where
  /-- The address that the next compiled cell gets. -/
  | here
  /-- Whether a definition is being compiled. -/
  | state
  /-- The radix of integers. -/
  | base
  /-- The address of the latest definition. -/
  | latest
  deriving DecidableEq, Repr

namespace Variable

/-- All variables in the order of their addresses. -/
def all : List Variable := [here, state, base, latest]

def address : Variable → Address
  | here => 0
  | state => 1
  | base => 2
  | latest => 3

/-- What a variable holds before anything is defined. -/
def initial : Variable → Int64
  | base => 10
  | here | state | latest => 0

/-- The first address after the variables. -/
def past : Address := 4

end Variable

/-- What is done with a token. -/
inductive Mode where
  /-- It is executed. -/
  | interpret
  /-- It is appended to the definition in progress. -/
  | compile
  deriving DecidableEq, Repr

namespace Mode

/-- `STATE` is a truth value. -/
def ofState (state : Int64) : Mode := if state = 0 then interpret else compile

def toState : Mode → Int64
  | interpret => 0
  | compile => 1

end Mode

/-! ## What the machine knows of its kernel -/

/-- The primitives and words that the machine itself refers to.  They are recorded once, so
redefining their names later changes nothing here. -/
structure Kernel where
  /-- The primitive that begins the code of every definition. -/
  docol : Nat
  /-- The primitive that begins every created word. -/
  dovar : Nat
  /-- The primitive that begins every constant. -/
  docon : Nat
  lit : Address
  exit : Address
  branch : Address
  zeroBranch : Address
  type : Address
  interpret : Address
  quit : Address
  /-- The first of the three cells that interpret one token after another. -/
  outerLoop : Address
  deriving DecidableEq, Repr, Inhabited

/-! ## The state -/

structure State where
  ip : Address := 0
  nip : Address := 0
  depth : Nat := 0
  memory : Memory := {}
  dictionary : Dictionary := {}
  parameters : Stack .parameter := {}
  returns : Stack .returns := {}
  input : Input := .ofString ""
  output : Output := {}
  /-- Known once the machine is set up. -/
  kernel? : Option Kernel := none
  /-- Set by a word that wants the machine to halt after the current step. -/
  halt? : Option Halt := none
  deriving Inhabited

namespace State

def kernel (s : State) : Except Cause Kernel :=
  match s.kernel? with
  | some kernel => .ok kernel
  | none => .error (.internal "machine is not bootstrapped")

/-! ### Operands -/

/-- The top of the parameter stack as an integer. -/
def topInt (s : State) : Except Cause Int64 := s.parameters.peek >>= Value.toInt

/-! ### Memory -/

/-- The content of a cell as data. -/
def fetch (s : State) (address : Address) : Except Cause Value :=
  match (s.memory.get address).toValue? with
  | some v => .ok v
  | none => .error (.unknownCell address)

/-- The literal that a cell holds as the operand of the word before it. -/
def literalAt (s : State) (address : Address) : Except Cause Value :=
  match (s.memory.get address).asLiteral? with
  | some v => .ok v
  | none => .error (.literalExpected address)

/-- The distance that a cell holds as the operand of a branch. -/
def distanceAt (s : State) (address : Address) : Except Cause Int64 :=
  s.literalAt address >>= Value.toInt

/-! ### Variables -/

/-- The integer that a variable holds. -/
def readVariable (s : State) (v : Variable) : Except Cause Int64 :=
  match s.memory.get v.address with
  | .literal held => held.toInt
  | _ => .error (.unknownCell v.address)

def writeVariable (s : State) (v : Variable) (n : Int64) : State :=
  { s with memory := s.memory.set v.address (.literal (.int n)) }

def here (s : State) : Except Cause Address := s.readVariable .here

def latest (s : State) : Except Cause Address := s.readVariable .latest

def mode (s : State) : Except Cause Mode := Mode.ofState <$> s.readVariable .state

def setMode (s : State) (mode : Mode) : State := s.writeVariable .state mode.toState

/-- The radix that `BASE` holds. -/
def base (s : State) : Except Cause Nat := do
  let base ← s.readVariable .base
  if Numeral.IsRadix base.toNatClampNeg then .ok base.toNatClampNeg else .error (.invalidBase base)

/-! ### Places -/

/-- The cells that interpret one token after another are not part of any word. -/
def isOuterLoop (s : State) (address : Address) : Bool :=
  s.kernel?.any fun kernel =>
    decide (kernel.outerLoop ≤ address ∧ address < kernel.outerLoop + 3)

/-- The words that wait for the current one to return, innermost first: those that `nip` and the
saved call links lie in. -/
def backtrace (s : State) : List String :=
  let current := if s.depth = 0 then [] else [s.nip]
  let links := current ++ s.returns.items.filterMap Value.asInt?
  (links.filter (! s.isOuterLoop ·)).filterMap fun link =>
    (s.dictionary.containing? link).map (·.2)

/-- The place of a failure at an address. -/
def contextAt (s : State) (address : Address) : Context where
  word := (s.dictionary.containing? address).map (·.2)
  address := address
  frames := s.backtrace

end State

end ThreadedForth
