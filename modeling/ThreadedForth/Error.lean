/-!
# Failures

Everything that can go wrong while threaded code runs is a `Cause`: a constructor per kind of
failure, carrying the data that the failure is about and no text.  The wording lives in one
place, `Cause.message`.  An `Error` is a cause together with the place where it struck, if that
place is known: the word, the address, and the words that were waiting for it to return.
-/

namespace ThreadedForth

/-- An address of the flat memory.  Addresses are ordinary signed 64-bit integers: programs push
them, store them and calculate with them, and the calculation wraps. -/
abbrev Address := Int64

/-- The two stacks of the machine. -/
inductive StackKind where
  /-- The stack of operands. -/
  | parameter
  /-- The stack of call links. -/
  | returns
  deriving DecidableEq, Repr, Inhabited

def StackKind.name : StackKind → String
  | .parameter => "parameter"
  | .returns => "return"

/-- The kinds of value a word may ask for.  `number` covers integers and floats. -/
inductive Kind where
  | int
  | float
  | number
  | char
  | string
  deriving DecidableEq, Repr, Inhabited

def Kind.name : Kind → String
  | .int => "int"
  | .float => "float"
  | .number => "number"
  | .char => "char"
  | .string => "string"

/-! ## Causes -/

/-- Why a word, a cell or an input operation failed. -/
inductive Cause where
  /-- Something was to be taken from a stack that does not hold it. -/
  | stackUnderflow (stack : StackKind)
  /-- An index outside the live part of a stack of `size` items. -/
  | invalidStackPointer (stack : StackKind) (index : Int64) (size : Nat)
  /-- A cell that holds nothing that can be executed or read. -/
  | unknownCell (address : Address)
  /-- A return while no call link is saved. -/
  | unbalancedReturn
  /-- A return while no threaded code is being executed. -/
  | invalidDepth
  /-- A name that had to be in the dictionary. -/
  | unknownName (name : String)
  /-- A token of the source that is neither a word nor a literal. -/
  | undefinedWord (token : String)
  /-- An operand of the wrong kind. -/
  | kindMismatch (expected actual : Kind)
  | divisionByZero
  /-- A cell that had to hold the inline operand of the word before it. -/
  | literalExpected (address : Address)
  /-- `BASE` holds no radix. -/
  | invalidBase (base : Int64)
  /-- A word was asked to repeat something more often than it is willing to. -/
  | countOutOfRange (word : String) (count limit : Int64)
  /-- A word of the compiler was used outside a definition. -/
  | compileOnly (word : String)
  /-- An address was to be calculated that does not exist. -/
  | addressOverflow
  /-- The source ended inside a word that reads on. -/
  | endOfInput
  /-- The input or the output refused. -/
  | io (reason : String)
  /-- The machine was asked for something it is not set up to do. -/
  | internal (reason : String)
  deriving DecidableEq, Repr, Inhabited

/-- The text of a failure, as a report shows it. -/
def Cause.message : Cause → String
  | .stackUnderflow stack => stack.name ++ " stack underflow"
  | .invalidStackPointer stack index size =>
    s!"invalid {stack.name} stack pointer: {index} (depth {size})"
  | .unknownCell address => s!"unknown cell at address {address}"
  | .unbalancedReturn => "unbalanced return: return stack is empty"
  | .invalidDepth => "invalid threaded-code depth: exit without matching entry"
  | .unknownName name => "dictionary lookup failed: " ++ name
  | .undefinedWord token => "undefined word: " ++ token
  | .kindMismatch expected actual =>
    s!"type mismatch: expected {expected.name}, got {actual.name}"
  | .divisionByZero => "division by zero"
  | .literalExpected address => s!"expected literal cell at address {address}"
  | .invalidBase base => s!"invalid numeric base: {base}"
  | .countOutOfRange word count limit =>
    s!"{word} count out of range: {count} (limit {limit})"
  | .compileOnly word => word ++ " is compile-only"
  | .addressOverflow => "attempt to add with overflow"
  | .endOfInput => "unexpected end of input"
  | .io reason => "i/o error: " ++ reason
  | .internal reason => "internal error: " ++ reason

/-! ## Places -/

/-- Where a failure struck. -/
structure Context where
  /-- The word being executed. -/
  word : Option String := none
  /-- The address of the cell being executed. -/
  address : Option Address := none
  /-- The words that wait for it to return, innermost first. -/
  frames : List String := []
  deriving DecidableEq, Repr, Inhabited

/-- One line for the word and its address, then one line for each waiting word.  The first line is
empty when neither is known. -/
def Context.describe (context : Context) : String :=
  let place := match context.word, context.address with
    | some word, some address => s!"in {word} at {address}"
    | some word, none => "in " ++ word
    | none, some address => s!"at {address}"
    | none, none => ""
  context.frames.foldl (fun text frame => text ++ "\n  called from " ++ frame) place

/-- A failure and, once it is known, the place where it struck. -/
structure Error where
  cause : Cause
  context : Option Context := none
  deriving DecidableEq, Repr, Inhabited

instance : Coe Cause Error := ⟨fun cause => { cause }⟩

/-- A context that is already there is kept: the innermost place wins. -/
def Error.locate (error : Error) (context : Context) : Error :=
  { error with context := some (error.context.getD context) }

/-- The report of a failure that was recovered from: one line with its text, and its place below
it when other words were waiting. -/
def Error.report (error : Error) : String :=
  let place := match error.context with
    | some context => if context.frames.isEmpty then "" else s!"  {context.describe}\n"
    | none => ""
  s!"error: {error.cause.message}\n" ++ place

end ThreadedForth
