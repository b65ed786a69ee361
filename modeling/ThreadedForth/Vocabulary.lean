import ThreadedForth.Interpreter
import ThreadedForth.Words.Control
import ThreadedForth.Words.Store
import ThreadedForth.Words.Defining
import ThreadedForth.Words.StackAccess
import ThreadedForth.Words.Text
import ThreadedForth.Words.Inspect
import ThreadedForth.Words.Arithmetic
import ThreadedForth.Words.Shuffle
import ThreadedForth.Words.Printing

/-!
# The vocabulary

The words that every machine starts with come in three parts.  The kernel holds what threaded code
and the compiler need; the library holds words on values that could also be left out; and the
prelude is source text that defines the control structures with words of the other two.
-/

namespace ThreadedForth

open Effect Words

/-- The name of the primitive that returns from a primitive to its caller. -/
def trampolineName : String := "(NEXT)"

/-- A copy of it follows every primitive in memory. -/
def trampoline : Primitive :=
  { name := trampolineName, hidden := true, control := .owned, effect := resume }

/-- The kernel, in the order of installation. -/
def kernelWords : List Primitive := [
  -- Control
  trampoline,
  { name := "DOCOL", effect := enter },
  { name := "EXIT", control := .owned, effect := exit },
  { name := "LIT", effect := lit },
  { name := "BRANCH", control := .owned, effect := branch },
  { name := "0BRANCH", control := .owned, effect := zeroBranch },
  { name := "EXECUTE", control := .owned, effect := execute },
  { name := "INTERPRET", control := .owned, effect := interpret },
  { name := "QUIT", control := .owned, effect := restart },
  { name := "BYE", effect := requestHalt .bye },
  -- Variables
  { name := "HERE", effect := pushAddress .here },
  { name := "STATE", effect := pushAddress .state },
  { name := "BASE", effect := pushAddress .base },
  { name := "LATEST", effect := pushAddress .latest },
  -- Memory
  { name := "@", effect := fetch },
  { name := "!", effect := Words.store },
  { name := ",", effect := comma },
  { name := "COMPILE,", effect := compileComma },
  { name := "ALLOT", effect := allot },
  -- Defining and compiling
  { name := ":", effect := colon },
  { name := ";", immediate := true, effect := semicolon },
  { name := "[", immediate := true, effect := setMode .interpret },
  { name := "]", effect := setMode .compile },
  { name := "IMMEDIATE", immediate := true, effect := immediate },
  { name := "HIDDEN", effect := toggleHidden },
  { name := "HIDE", effect := hide },
  { name := "CREATE", effect := create },
  { name := "VARIABLE", effect := variableWord },
  { name := "CONSTANT", effect := constant },
  { name := "(DOVAR)", hidden := true, control := .owned, effect := dovar },
  { name := "(DOCON)", hidden := true, control := .owned, effect := docon },
  { name := "LITERAL", immediate := true, effect := literal },
  { name := "RECURSE", immediate := true, effect := recurse },
  { name := "'", effect := tick },
  { name := "[']", immediate := true, effect := bracketTick },
  { name := "FORGET", effect := forget },
  -- Stacks
  { name := "DSP@", effect := parameterPointer },
  { name := "DSP!", effect := setParameterPointer },
  { name := "RSP@", effect := returnPointer },
  { name := "RSP!", effect := setReturnPointer },
  { name := "DS-ITEM", effect := parameterItem },
  { name := "RS-ITEM", effect := returnItem },
  { name := ">R", effect := toReturn },
  { name := "R>", effect := fromReturn },
  { name := "R@", effect := copyReturn },
  { name := "RDROP", effect := dropReturn },
  -- Input and output
  { name := "KEY", effect := key },
  { name := "WORD", effect := word },
  { name := "CHAR", effect := char },
  { name := "[CHAR]", immediate := true, effect := bracketChar },
  { name := "EMIT", effect := emit },
  { name := "TYPE", effect := type },
  { name := ".\"", immediate := true, effect := dotQuote },
  { name := "S\"", immediate := true, effect := stringQuote },
  { name := "(", immediate := true, effect := comment },
  { name := "\\", immediate := true, effect := dropLine },
  -- Inspection
  { name := "WORDS", effect := words },
  { name := "SEE", effect := see }]

/-- The library, in the order of installation. -/
def libraryWords : List Primitive := [
  -- Arithmetic
  { name := "+", effect := arithmetic Number.plus },
  { name := "-", effect := arithmetic Number.minus },
  { name := "*", effect := arithmetic Number.times },
  { name := "/", effect := division Number.divide? },
  { name := "MOD", effect := division Number.remainder? },
  { name := "/MOD", effect := divMod },
  { name := "NEGATE", effect := onNumber fun n => .ofNumber n.negate },
  { name := "ABS", effect := onNumber fun n => .ofNumber n.abs },
  { name := "MIN", effect := arithmetic (select .gt) },
  { name := "MAX", effect := arithmetic (select .lt) },
  { name := "1+", effect := onNumber fun n => .ofNumber (n.plus (.int 1)) },
  { name := "1-", effect := onNumber fun n => .ofNumber (n.minus (.int 1)) },
  { name := "+!", effect := plusStore },
  -- Comparison
  { name := "=", effect := equality true },
  { name := "<>", effect := equality false },
  { name := "<", effect := comparison (· == .lt) },
  { name := ">", effect := comparison (· == .gt) },
  { name := "<=", effect := comparison (· != .gt) },
  { name := ">=", effect := comparison (· != .lt) },
  { name := "0=", effect := onNumber fun n => .flag n.isZero },
  { name := "0<", effect := zeroComparison (· == .lt) },
  { name := "0>", effect := zeroComparison (· == .gt) },
  -- Logic
  { name := "AND", effect := onBits (· &&& ·) },
  { name := "OR", effect := onBits (· ||| ·) },
  { name := "XOR", effect := onBits (· ^^^ ·) },
  { name := "INVERT", effect := invert },
  { name := "TRUE", effect := push (.flag true) },
  { name := "FALSE", effect := push (.flag false) },
  -- Stack
  { name := "DROP", effect := drop },
  { name := "DUP", effect := dup },
  { name := "SWAP", effect := rearrange 2 [1, 0] },
  { name := "OVER", effect := copySecond },
  { name := "ROT", effect := rearrange 3 [1, 2, 0] },
  { name := "-ROT", effect := rearrange 3 [2, 0, 1] },
  { name := "NIP", effect := rearrange 2 [1] },
  { name := "TUCK", effect := rearrange 2 [1, 0, 1] },
  { name := "2DUP", effect := rearrange 2 [0, 1, 0, 1] },
  { name := "2DROP", effect := rearrange 2 [] },
  { name := "2SWAP", effect := rearrange 4 [2, 3, 0, 1] },
  { name := "?DUP", effect := questionDup },
  { name := "PICK", effect := pickWord },
  { name := "DEPTH", effect := depth },
  -- Output
  { name := ".", effect := dot },
  { name := ".S", effect := dotS },
  { name := "CR", effect := write "\n" },
  { name := "SPACE", effect := write " " },
  { name := "SPACES", effect := spaces },
  { name := "BL", effect := push (.char ' ') }]

/-- The control structures and the two common radixes, as source.  A distance is relative to the
cell that holds it; a word that branches forward leaves the address of that cell on the stack until
the target is known. -/
def prelude : String := "
\\ Conditionals
: IF IMMEDIATE ['] 0BRANCH COMPILE, HERE @ 0 , ;
: THEN IMMEDIATE DUP HERE @ SWAP - SWAP ! ;
: ELSE IMMEDIATE ['] BRANCH COMPILE, HERE @ 0 , SWAP DUP HERE @ SWAP - SWAP ! ;

\\ Loops
: BEGIN IMMEDIATE HERE @ ;
: UNTIL IMMEDIATE ['] 0BRANCH COMPILE, HERE @ - , ;
: AGAIN IMMEDIATE ['] BRANCH COMPILE, HERE @ - , ;
: WHILE IMMEDIATE ['] 0BRANCH COMPILE, HERE @ 0 , ;
: REPEAT IMMEDIATE ['] BRANCH COMPILE, SWAP HERE @ - , DUP HERE @ SWAP - SWAP ! ;

\\ Radix
: DECIMAL 10 BASE ! ;
: HEX 16 BASE ! ;
"

end ThreadedForth
