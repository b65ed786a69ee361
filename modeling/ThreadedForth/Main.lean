import ThreadedForth.CommandLine
import ThreadedForth.Input.Typed

/-!
# The program

Reads the files and the lines that the command line asks for, and prints what it returns.  Lines
are read one at a time: a step that asks for a line nobody has typed yet is made again once the line
is there, so that everything printed before is seen first.
-/

namespace ThreadedForth

open CommandLine (FileError)

/-- Reads a file, or says why it cannot be read. -/
def readSource (file : String) : IO (Except FileError String) := do
  match ← (IO.FS.readFile file).toBaseIO with
  | .ok text => return .ok text
  | .error (.noFileOrDirectory ..) => return .error .missing
  | .error (.inappropriateType none ..) => return .error .directory
  | .error (.inappropriateType (some _) ..) => return .error .notDirectory
  | .error (.userError _) => return .error .encoding
  | .error reason => return .error (.other (toString reason))

/-- The editor of the input of a state. -/
def State.editor? (s : State) : Option EditorInput :=
  match s.input with
  | .editor source => some source
  | .text _ => none

/-- Whether a step from `s` to `next` has asked for more lines than were there. -/
def ranOut (s next : State) : Bool :=
  match s.editor?, next.editor? with
  | some before, some after =>
    before.editor.script.length < after.editor.prompts.size - before.editor.prompts.size
  | _, _ => false

/-- Puts one more line at the end of what the user has typed. -/
def State.typed (s : State) (line : Keystroke) : State :=
  match s.input with
  | .editor source =>
    let editor := { source.editor with script := source.editor.script ++ [line] }
    { s with input := .editor { source with editor } }
  | .text _ => s

/-- Reads a line, after a prompt if somebody sees it; `none` at the end of the input. -/
def readLine (prompt : String) : IO (Option Keystroke) := do
  let stdin ← IO.getStdin
  if ← stdin.isTty then IO.print prompt
  (← IO.getStdout).flush
  return (scriptOf (← stdin.getLine)).head?

/-- Makes the steps of a conversation until the machine halts. -/
partial def talk (m : Machine) (kernel : Kernel) : IO Unit := do
  let rec go (s : State) (recovered : Array Error) : IO Unit := do
    let (halt?, next, recovered') := Machine.advance m.primitives m.report kernel.quit s recovered
    if ranOut s next then
      if let some line ← readLine ((s.editor?.map (·.prompt)).getD "") then
        return ← go (s.typed line) recovered
    unless next.output.text.isEmpty do IO.print next.output.text
    unless halt?.isSome do go { next with output := {} } recovered'
  go m.state m.recovered

/-- Prints what the program comes to. -/
def conclude (outcome : CommandLine.Outcome) : IO UInt32 := do
  IO.print outcome.output
  outcome.errors.forM IO.eprintln
  return if outcome.failed then 1 else 0

end ThreadedForth

open ThreadedForth in
def main (arguments : List String) : IO UInt32 := do
  let files := match ({} : CommandLine.Options).read arguments with
    | .ok options => options.files
    | .error _ => []
  let contents ← files.mapM fun file => return (file, ← readSource file)
  let readFile (file : String) := (contents.lookup file).getD (.error .missing)
  match CommandLine.begin Machine.ampleFuel readFile arguments with
  | none => return 1
  | some (.finished outcome) => conclude outcome
  | some (.conversation session errors) =>
    IO.print session.machine.state.output.text
    errors.forM IO.eprintln
    let conversation : Conversation := { session, editor := {} }
    match conversation.start {}, session.machine.state.kernel with
    | .ok m, .ok kernel =>
      talk { m with state := { m.state with halt? := none } } kernel
      conclude { output := "\n" }
    | .error cause, _ | _, .error cause => conclude (.failure cause.message)
