import ThreadedForth.Text.Blank

/-!
# Reading from a line editor

An interactive input asks a line editor for one line at a time, and only when the previous line is
used up.  The editor keeps a history and offers words for completion, so whoever reads from it also
adds every line that is not blank to the history, and teaches the editor the names that the lines
define.

An editor is known by what its user does: a script of lines, interrupts, ends of file and failures.
Beyond the script every read meets the end of the file.
-/

namespace ThreadedForth

/-- What one attempt to read a line meets. -/
inductive Keystroke where
  | line (text : String)
  /-- The line was abandoned; reading goes on. -/
  | interrupt
  /-- The end of the file.  It ends one read only: the next one goes on in the script. -/
  | endOfFile
  /-- The terminal failed, which a reader cannot tell from the end of the file. -/
  | failure
  deriving DecidableEq, Repr, Inhabited

/-- How many characters a reader will get. -/
def Keystroke.size : Keystroke → Nat
  | .line text => text.length + 1
  | .interrupt => 1
  | .endOfFile | .failure => 0

/-- How many characters a reader of a whole script will get. -/
def scriptSize : List Keystroke → Nat
  | [] => 0
  | keystroke :: script => keystroke.size + scriptSize script

/-- A line editor and the record of its use. -/
structure LineEditor where
  /-- What its user will do. -/
  script : List Keystroke := []
  /-- The prompt of every read so far. -/
  prompts : Array String := #[]
  /-- The lines added to the history. -/
  history : Array String := #[]
  /-- The words it offers for completion. -/
  offered : Array String := #[]
  /-- How often the words were replaced. -/
  updates : Nat := 0
  deriving Inhabited

namespace LineEditor

/-- Shows a prompt and reads. -/
def read (editor : LineEditor) (prompt : String) : Keystroke × LineEditor :=
  let editor := { editor with prompts := editor.prompts.push prompt }
  match editor.script with
  | [] => (.endOfFile, editor)
  | keystroke :: script => (keystroke, { editor with script })

def remember (editor : LineEditor) (line : String) : LineEditor :=
  { editor with history := editor.history.push line }

/-- Replaces the words offered for completion. -/
def offer (editor : LineEditor) (words : Array String) : LineEditor :=
  { editor with offered := words, updates := editor.updates + 1 }

end LineEditor

/-! ## Learning names -/

/-- The words that are followed by the name of a new word. -/
def definingWords : List String := [":", "CREATE", "VARIABLE", "CONSTANT"]

/-- The names that a line defines, in upper case.  The token after a defining word is a name and
nothing else, even if it reads like a defining word. -/
def definedNames : List String → List String
  | word :: name :: rest =>
    if word.toUpper ∈ definingWords then name.toUpper :: definedNames rest
    else definedNames (name :: rest)
  | _ => []

/-- Adds the names that are not known yet, in order, each once. -/
def addNew (known : Array String) (names : List String) : Array String :=
  names.foldl (fun known name => if known.contains name then known else known.push name) known

/-! ## The input -/

/-- An input that reads lines from an editor. -/
structure EditorInput where
  editor : LineEditor := {}
  prompt : String
  /-- What is left of the current line. -/
  line : List Char := []
  /-- The words known so far. -/
  keywords : Array String := #[]
  deriving Inhabited

namespace EditorInput

/-- Starts with a list of known words, which the editor is told at once. -/
def knowing (input : EditorInput) (keywords : Array String) : EditorInput :=
  { input with keywords, editor := input.editor.offer keywords }

/-- Takes in a new line.  The editor hears of the known words only if the line added any. -/
def accept (input : EditorInput) (line : String) : EditorInput :=
  let text := line.toList
  let editor := if text.all Text.isBlank then input.editor else input.editor.remember line
  let keywords := addNew input.keywords (definedNames (Text.tokens text))
  let editor := if keywords.size = input.keywords.size then editor else editor.offer keywords
  { input with editor, keywords, line := text ++ ['\n'] }

/-- Reads another line.  Every line ends in a newline, an abandoned line is empty, and at the end of
the file there is none. -/
def refill (input : EditorInput) : EditorInput :=
  let (keystroke, editor) := input.editor.read input.prompt
  let input := { input with editor }
  match keystroke with
  | .line text => input.accept text
  | .interrupt => { input with line := ['\n'] }
  | .endOfFile | .failure => input

/-- Reads a character, from the current line if anything is left of it. -/
def next (input : EditorInput) : Option Char × EditorInput :=
  let input := if input.line.isEmpty then input.refill else input
  match input.line with
  | [] => (none, input)
  | c :: line => (some c, { input with line })

/-- Drops the rest of the current line. -/
def dropLine (input : EditorInput) : EditorInput := { input with line := [] }

/-! ## How much can still be read -/

/-- How many characters can still be read, those of the lines to come included. -/
def size (input : EditorInput) : Nat :=
  input.line.length + scriptSize input.editor.script

@[simp] theorem script_accept (input : EditorInput) (line : String) :
    (input.accept line).editor.script = input.editor.script := by
  simp only [accept, LineEditor.offer, LineEditor.remember]
  split <;> split <;> rfl

@[simp] theorem line_accept (input : EditorInput) (line : String) :
    (input.accept line).line = line.toList ++ ['\n'] := rfl

/-- A line that is read was counted before. -/
theorem size_refill_le (input : EditorInput) (h : input.line = []) :
    input.refill.size ≤ input.size := by
  rcases hscript : input.editor.script with _ | ⟨_ | _ | _ | _, script⟩ <;>
    simp [refill, LineEditor.read, size, hscript, h, scriptSize, Keystroke.size,
      String.length_toList]

theorem size_next_lt {input rest : EditorInput} {c : Char} (h : input.next = (some c, rest)) :
    rest.size < input.size := by
  have hle : (if input.line.isEmpty then input.refill else input).size ≤ input.size := by
    split
    · exact size_refill_le input (by simpa using ‹input.line.isEmpty = true›)
    · exact Nat.le_refl _
  simp only [next] at h
  generalize (if input.line.isEmpty then input.refill else input) = filled at h hle
  split at h
  · simp at h
  · rename_i hline
    simp only [Prod.mk.injEq] at h
    obtain ⟨-, rfl⟩ := h
    simp only [size, hline, List.length_cons] at hle ⊢
    omega

end EditorInput

end ThreadedForth
