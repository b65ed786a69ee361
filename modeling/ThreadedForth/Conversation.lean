import ThreadedForth.Session

/-!
# Conversations

A conversation runs the machine of a session on the lines of an editor.  Lines are asked for only
when the machine needs them, so a definition may extend over several lines.
-/

namespace ThreadedForth

def version : String := "0.1.0"

/-- A session and the editor that its user types in. -/
structure Conversation where
  session : Session
  editor : LineEditor
  deriving Inhabited

namespace Conversation

/-- What a conversation begins with. -/
def bannerText : String :=
  "threadcell " ++ version ++
    "\nType BYE or press Ctrl+D to exit, WORDS to list the dictionary.\n"

/-- Prepares the machine of the session for a conversation: it prints to `output`, after a banner if
the settings want one, and reads from the editor, which is told all visible words. -/
def start (conversation : Conversation) (output : Output) : Except Cause Machine := do
  let settings := conversation.session.settings
  let output ← if settings.banner then output.write bannerText else pure output
  let input : EditorInput := { editor := conversation.editor, prompt := settings.prompt }
  let words := conversation.session.machine.state.dictionary.visibleNames.toArray
  return (conversation.session.machine.withInput (.editor (input.knowing words))).withOutput output

/-- Takes the machine back after a conversation: the editor, and what was printed. -/
def finish (conversation : Conversation) (m : Machine) : Output × Conversation :=
  let editor := match m.state.input with
    | .editor source => source.editor
    | .text _ => conversation.editor
  let machine := m.withOutput conversation.session.machine.state.output
  (m.state.output, { session := { conversation.session with machine }, editor })

/-- Talks until the program says goodbye or the input ends. -/
def run (fuel : Nat) (output : Output) (conversation : Conversation) :
    Option (Except Cause Halt × Output × Conversation) :=
  match conversation.start output with
  | .error cause => some (.error cause, output, conversation)
  | .ok m => do
    let (result, m) ← m.run fuel
    return (result, conversation.finish m)

end Conversation

end ThreadedForth
