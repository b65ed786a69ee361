/-!
# Reading from a text

The simplest input is a text that is there from the start.  It is read character by character.
When a line fails, what is left of it is dropped; a text whose last character read was a newline
has nothing left of its line, so there nothing is dropped.
-/

namespace ThreadedForth

structure TextInput where
  /-- The characters not read yet. -/
  rest : List Char := []
  /-- The character read last was a newline. -/
  lineEnded : Bool := false
  deriving DecidableEq, Inhabited

namespace TextInput

def ofString (text : String) : TextInput := { rest := text.toList }

/-- Everything was read. -/
def isExhausted (input : TextInput) : Bool := input.rest.isEmpty

/-- Reads a character. -/
def next (input : TextInput) : Option Char × TextInput :=
  match input.rest with
  | [] => (none, input)
  | c :: rest => (some c, ⟨rest, c = '\n'⟩)

/-- Drops the rest of the current line and the newline that ends it. -/
def dropLine (input : TextInput) : TextInput :=
  if input.lineEnded then input
  else
    match input.rest, input.rest.dropWhile (· != '\n') with
    | [], _ => input
    | _, [] => ⟨[], false⟩
    | _, _ :: rest => ⟨rest, true⟩

theorem length_rest_next_lt {input rest : TextInput} {c : Char}
    (h : input.next = (some c, rest)) : rest.rest.length < input.rest.length := by
  rcases input with ⟨_ | ⟨first, chars⟩, ended⟩
  · simp [next] at h
  · simp only [next, Prod.mk.injEq] at h
    obtain ⟨-, rfl⟩ := h
    simp

end TextInput

end ThreadedForth
