import ThreadedForth.Input.Editor
import ThreadedForth.Input.Text

/-!
# Input

The machine reads its source from a text or from a line editor.  Both deliver characters one by one
and can drop the rest of a line; everything else, which is cutting the source into tokens and
reading up to a delimiter, is defined once over `Input.next`.

Reading always comes to an end: every character delivered shrinks `Input.size`, which counts all
that can still be delivered, the lines that were not asked for yet included.
-/

namespace ThreadedForth

inductive Input where
  | text (source : TextInput)
  | editor (source : EditorInput)
  deriving Inhabited

namespace Input

def ofString (source : String) : Input := text (.ofString source)

/-- Reads a character; `none` at the end. -/
def next : Input → Option Char × Input
  | text source => let (c, rest) := source.next; (c, text rest)
  | editor source => let (c, rest) := source.next; (c, editor rest)

/-- Drops the rest of the current line.  This never waits for another line. -/
def dropLine : Input → Input
  | text source => text source.dropLine
  | editor source => editor source.dropLine

/-- How many characters can still be delivered. -/
def size : Input → Nat
  | text source => source.rest.length
  | editor source => source.size

theorem size_next_lt {input rest : Input} {c : Char} (h : input.next = (some c, rest)) :
    rest.size < input.size := by
  cases input with
  | text source =>
    simp only [next, Prod.mk.injEq] at h
    obtain ⟨hc, rfl⟩ := h
    exact TextInput.length_rest_next_lt (Prod.ext hc rfl)
  | editor source =>
    simp only [next, Prod.mk.injEq] at h
    obtain ⟨hc, rfl⟩ := h
    exact EditorInput.size_next_lt (Prod.ext hc rfl)

/-! ## Tokens -/

/-- Reads on to the first character that is no blank, and reads it too. -/
def skipBlanks (input : Input) : Option Char × Input :=
  match _h : input.next with
  | (none, rest) => (none, rest)
  | (some c, rest) => if Text.isBlank c then rest.skipBlanks else (some c, rest)
  termination_by input.size
  decreasing_by exact size_next_lt _h

/-- Reads the characters up to a blank and puts them on the reversed token; the blank is read and
dropped. -/
def readInk (token : List Char) (input : Input) : List Char × Input :=
  match _h : input.next with
  | (none, rest) => (token, rest)
  | (some c, rest) => if Text.isBlank c then (token, rest) else rest.readInk (c :: token)
  termination_by input.size
  decreasing_by exact size_next_lt _h

/-- Reads a token and the one blank that ends it; `none` if only blanks are left. -/
def readToken (input : Input) : Option String × Input :=
  match input.skipBlanks with
  | (none, rest) => (none, rest)
  | (some c, rest) =>
    let (token, rest) := rest.readInk [c]
    (some (String.ofList token.reverse), rest)

/-- Reads the characters before a delimiter and puts them on the reversed text; the delimiter is
read and dropped.  `none`, with everything read, if there is no delimiter. -/
def collectBefore (delimiter : Char) (before : List Char) (input : Input) :
    Option (List Char) × Input :=
  match _h : input.next with
  | (none, rest) => (none, rest)
  | (some c, rest) =>
    if c = delimiter then (some before, rest) else rest.collectBefore delimiter (c :: before)
  termination_by input.size
  decreasing_by exact size_next_lt _h

/-- Reads the text before a delimiter and the delimiter; `none` if the input ends first. -/
def readText (delimiter : Char) (input : Input) : Option String × Input :=
  let (before, rest) := input.collectBefore delimiter []
  (before.map fun before => String.ofList before.reverse, rest)

end Input

end ThreadedForth
