import ThreadedForth.Words.Defining

/-!
# Words that read source and write text
-/

namespace ThreadedForth.Words

open Effect

/-- `KEY` ( -- c ) reads one character. -/
def key : Effect Unit := do
  match ← readChar with
  | some c => push (.char c)
  | none => fail .endOfInput

/-- `WORD` ( -- s ) reads a token. -/
def word : Effect Unit := do push (.string (← readToken))

/-- The first character of the next token. -/
def initialChar : Effect Char := do
  let token ← readToken
  match token.toList with
  | c :: _ => return c
  | [] => fail (.undefinedWord token)

/-- `CHAR` name ( -- c ) -/
def char : Effect Unit := do push (.char (← initialChar))

/-- `[CHAR]` name compiles code that pushes a character. -/
def bracketChar : Effect Unit := do
  requireCompiling "[CHAR]"
  compilePush (.char (← initialChar))

/-- `EMIT` ( c -- ) writes a character. -/
def emit : Effect Unit := do
  let c ← (← peek).toChar
  discard pop
  write c.toString

/-- `TYPE` ( x -- ) writes the text of a value. -/
def type : Effect Unit := do
  let v ← pop
  write v.display

/-- The text before the next double quote, which has to come. -/
def quotedText : Effect String := do
  match ← readText? '"' with
  | some text => return text
  | none => fail .endOfInput

/-- `."` text" writes a text, or compiles code that writes it. -/
def dotQuote : Effect Unit := do
  let text ← quotedText
  match ← examine State.mode with
  | .interpret => write text
  | .compile =>
    let kernel ← examine State.kernel
    compilePush (.string text)
    discard <| compile (.reference kernel.type)

/-- `S"` text" ( -- s ) pushes a text, or compiles code that pushes it. -/
def stringQuote : Effect Unit := do
  let v := Value.string (← quotedText)
  match ← examine State.mode with
  | .interpret => push v
  | .compile => compilePush v

/-- `(` skips a comment.  A comment without an end goes on to the end of the input. -/
def comment : Effect Unit := discard (readText? ')')

end ThreadedForth.Words
