import ThreadedForth.Machine.Effect
import ThreadedForth.Value.Literal

/-!
# Interpreting source

The source is interpreted token by token.  A token that names a visible word is that word, even if
it could be read as a number; otherwise it is an integer in the current radix, or another literal.
While a definition is being compiled, words that are not immediate and literals are appended to it
and not executed.
-/

namespace ThreadedForth

/-- What a token means. -/
inductive Meaning where
  | word (entry : Entry)
  | literal (v : Value)
  deriving DecidableEq

/-- The meaning of a token.  The radix is looked at only if the token is no word. -/
def State.classify (s : State) (token : String) : Except Cause Meaning :=
  match s.dictionary.findVisible? token with
  | some entry => .ok (.word entry)
  | none => do
    match Numeral.read? (← s.base) token with
    | some n => .ok (.literal (.int n))
    | none =>
      match Value.ofToken? token with
      | some v => .ok (.literal v)
      | none => .error (.undefinedWord token)

namespace Effect

/-- Acts on the meaning of a token.  A word that is executed goes on by itself; after everything
else the thread that called the interpreter goes on. -/
def act (mode : Mode) : Meaning → Effect Unit
  | .word entry =>
    if mode = .interpret ∨ entry.immediate then jump entry.address
    else do
      discard <| compile (.reference entry.address)
      resume
  | .literal v => do
    match mode with
    | .interpret => push v
    | .compile => compilePush v
    resume

/-- `INTERPRET` handles one token.  If there is none it stays where it is, so that it can go on when
there is more source. -/
def interpret : Effect Unit := do
  match ← readToken? with
  | none => requestHalt .endOfInput
  | some token =>
    let mode ← examine State.mode
    act mode (← examine (·.classify token))

end Effect

end ThreadedForth
