import ThreadedForth.Error

/-!
# Output

The machine writes text to a sink.  A sink collects what is written and may refuse to take more
after a number of writes; a write counts once, however long its text is.
-/

namespace ThreadedForth

structure Output where
  /-- Everything written so far. -/
  text : String := ""
  /-- How many more writes are taken; `none` for any number. -/
  allowance : Option Nat := none
  deriving DecidableEq, Inhabited

/-- Writes a text. -/
def Output.write (output : Output) (text : String) : Except Cause Output :=
  match output.allowance with
  | some 0 => .error (.io "sink closed")
  | allowance => .ok ⟨output.text ++ text, allowance.map (· - 1)⟩

end ThreadedForth
