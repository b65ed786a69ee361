import ThreadedForth.Machine.Primitive

/-!
# Words that print values
-/

namespace ThreadedForth.Words

open Effect

/-- The text of a value in a radix, which matters for integers only. -/
def printed (s : State) : Value → Except Cause String
  | .int n => return Numeral.write (← s.base) n
  | v => .ok v.display

/-- `.` ( x -- ) prints a value and a space. -/
def dot : Effect Unit := do
  let v ← peek
  let text ← examine (printed · v)
  discard pop
  write text
  write " "

/-- `.S` prints the number of values on the stack and the values, bottom first. -/
def dotS : Effect Unit := do
  let s ← get
  let texts ← (s.parameters.toList.mapM (printed s) : Except Cause (List String))
  write (texts.foldl (fun text item => text ++ item ++ " ") s!"<{s.parameters.size}> ")

/-- The most spaces that `SPACES` prints at once. -/
def spacesLimit : Int64 := 65536

/-- `SPACES` ( n -- ) prints `n` spaces, or nothing if `n` is negative. -/
def spaces : Effect Unit := do
  let n ← topInt
  if spacesLimit < n then fail (.countOutOfRange "SPACES" n spacesLimit)
  discard pop
  write (String.ofList (List.replicate n.toNatClampNeg ' '))

end ThreadedForth.Words
