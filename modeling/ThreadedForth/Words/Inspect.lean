import ThreadedForth.Decompile
import ThreadedForth.Machine.Primitive

/-!
# Words that show the dictionary
-/

namespace ThreadedForth.Words

open Effect

/-- `WORDS` prints the names of the visible words, the latest first. -/
def words : Effect Unit := do
  write (" ".intercalate (← get).dictionary.visibleNames)
  write "\n"

/-- `SEE` name prints a word as source. -/
def see : Effect Unit := do
  let name ← readToken
  match (← get).dictionary.find? name with
  | some entry =>
    write (← examine (·.decompile entry))
    write "\n"
  | none => fail (.unknownName name)

end ThreadedForth.Words
