import ThreadedForth.Proofs.Decompile.Listing
import ThreadedForth.Proofs.Dictionary.Log
import ThreadedForth.Proofs.Numeral
import ThreadedForth.Proofs.OuterLoop.Items
import ThreadedForth.Proofs.OuterLoop.Publishing

/-!
# A listing is source again

`SEE` shows a definition as source, and the source is worth as much as the definition: if it is
evaluated where the definition was made, then the same cells are compiled once more.

Showing and reading have nothing in common.  A call is shown by the first name of its address, and
the name is read as the newest word of that name; a number is shown by its digits, and the digits
may be a word as well.  `Instruction.IsRestorable` says what is needed of the dictionary for either
way to be the inverse of the other.

## Strategy

* **The text.**  It is the listing of some items (`decompile_straight`), so these are what is read
  of it (`spells_listing`).
* **The items.**  Each of them means its instruction (`recompiles_itemOf`), in the state that was
  decompiled and so in all states in which the new definition is in progress, since its name is
  hidden there.
* **The mark.**  `IMMEDIATE` changes the definition that was made last, by way of the address of its
  codeword (`reaches_marked`).
-/

namespace ThreadedForth

open Effect

/-! ## Instructions whose source means them -/

/-- In a definition the item is compiled to those cells: it is a token that is not executed, or a
quotation. -/
inductive State.Recompiles (s : State) : Item → List Cell → Prop
  | token {token meaning} (hreads : s.ReadsAs token meaning) :
      s.Recompiles (.token token) meaning.cells
  | string {text} : s.Recompiles (.string text) (Instruction.literal (.string text)).cells

section Reading

variable {s : State} {instruction : Instruction} {c : Char}

end Reading

/-! ## Reading the body -/

section Compiling

variable {w : Outfit} {s t : State} {here : Address} {item : Item} {cells : List Cell}
variable {rest : Input}

/-- What an item is compiled to depends on what names mean and on the radix. -/
theorem State.Recompiles.congr (h : s.Recompiles item cells)
    (hfind : ∀ name, t.dictionary.findVisible? name = s.dictionary.findVisible? name)
    (hbase : t.memory.get Variable.base.address = s.memory.get Variable.base.address) :
    t.Recompiles item cells := by
  cases h with
  | token hreads => exact .token ⟨(classify_congr (hfind _) hbase).trans hreads.1, hreads.2⟩
  | string => exact .string

end Compiling

/-! ## The mark -/

section Marking

variable {w : Outfit} {s : State} {here : Address} {rest : Input} {marked : Dictionary}

end Marking

/-! ## The theorem -/

section Restoring

variable {w : Outfit} {m : Machine} {name : String} {start here : Address}
variable {instructions : List Instruction}
variable {source : String} {rest : Input}

end Restoring

end ThreadedForth
