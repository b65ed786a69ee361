import ThreadedForth.Memory

/-!
# Writing

Writing what a cell already holds leaves a memory as it is, down to the tree that the cells are kept
in.  So a machine that writes back what was there is in the very state that it was in before.
-/

namespace ThreadedForth

namespace Memory

/-! ## What is written -/

theorem mem_set_iff (memory : Memory) (written address : Address) (cell : Cell) :
    address ∈ (memory.set written cell).cells ↔ written = address ∨ address ∈ memory.cells := by
  rw [set, Std.TreeMap.mem_insert, Std.LawfulEqCmp.compare_eq_iff_eq]

theorem getElem?_set_of_ne (memory : Memory) {written address : Address} (h : written ≠ address)
    (cell : Cell) : (memory.set written cell).cells[address]? = memory.cells[address]? := by
  rw [set, Std.TreeMap.getElem?_insert, if_neg]
  rwa [Std.LawfulEqCmp.compare_eq_iff_eq]

/-! ## Writing what is there -/

open Std.DTreeMap.Internal

/-- In a balanced tree, the entry of a key is put back in its place. -/
theorem insert_of_get? {α β : Type} [Ord α] [Std.LawfulEqOrd α] {k : α}
    {v : β} {t : Impl α fun _ => β} (ht : t.Balanced) (h : Impl.Const.get? t k = some v) :
    (t.insert k v ht).impl = t := by
  induction t with
  | leaf => cases h
  | inner size k' v' l r ihl ihr =>
      rw [Impl.Const.get?] at h
      rw [Impl.insert]
      split at h
      · rename_i hlt
        simp only [hlt, ihl ht.left h, Impl.balanceL_eq_balance]
        exact Impl.balance_eq_inner ht
      · rename_i hgt
        simp only [hgt, ihr ht.right h, Impl.balanceR_eq_balance]
        exact Impl.balance_eq_inner ht
      · rename_i heq
        cases h
        simp only [heq]
        rw [Std.LawfulEqCmp.eq_of_compare heq]

/-- A cell that is not empty was written. -/
theorem getElem?_of_get {memory : Memory} {address : Address} {cell : Cell}
    (h : memory.get address = cell) (hcell : cell ≠ .empty) :
    memory.cells[address]? = some cell := by
  rw [get, Std.TreeMap.getD_eq_getD_getElem?] at h
  rcases hheld : memory.cells[address]? with _ | held
  · rw [hheld] at h
    exact absurd h.symm hcell
  · rw [hheld] at h
    rw [← h]
    rfl

theorem set_of_get {memory : Memory} {address : Address} {cell : Cell}
    (h : memory.get address = cell) (hcell : cell ≠ .empty) : memory.set address cell = memory := by
  have hwritten := getElem?_of_get h hcell
  rcases memory with ⟨⟨⟨inner, wf⟩⟩⟩
  have hsame := insert_of_get? wf.balanced hwritten
  simp only [set, Std.TreeMap.insert, Std.DTreeMap.insert, hsame]

end Memory

end ThreadedForth
