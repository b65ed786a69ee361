import ThreadedForth.Memory

/-!
# Cells in a row

Code is a row of cells at consecutive addresses, and `Holds` says that a memory has such a row at an
address.  Addresses wrap, so a row may run over the end of the address space; nothing here minds.
Only where a row has to be told apart from what lies below it are addresses compared, and then as
integers.
-/

namespace ThreadedForth

/-! ## Counting on from an address -/

theorem Address.add_ofNat_zero (address : Address) : address + Int64.ofNat 0 = address := by
  grind

theorem Address.add_one_add_ofNat (address : Address) (n : Nat) :
    address + 1 + Int64.ofNat n = address + Int64.ofNat (n + 1) := by
  grind [Int64.ofNat_add]

theorem Address.add_ofNat_add (address : Address) (m n : Nat) :
    address + Int64.ofNat m + Int64.ofNat n = address + Int64.ofNat (m + n) := by
  grind [Int64.ofNat_add]

/-- Counting on stays below the end of the address space if the sum does. -/
theorem Address.toInt_add_ofNat {address : Address} {n : Nat}
    (h : address.toInt + n ≤ Int64.maxValue.toInt) :
    (address + Int64.ofNat n).toInt = address.toInt + n := by
  have hlow := address.le_toInt
  have hmax : Int64.maxValue.toInt = 9223372036854775807 := rfl
  have hsize : (Int64.size : Int) = 18446744073709551616 := rfl
  rw [Int64.toInt_add, Int64.toInt_ofNat', Int.add_bmod_bmod,
    Int.bmod_eq_of_le (by omega) (by omega)]

theorem Address.toInt_add_one {address : Address}
    (h : address.toInt < Int64.maxValue.toInt) : (address + 1).toInt = address.toInt + 1 :=
  Address.toInt_add_ofNat (n := 1) (by omega)

/-- Only the last address has no next one. -/
theorem Address.lt_add_one {address : Address} (h : address ≠ Int64.maxValue) :
    address < address + 1 := by
  have hle := Int64.toInt_le address
  have hne : address.toInt ≠ Int64.maxValue.toInt := fun heq => h (Int64.toInt_inj.mp heq)
  rw [Int64.lt_iff_toInt_lt, Address.toInt_add_one (by omega)]
  omega

namespace Memory

/-! ## Rows that are there -/

/-- The cells are at the address and the addresses after it. -/
def Holds (memory : Memory) : Address → List Cell → Prop
  | _, [] => True
  | address, cell :: cells => memory.get address = cell ∧ memory.Holds (address + 1) cells

theorem holds_append {memory : Memory} {address : Address} {first second : List Cell} :
    memory.Holds address (first ++ second) ↔
      memory.Holds address first ∧
        memory.Holds (address + Int64.ofNat first.length) second := by
  induction first generalizing address with
  | nil => simp [Holds]
  | cons cell first ih =>
      simp only [List.cons_append, Holds, ih, List.length_cons, Address.add_one_add_ofNat,
        and_assoc]

theorem Holds.get {memory : Memory} {address : Address} {cells : List Cell}
    (h : memory.Holds address cells) {n : Nat} {cell : Cell} (hcell : cells[n]? = some cell) :
    memory.get (address + Int64.ofNat n) = cell := by
  induction cells generalizing address n with
  | nil => simp at hcell
  | cons first rest ih =>
      cases n with
      | zero =>
          rw [Address.add_ofNat_zero]
          exact h.1.trans (by simpa using hcell)
      | succ n =>
          rw [← Address.add_one_add_ofNat]
          exact ih h.2 (by simpa using hcell)

/-- A row only depends on the cells at its addresses. -/
theorem Holds.congr {memory other : Memory} {address : Address} {cells : List Cell}
    (h : memory.Holds address cells)
    (hsame : ∀ n < cells.length,
      other.get (address + Int64.ofNat n) = memory.get (address + Int64.ofNat n)) :
    other.Holds address cells := by
  induction cells generalizing address with
  | nil => trivial
  | cons first rest ih =>
      have hfirst := hsame 0 (by simp)
      rw [Address.add_ofNat_zero] at hfirst
      refine ⟨hfirst.trans h.1, ih h.2 fun n hn => ?_⟩
      rw [Address.add_one_add_ofNat]
      exact hsame (n + 1) (by simpa using hn)

end Memory

end ThreadedForth
