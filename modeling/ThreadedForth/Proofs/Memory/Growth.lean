import ThreadedForth.Proofs.Effect.Laws
import ThreadedForth.Proofs.Memory.Layout

/-!
# Memory that grows

Compiling appends cells at `HERE` and moves `HERE` on.  `Extends` says that this is all that became
of a memory, and it says so cell by cell, since the order in which cells were written is of no
interest.  What lies outside the new cells is the same as before, with the exception of `HERE`.
-/

namespace ThreadedForth

namespace Memory

/-- The cells were appended at an address, and `HERE` is behind them. -/
structure Extends (before after : Memory) (here : Address) (cells : List Cell) : Prop where
  holds : after.Holds here cells
  next : after.get Variable.here.address =
    .literal (.int (here + Int64.ofNat cells.length))
  same : ∀ address : Address, address ≠ Variable.here.address →
    (address.toInt < here.toInt ∨ here.toInt + cells.length ≤ address.toInt) →
    after.get address = before.get address

/-- Memory after one cell was compiled. -/
def compiled (memory : Memory) (here : Address) (cell : Cell) : Memory :=
  (memory.set here cell).set Variable.here.address (.literal (.int (here + 1)))

section Growing

variable {before middle after : Memory} {here : Address} {first second cells : List Cell}

/-- Nothing was appended. -/
theorem extends_nil (hhere : before.get Variable.here.address = .literal (.int here)) :
    before.Extends before here [] := by
  refine ⟨trivial, ?_, fun _ _ _ => rfl⟩
  rw [List.length_nil, Address.add_ofNat_zero]
  exact hhere

theorem Extends.same_of_lt (h : before.Extends after here cells) {address : Address}
    (hpositive : 0 < address.toInt) (hlt : address.toInt < here.toInt) :
    after.get address = before.get address := by
  refine h.same address ?_ (.inl hlt)
  rintro rfl
  exact absurd hpositive (by decide)

theorem Extends.trans (h : before.Extends middle here first)
    (h' : middle.Extends after (here + Int64.ofNat first.length) second) (hlow : 0 < here.toInt)
    (hroom : here.toInt + (first ++ second).length ≤ Int64.maxValue.toInt) :
    before.Extends after here (first ++ second) := by
  rw [List.length_append] at hroom
  have hnext : (here + Int64.ofNat first.length).toInt = here.toInt + first.length :=
    Address.toInt_add_ofNat (by omega)
  refine ⟨holds_append.mpr ⟨?_, h'.holds⟩, ?_, fun address hne houtside => ?_⟩
  · -- the second part was written behind the first one
    refine h.holds.congr fun n hn => ?_
    have haddress : (here + Int64.ofNat n).toInt = here.toInt + n :=
      Address.toInt_add_ofNat (by omega)
    refine h'.same _ ?_ (by omega)
    intro heq
    have hzero : (Variable.here.address).toInt = 0 := rfl
    rw [heq] at haddress
    omega
  · rw [h'.next, List.length_append, Address.add_ofNat_add]
  · rw [List.length_append] at houtside
    rw [h'.same address hne (by omega), h.same address hne (by omega)]

/-- Cells are appended in the same way if another cell below them is different. -/
theorem Extends.set (h : before.Extends after here cells) {address : Address} {cell : Cell}
    (hne : address ≠ Variable.here.address) (hlt : address.toInt < here.toInt)
    (hroom : here.toInt + cells.length ≤ Int64.maxValue.toInt) :
    (before.set address cell).Extends (after.set address cell) here cells := by
  refine ⟨h.holds.congr fun n hn => ?_, ?_, fun other hother houtside => ?_⟩
  · have haddress : (here + Int64.ofNat n).toInt = here.toInt + n :=
      Address.toInt_add_ofNat (by omega)
    refine get_set_of_ne _ (fun heq => ?_) _
    rw [← heq] at haddress
    omega
  · rw [get_set_of_ne _ hne]
    exact h.next
  · rw [get_set, get_set, h.same other hother houtside]

/-- One cell is appended by writing it and moving `HERE`. -/
theorem extends_compiled {cell : Cell} (hlow : 0 < here.toInt)
    (hroom : here.toInt < Int64.maxValue.toInt) :
    before.Extends (before.compiled here cell) here [cell] := by
  have hzero : (Variable.here.address).toInt = 0 := rfl
  have hne : Variable.here.address ≠ here := by
    rintro rfl
    omega
  refine ⟨⟨?_, trivial⟩, get_set_self _ _ _, fun address haddress houtside => ?_⟩
  · rw [compiled, get_set_of_ne _ hne, get_set_self]
  · have hother : here ≠ address := by
      rintro rfl
      rw [List.length_singleton] at houtside
      omega
    rw [compiled, get_set_of_ne _ (Ne.symm haddress), get_set_of_ne _ hother]

@[simp] theorem get_compiled_here (memory : Memory) (here : Address) (cell : Cell) :
    (memory.compiled here cell).get Variable.here.address = .literal (.int (here + 1)) :=
  get_set_self _ _ _

theorem extends_compiled_two {cell other : Cell} (hlow : 0 < here.toInt)
    (hroom : here.toInt + 2 ≤ Int64.maxValue.toInt) :
    before.Extends ((before.compiled here cell).compiled (here + 1) other) here [cell, other] := by
  have hone : (here + 1).toInt = here.toInt + 1 := Address.toInt_add_one (by omega)
  have hfirst : before.Extends (before.compiled here cell) here [cell] :=
    extends_compiled hlow (by omega)
  exact hfirst.trans (extends_compiled (by omega) (by omega)) hlow hroom

/-- Any cells can be appended where there is room. -/
theorem exists_extends (cells : List Cell)
    (hhere : before.get Variable.here.address = .literal (.int here)) (hlow : 0 < here.toInt)
    (hroom : here.toInt + cells.length ≤ Int64.maxValue.toInt) :
    ∃ after, before.Extends after here cells := by
  induction cells generalizing before here with
  | nil => exact ⟨before, extends_nil hhere⟩
  | cons cell cells ih =>
      rw [List.length_cons] at hroom
      have hone : (here + Int64.ofNat [cell].length).toInt = here.toInt + 1 :=
        Address.toInt_add_one (by omega)
      have hfirst : before.Extends (before.compiled here cell) here [cell] :=
        extends_compiled hlow (by omega)
      obtain ⟨after, hrest⟩ := ih hfirst.next (by omega) (by omega)
      exact ⟨after, hfirst.trans hrest hlow (by simp; omega)⟩

/-- A cell among those that were appended may be written once more. -/
theorem Extends.patch {cell : Cell} (h : before.Extends after here (first ++ cell :: second))
    (hlow : 0 < here.toInt)
    (hroom : here.toInt + (first ++ cell :: second).length ≤ Int64.maxValue.toInt) (other : Cell) :
    before.Extends (after.set (here + Int64.ofNat first.length) other) here
      (first ++ other :: second) := by
  have hlength : (first ++ cell :: second).length = first.length + 1 + second.length := by
    simp
    omega
  rw [hlength] at hroom
  obtain ⟨hfirst, hsecond⟩ := holds_append.mp h.holds
  have hplace : (here + Int64.ofNat first.length).toInt = here.toInt + first.length :=
    Address.toInt_add_ofNat (by omega)
  have hzero : (Variable.here.address).toInt = 0 := rfl
  -- everything else that matters is at another address
  have hne : ∀ address : Address, address.toInt ≠ here.toInt + first.length →
      here + Int64.ofNat first.length ≠ address := by
    rintro address haddress rfl
    exact haddress hplace
  refine ⟨holds_append.mpr ⟨?_, get_set_self _ _ _, ?_⟩, ?_, fun address haddress houtside => ?_⟩
  · refine hfirst.congr fun n hn => get_set_of_ne _ (hne _ ?_) _
    rw [Address.toInt_add_ofNat (by omega)]
    omega
  · refine hsecond.2.congr fun n hn => get_set_of_ne _ (hne _ ?_) _
    rw [Address.add_one_add_ofNat, Address.add_ofNat_add, Address.toInt_add_ofNat (by omega)]
    omega
  · rw [get_set_of_ne _ (hne _ (by omega)), h.next, hlength]
    simp only [List.length_append, List.length_cons]
    rw [Nat.add_right_comm, Nat.add_assoc]
  · simp only [List.length_append, List.length_cons] at houtside
    rw [get_set_of_ne _ (hne _ (by omega))]
    exact h.same address haddress (by rw [hlength]; omega)

end Growing

end Memory

/-! ## Compiling -/

namespace Effect

variable {s : State} {here : Address}

theorem compile_extends (cell : Cell)
    (hhere : s.memory.get Variable.here.address = .literal (.int here)) (hlow : 0 < here.toInt)
    (hroom : here.toInt < Int64.maxValue.toInt) :
    ∃ memory, s.memory.Extends memory here [cell] ∧
      compile cell s = .ok here { s with memory } := by
  have hmax : here ≠ Int64.maxValue := by
    rintro rfl
    omega
  exact ⟨_, Memory.extends_compiled hlow hroom, compile_ok (here_of_get hhere) hmax⟩

/-- Compiling a literal appends two cells. -/
theorem compilePush_extends {v : Value} {kernel : Kernel} (hkernel : s.kernel? = some kernel)
    (hhere : s.memory.get Variable.here.address = .literal (.int here)) (hlow : 0 < here.toInt)
    (hroom : here.toInt + 2 ≤ Int64.maxValue.toInt) :
    ∃ memory, s.memory.Extends memory here [.reference kernel.lit, .literal v] ∧
      compilePush v s = .ok () { s with memory } := by
  have hread : s.kernel = .ok kernel := by rw [State.kernel, hkernel]
  have hone : (here + Int64.ofNat 1).toInt = here.toInt + 1 := Address.toInt_add_ofNat (by omega)
  obtain ⟨middle, hfirst, hcompile⟩ :=
    compile_extends (s := s) (.reference kernel.lit) hhere hlow (by omega)
  obtain ⟨memory, hsecond, hcompile'⟩ :=
    compile_extends (s := { s with memory := middle }) (.literal v) hfirst.next
      (by rw [List.length_singleton]; omega) (by rw [List.length_singleton]; omega)
  refine ⟨memory, hfirst.trans hsecond hlow (by simpa using hroom), ?_⟩
  rw [compilePush, bind_ok (examine_ok hread), bind_ok (discard_ok hcompile)]
  exact discard_ok hcompile'

end Effect

end ThreadedForth
