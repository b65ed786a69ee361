import Mathlib.Algebra.Group.Int.Defs
import ThreadedForth.Proofs.Machine.Installing

/-!
# What a machine is fitted out with

Running a machine changes neither its table of primitives nor what it remembers of its kernel.  An
`Outfit` is these two, together with the words whose cells are known to lie one after the other
where memory begins.  The kernel is always among them; of the libraries it need not be known what
they are.

The cells themselves are another matter, since a program may overwrite any of them.
`Memory.IsIntact` says that those of the words and of the outer loop are still what setting up
wrote.
-/

namespace ThreadedForth

structure Outfit where
  table : PrimitiveTable
  /-- The number of the trampoline.  The other words follow it. -/
  first : Nat
  /-- The words that lie one after the other, those of the kernel first. -/
  words : List Primitive
  outerLoop : Address
  kernel_prefix : kernelWords <+: words
  lookup : ∀ position word, words[position]? = some word →
    table.lookup (first + position) = .ok word
  above : 4 + 2 * words.length ≤ outerLoop.toInt
  room : outerLoop.toInt + 3 ≤ Int64.maxValue.toInt

namespace Outfit

variable (w : Outfit)

/-- What the machine remembers of its kernel. -/
def kernel : Kernel := Kernel.ofLayout w.first w.outerLoop

/-- The address where the outer loop ends. -/
def past : Int := w.outerLoop.toInt + 3

@[simp] theorem kernel_interpret : w.kernel.interpret = 18 := rfl

@[simp] theorem kernel_quit : w.kernel.quit = 20 := rfl

@[simp] theorem kernel_outerLoop : w.kernel.outerLoop = w.outerLoop := rfl

variable {w} {position : Nat} {word : Primitive}

theorem lt_length (h : w.words[position]? = some word) : position < w.words.length :=
  (List.getElem?_eq_some_iff.mp h).1

/-- The kernel comes first. -/
theorem getElem?_words (h : kernelWords[position]? = some word) :
    w.words[position]? = some word := by
  obtain ⟨more, hmore⟩ := w.kernel_prefix
  obtain ⟨hposition, -⟩ := List.getElem?_eq_some_iff.mp h
  rw [← hmore, List.getElem?_append_left hposition, h]

theorem length_kernelWords_le : 58 ≤ w.words.length := by
  obtain ⟨more, hmore⟩ := w.kernel_prefix
  rw [← hmore, List.length_append, show kernelWords.length = 58 from rfl]
  omega

theorem le_past : 123 ≤ w.past := by
  have hlength := w.length_kernelWords_le
  have habove := w.above
  rw [past]
  omega

/-- The variables lie below what is above the outer loop. -/
theorem four_le_of_past_le {address : Address} (h : w.past ≤ address.toInt) :
    4 ≤ address.toInt := by
  have hpast := w.le_past
  omega

/-- The cells of a word lie below the outer loop. -/
theorem toInt_primitiveAddress_lt (h : position < w.words.length) :
    (primitiveAddress position).toInt = 4 + 2 * position ∧
      (primitiveAddress position + 1).toInt = 5 + 2 * position ∧
      5 + 2 * position < w.outerLoop.toInt := by
  have hmax : Int64.maxValue.toInt = 9223372036854775807 := rfl
  have habove := w.above
  have hroom := w.room
  exact ⟨toInt_primitiveAddress _ (by omega), toInt_primitiveAddress_add_one _ (by omega),
    by omega⟩

end Outfit

/-- The machine has this outfit. -/
structure Machine.IsFitted (m : Machine) (w : Outfit) : Prop where
  primitives : m.primitives = w.table
  kernel : m.state.kernel? = some w.kernel

/-! ## Cells in place -/

namespace Memory

/-- The cells of the words are still what setting up wrote. -/
structure HasPrimitives (memory : Memory) (w : Outfit) : Prop where
  primitive : ∀ position < w.words.length,
    memory.get (primitiveAddress position) = .native (w.first + position)
  trampoline : ∀ position < w.words.length,
    memory.get (primitiveAddress position + 1) = .native w.first

/-- The cells of the words and of the outer loop are still what setting up wrote. -/
structure IsIntact (memory : Memory) (w : Outfit) : Prop extends memory.HasPrimitives w where
  outerLoop : memory.Holds w.kernel.outerLoop
    [.reference w.kernel.interpret, .reference w.kernel.branch, .literal (.int (-2))]

variable {w : Outfit} {memory other : Memory}

/-! Only the cells from the first word to the outer loop matter. -/

theorem HasPrimitives.congr (h : memory.HasPrimitives w)
    (hsame : ∀ address : Address, 4 ≤ address.toInt → address.toInt < w.outerLoop.toInt →
      other.get address = memory.get address) : other.HasPrimitives w := by
  refine ⟨fun position hposition => ?_, fun position hposition => ?_⟩
  · obtain ⟨hcell, -, hlt⟩ := w.toInt_primitiveAddress_lt hposition
    rw [hsame _ (by omega) (by omega)]
    exact h.primitive position hposition
  · obtain ⟨-, hnext, hlt⟩ := w.toInt_primitiveAddress_lt hposition
    rw [hsame _ (by omega) (by omega)]
    exact h.trampoline position hposition

theorem toInt_outerLoop_add {n : Nat} (hn : n < 3) :
    (w.outerLoop + Int64.ofNat n).toInt = w.outerLoop.toInt + n :=
  Address.toInt_add_ofNat (by have := w.room; omega)

theorem IsIntact.congr (h : memory.IsIntact w)
    (hsame : ∀ address : Address, 4 ≤ address.toInt → address.toInt < w.past →
      other.get address = memory.get address) : other.IsIntact w := by
  have hpast : w.past = w.outerLoop.toInt + 3 := rfl
  have habove := w.above
  refine ⟨h.toHasPrimitives.congr fun address hlow hhigh => hsame address hlow (by omega), ?_⟩
  refine h.outerLoop.congr fun n hn => ?_
  have haddress := toInt_outerLoop_add (w := w) hn
  have hn : n < 3 := hn
  rw [Outfit.kernel_outerLoop]
  exact hsame _ (by omega) (by omega)

/-! ## Memory at the end of setting up -/

section Finishing

variable {kernel : Kernel} {outerLoop latest : Address}

/-- Only the outer loop and two variables are written at last. -/
theorem get_finished_of_ne {address : Address} (hlt : address.toInt < outerLoop.toInt)
    (hroom : outerLoop.toInt + 2 ≤ Int64.maxValue.toInt) (hhere : address ≠ Variable.here.address)
    (hlatest : address ≠ Variable.latest.address) :
    (memory.finished kernel outerLoop latest).get address = memory.get address := by
  have hone : (outerLoop + 1).toInt = outerLoop.toInt + 1 := Address.toInt_add_one (by omega)
  have htwo : (outerLoop + 2).toInt = outerLoop.toInt + 2 := Address.toInt_add_ofNat (n := 2) hroom
  have hne : ∀ other : Address, outerLoop.toInt ≤ other.toInt → other ≠ address := by
    rintro other hother rfl
    omega
  rw [finished, get_set_of_ne _ (Ne.symm hlatest), get_set_of_ne _ (Ne.symm hhere),
    get_set_of_ne _ (hne _ (by omega)), get_set_of_ne _ (hne _ (by omega)),
    get_set_of_ne _ (hne _ (by omega))]

/-- The outer loop is written above the words, and the variables are below them. -/
theorem get_finished_of_lt {address : Address} (hlow : 4 ≤ address.toInt)
    (hlt : address.toInt < outerLoop.toInt) (hroom : outerLoop.toInt + 2 ≤ Int64.maxValue.toInt) :
    (memory.finished kernel outerLoop latest).get address = memory.get address := by
  refine get_finished_of_ne hlt hroom ?_ ?_
  · rintro rfl
    exact absurd hlow (by decide)
  · rintro rfl
    exact absurd hlow (by decide)

theorem holds_finished (hlow : 4 ≤ outerLoop.toInt)
    (hroom : outerLoop.toInt + 2 ≤ Int64.maxValue.toInt) :
    (memory.finished kernel outerLoop latest).Holds outerLoop
      [.reference kernel.interpret, .reference kernel.branch, .literal (.int (-2))] := by
  have hone : (outerLoop + 1).toInt = outerLoop.toInt + 1 := Address.toInt_add_one (by omega)
  have htwo : (outerLoop + 2).toInt = outerLoop.toInt + 2 := Address.toInt_add_ofNat (n := 2) hroom
  have hthird : outerLoop + 1 + 1 = outerLoop + 2 := by grind
  have hne : ∀ address other : Address, address.toInt ≠ other.toInt → address ≠ other := by
    rintro address other hother rfl
    exact hother rfl
  have hzero : (Variable.here.address).toInt = 0 := rfl
  have hthree : (Variable.latest.address).toInt = 3 := rfl
  refine ⟨?_, ?_, ?_, trivial⟩
  · rw [finished, get_set_of_ne _ (hne _ _ (by omega)), get_set_of_ne _ (hne _ _ (by omega)),
      get_set_of_ne _ (hne _ _ (by omega)), get_set_of_ne _ (hne _ _ (by omega)), get_set_self]
  · rw [finished, get_set_of_ne _ (hne _ _ (by omega)), get_set_of_ne _ (hne _ _ (by omega)),
      get_set_of_ne _ (hne _ _ (by omega)), get_set_self]
  · rw [hthird, finished, get_set_of_ne _ (hne _ _ (by omega)),
      get_set_of_ne _ (hne _ _ (by omega)), get_set_self]

end Finishing

end Memory

/-! ## A machine that was set up -/

section Bootstrapping

variable {fresh booted : Machine} {libraries : List (List Primitive)}

/-- Setting up fills memory and dictionary and goes to `QUIT`. -/
theorem state_of_bootstrap (h : fresh.bootstrap libraries = .ok () booted) :
    booted.state = { fresh.state with
      memory := booted.state.memory
      dictionary := (fresh.stocked (kernelWords ++ libraries.flatten)).state.dictionary
      kernel? := some (fresh.kernelWith libraries)
      ip := kernelAddress "QUIT"
      nip := 0
      depth := 0 } := by
  rw [eq_settled_of_bootstrap h, Machine.settled, Machine.stocked, state_installAll]
  rfl

theorem kernel?_of_bootstrap (h : fresh.bootstrap libraries = .ok () booted) :
    booted.state.kernel? = some (fresh.kernelWith libraries) := by
  rw [state_of_bootstrap h]

theorem primitives_of_bootstrap (h : fresh.bootstrap libraries = .ok () booted) :
    booted.primitives = fresh.primitives ++
      (kernelWords ++ libraries.flatten.filter (·.name ≠ trampolineName)).toArray := by
  rw [eq_settled_of_bootstrap h, Machine.settled]
  exact primitives_stocked

/-- A machine that was set up is not set up again, and trying to do so changes nothing. -/
theorem bootstrap_of_bootstrap (h : fresh.bootstrap libraries = .ok () booted)
    (more : List (List Primitive)) :
    booted.bootstrap more = .error (.internal "machine is already bootstrapped") booted :=
  bootstrap_eq_error (by rw [kernel?_of_bootstrap h]; rfl) more

/-- A machine knows the words that it was set up with and those that it had before. -/
theorem mem_of_lookup_of_bootstrap (h : fresh.bootstrap libraries = .ok () booted) {id : Nat}
    {word : Primitive} (hword : booted.primitives.lookup id = .ok word) :
    word ∈ kernelWords ∨ word ∈ fresh.primitives.toList ++ libraries.flatten := by
  rw [PrimitiveTable.lookup] at hword
  split at hword
  · rename_i found hfound
    cases hword
    have hmem := Array.mem_of_getElem? hfound
    rw [primitives_of_bootstrap h] at hmem
    simp only [Array.mem_append, List.mem_toArray, List.mem_append, List.mem_filter] at hmem
    rcases hmem with hbefore | hkernel | ⟨hmore, -⟩
    · exact .inr (List.mem_append_left _ (Array.mem_toList_iff.mpr hbefore))
    · exact .inl hkernel
    · exact .inr (List.mem_append_right _ hmore)
  · cases hword

/-- The outfit of a machine that was set up, of whose libraries nothing is known. -/
def Machine.outfit (fresh : Machine) (libraries : List (List Primitive))
    (hroom : (kernelWords ++ libraries.flatten).length < 2 ^ 61) : Outfit where
  table := fresh.primitives ++
    (kernelWords ++ libraries.flatten.filter (·.name ≠ trampolineName)).toArray
  first := fresh.primitives.size
  words := kernelWords
  outerLoop := primitiveAddress (kernelWords ++ libraries.flatten).length
  kernel_prefix := List.prefix_rfl
  lookup position word hword := by
    obtain ⟨hposition, -⟩ := List.getElem?_eq_some_iff.mp hword
    rw [PrimitiveTable.lookup, Array.getElem?_append_right (Nat.le_add_right _ _),
      Nat.add_sub_cancel_left, List.getElem?_toArray, List.getElem?_append_left hposition, hword]
  above := by
    rw [toInt_primitiveAddress _ (by omega), List.length_append]
    omega
  room := by
    have hmax : Int64.maxValue.toInt = 9223372036854775807 := rfl
    rw [toInt_primitiveAddress _ (by omega)]
    omega

variable (h : fresh.bootstrap libraries = .ok () booted)
  (hroom : (kernelWords ++ libraries.flatten).length < 2 ^ 61)
include h

theorem isFitted_of_bootstrap : booted.IsFitted (fresh.outfit libraries hroom) :=
  ⟨primitives_of_bootstrap h, kernel?_of_bootstrap h⟩

include hroom

/-- Setting up leaves intact cells behind, those of the kernel and those of words that follow it. -/
theorem isIntact_of_append {w : Outfit} (known more : List Primitive)
    (hwords : kernelWords ++ libraries.flatten = trampoline :: known ++ more)
    (hknown : ∀ word ∈ known, word.name ≠ trampolineName) (hw : w.words = trampoline :: known)
    (hfirst : w.first = fresh.primitives.size)
    (houterLoop : w.outerLoop = primitiveAddress (kernelWords ++ libraries.flatten).length) :
    booted.state.memory.IsIntact w := by
  have habove := w.above
  have hroom' := w.room
  have hmemory : booted.state.memory =
      (fresh.stocked (kernelWords ++ libraries.flatten)).state.memory.finished w.kernel w.outerLoop
        (primitiveAddress ((kernelWords ++ libraries.flatten).length - 1)) := by
    rw [eq_settled_of_bootstrap h, Outfit.kernel, hfirst, houterLoop]
    rfl
  have hcells : ∀ position < w.words.length,
      booted.state.memory.get (primitiveAddress position) = .native (w.first + position) ∧
        booted.state.memory.get (primitiveAddress position + 1) = .native w.first := by
    intro position hposition
    obtain ⟨hcell, hnext, hlt⟩ := w.toInt_primitiveAddress_lt hposition
    rw [hmemory, Memory.get_finished_of_lt (by omega) (by omega) (by omega),
      Memory.get_finished_of_lt (by omega) (by omega) (by omega), hwords, hfirst]
    rw [hw] at hposition
    rw [hwords] at hroom
    exact get_stocked hknown (Nat.le_of_lt hroom) hposition
  refine ⟨⟨fun position hposition => (hcells position hposition).1,
    fun position hposition => (hcells position hposition).2⟩, ?_⟩
  rw [hmemory]
  exact Memory.holds_finished (by omega) (by omega)

/-- The cells of a machine that was just set up are intact. -/
theorem isIntact_of_bootstrap : booted.state.memory.IsIntact (fresh.outfit libraries hroom) :=
  isIntact_of_append h hroom kernelWords.tail libraries.flatten rfl
    name_ne_trampolineName_of_mem_tail_kernelWords rfl rfl rfl

omit hroom in
/-- The next cell is the one behind the outer loop. -/
theorem next_of_bootstrap : booted.state.memory.get Variable.here.address =
    .literal (.int (primitiveAddress (kernelWords ++ libraries.flatten).length + 3)) := by
  rw [eq_settled_of_bootstrap h, Machine.settled]
  exact (Memory.get_set_of_ne _ (by decide) _).trans (Memory.get_set_self ..)

end Bootstrapping

/-! ## The cells of the kernel -/

/-- The cells by which a machine interprets one token after another: those of `QUIT` and `INTERPRET`
and the outer loop. -/
def Kernel.places (kernel : Kernel) : List Address :=
  [kernel.quit, kernel.interpret, kernel.outerLoop, kernel.outerLoop + 1, kernel.outerLoop + 2]

/-- The cells of the kernel words and of the outer loop. -/
def Kernel.Owns (kernel : Kernel) (address : Address) : Prop :=
  (4 ≤ address.toInt ∧ address.toInt < 4 + 2 * kernelWords.length) ∨
    (kernel.outerLoop.toInt ≤ address.toInt ∧ address.toInt < kernel.outerLoop.toInt + 3)

namespace Outfit

variable {w : Outfit} {memory other : Memory}

/-- If nothing but the kernel is known to be in place, only its cells matter. -/
theorem isIntact_of_owns (hw : w.words = kernelWords) (h : memory.IsIntact w)
    (hsame : ∀ address, w.kernel.Owns address → other.get address = memory.get address) :
    other.IsIntact w := by
  have hlength : w.words.length = 58 := congrArg List.length hw
  have hkernel : kernelWords.length = 58 := rfl
  refine ⟨⟨fun position hposition => ?_, fun position hposition => ?_⟩, ?_⟩
  · obtain ⟨hcell, -, -⟩ := w.toInt_primitiveAddress_lt hposition
    rw [hsame _ (.inl (by omega))]
    exact h.primitive position hposition
  · obtain ⟨-, hnext, -⟩ := w.toInt_primitiveAddress_lt hposition
    rw [hsame _ (.inl (by omega))]
    exact h.trampoline position hposition
  · refine h.outerLoop.congr fun n hn => hsame _ (.inr ?_)
    have haddress := Memory.toInt_outerLoop_add (w := w) hn
    have hn : n < 3 := hn
    rw [kernel_outerLoop]
    omega

/-- Two memories with the kernel in place agree on its cells. -/
theorem get_eq_of_owns (h : memory.IsIntact w) (hother : other.IsIntact w) {address : Address}
    (howns : w.kernel.Owns address) : other.get address = memory.get address := by
  have hlength := w.length_kernelWords_le
  rcases howns with ⟨hlow, hhigh⟩ | ⟨hlow, hhigh⟩
  · have hkernel : kernelWords.length = 58 := rfl
    obtain ⟨n, hn⟩ : ∃ n : Nat, address.toInt = 4 + 2 * n ∨ address.toInt = 5 + 2 * n :=
      ⟨((address.toInt - 4) / 2).toNat, by omega⟩
    have hlt : n < w.words.length := by omega
    obtain ⟨hcell, hnext, -⟩ := w.toInt_primitiveAddress_lt hlt
    rcases hn with hn | hn
    · obtain rfl : address = primitiveAddress n := Int64.toInt_inj.mp (hn.trans hcell.symm)
      rw [h.primitive n hlt, hother.primitive n hlt]
    · obtain rfl : address = primitiveAddress n + 1 := Int64.toInt_inj.mp (hn.trans hnext.symm)
      rw [h.trampoline n hlt, hother.trampoline n hlt]
  · rw [kernel_outerLoop] at hlow hhigh
    obtain ⟨n, hn⟩ : ∃ n : Nat, address.toInt = w.outerLoop.toInt + n :=
      ⟨(address.toInt - w.outerLoop.toInt).toNat, by omega⟩
    have hthree : n < 3 := by omega
    obtain rfl : address = w.outerLoop + Int64.ofNat n :=
      Int64.toInt_inj.mp (hn.trans (Memory.toInt_outerLoop_add hthree).symm)
    obtain ⟨cell, hcell⟩ : ∃ cell, [Cell.reference w.kernel.interpret, .reference w.kernel.branch,
        .literal (.int (-2))][n]? = some cell := ⟨_, List.getElem?_eq_getElem hthree⟩
    exact (hother.outerLoop.get hcell).trans (h.outerLoop.get hcell).symm

/-- The places lie above the variables. -/
theorem toInt_places : ∀ address ∈ w.kernel.places,
    4 ≤ address.toInt ∧ address.toInt < w.past := by
  have hlow := w.le_past
  have hpast : w.past = w.outerLoop.toInt + 3 := rfl
  have hone : (w.outerLoop + 1).toInt = w.outerLoop.toInt + 1 :=
    Memory.toInt_outerLoop_add (n := 1) (by omega)
  have htwo : (w.outerLoop + 2).toInt = w.outerLoop.toInt + 2 :=
    Memory.toInt_outerLoop_add (n := 2) (by omega)
  intro address haddress
  simp only [Kernel.places, kernel_quit, kernel_interpret, kernel_outerLoop, List.mem_cons,
    List.not_mem_nil, or_false] at haddress
  rcases haddress with rfl | rfl | rfl | rfl | rfl
  · rw [show (20 : Address).toInt = 20 from rfl]
    omega
  · rw [show (18 : Address).toInt = 18 from rfl]
    omega
  all_goals omega

end Outfit

end ThreadedForth
