import Mathlib.Algebra.GroupWithZero.Nat
import Mathlib.Data.List.Infix
import Mathlib.Data.List.Nodup
import ThreadedForth.Proofs.Memory.Growth
import ThreadedForth.Proofs.Storage.Inventory

/-!
# Named storage in memory

The definitions of a program lie one behind the other, the oldest one behind the outer loop.  Where
a definition begins depends on the sizes of the older ones only, and what its cells are depends on
the older ones and, if it is a variable or a buffer, on the values of its slots.  So the cells of
all definitions are known from the inventory, and `Memory.Reflects` says that they are in memory.

All that is needed to keep it that way is that a slot is written in its own cell
(`Memory.Reflects.write`).  This is where it is used that no two definitions have the same name.
-/

namespace ThreadedForth

open Definition

/-! ## Cells -/

/-- The address of a word of the library. -/
def libraryAddress (name : String) : Address :=
  primitiveAddress (kernelWords.length + libraryWords.findIdx (·.name == name))

/-- The number of cells of a call of the slot's address. -/
def Slot.size (slot : Slot) : ℕ := if slot.offset?.isSome then 4 else 1

/-- The number of cells that an action is compiled to. -/
def Action.size : Action → ℕ
  | push _ => 2
  | word _ | call _ => 1
  | fetch slot | store slot | add slot => slot.size + 1

/-- The number of cells of a definition, with its codeword. -/
def Shape.size : Shape → ℕ
  | storage size => size + 1
  | constant _ => 2
  | word body => (body.map Action.size).sum + 2

namespace Definition

/-- The address behind the definitions. -/
def past : List Definition → ℕ
  | [] => 219
  | definition :: older => past older + definition.shape.size

/-- The address of the codeword that belongs to a folded name. -/
def addressOf : List Definition → String → Address
  | [], _ => 0
  | definition :: older, name =>
    if definition.name = name then Int64.ofNat (past older) else addressOf older name

end Definition

section Laying

variable (definitions : List Definition)

/-- What pushes the address of a slot. -/
def Slot.instructions (slot : Slot) : List Instruction :=
  .call (addressOf definitions slot.name) :: match slot.offset? with
    | none => []
    | some offset => [.literal (.int (Int64.ofNat offset)), .call (libraryAddress "+")]

/-- What an action is compiled to. -/
def Action.instructions : Action → List Instruction
  | push v => [.literal v]
  | word address => [.call address]
  | call name => [.call (addressOf definitions name)]
  | fetch slot => slot.instructions definitions ++ [.call (kernelAddress "@")]
  | store slot => slot.instructions definitions ++ [.call (kernelAddress "!")]
  | add slot => slot.instructions definitions ++ [.call (libraryAddress "+!")]

/-- The cell of a slot. -/
def Slot.address (slot : Slot) : Address :=
  addressOf definitions slot.name + 1 + Int64.ofNat slot.index

end Laying

/-- The cells of a definition. -/
def Definition.cells (older : List Definition) (values : String → ℕ → Value)
    (definition : Definition) : List Cell :=
  match definition.shape with
  | .storage size =>
    .native standardKernel.dovar ::
      (List.range size).map fun index => .literal (values definition.name index)
  | .constant v => [.native standardKernel.docon, .literal v]
  | .word body => definitionCells standardKernel (body.flatMap (·.instructions older))

/-- The cells of all definitions are in memory. -/
def Memory.Represents (memory : Memory) (values : String → ℕ → Value) : List Definition → Prop
  | [] => True
  | definition :: older =>
    memory.Holds (Int64.ofNat (past older)) (definition.cells older values) ∧
      memory.Represents values older

section Sizes

variable {definitions older : List Definition} {values values' : String → ℕ → Value}
variable {memory memory' : Memory} {definition : Definition} {name : String}

theorem length_instructions_slot (slot : Slot) :
    ((slot.instructions definitions).flatMap Instruction.cells).length = slot.size := by
  unfold Slot.instructions Slot.size
  cases slot.offset? <;> rfl

theorem length_instructions (action : Action) :
    ((action.instructions definitions).flatMap Instruction.cells).length = action.size := by
  cases action with
  | push _ | word _ | call _ => rfl
  | fetch slot | store slot | add slot =>
      simp only [Action.instructions, Action.size, List.flatMap_append, List.length_append,
        length_instructions_slot]
      rfl

theorem length_cells (definition : Definition) :
    (definition.cells older values).length = definition.shape.size := by
  unfold Definition.cells
  cases definition.shape with
  | storage size => simp [Shape.size]
  | constant _ => rfl
  | word body =>
      have hlength : ∀ action : Action,
          ((action.instructions older).flatMap Instruction.cells).length = action.size :=
        length_instructions
      simp [length_definitionCells, Shape.size, List.flatMap_assoc, List.length_flatMap, hlength]

/-! ## Where definitions are -/

theorem le_past : ∀ definitions : List Definition, 219 ≤ past definitions
  | [] => Nat.le_refl 219
  | _ :: older => Nat.le_add_right_of_le (le_past older)

theorem past_le_of_suffix (h : older <:+ definitions) : past older ≤ past definitions := by
  obtain ⟨front, rfl⟩ := h
  induction front with
  | nil => exact Nat.le_refl _
  | cons definition front ih => exact Nat.le_add_right_of_le ih

theorem toInt_past (hroom : (past definitions : ℤ) ≤ Int64.maxValue.toInt) :
    (Int64.ofNat (past definitions)).toInt = past definitions := by
  have hmax : Int64.maxValue.toInt = 9223372036854775807 := rfl
  rw [Int64.toInt_ofNat_of_lt (by omega)]

/-- A definition that is found lies behind the older ones. -/
theorem exists_older_of_find? (h : definitions.find? (·.name = name) = some definition) :
    definition.name = name ∧ ∃ older, definition :: older <:+ definitions ∧
      addressOf definitions name = Int64.ofNat (past older) := by
  induction definitions with
  | nil => cases h
  | cons first rest ih =>
      rw [List.find?_cons] at h
      unfold addressOf
      by_cases hname : first.name = name
      · simp only [hname, decide_true, Option.some.injEq] at h
        subst h
        rw [if_pos hname]
        exact ⟨hname, rest, List.suffix_rfl, rfl⟩
      · simp only [hname, decide_false] at h
        obtain ⟨hsame, older, hsuffix, haddress⟩ := ih h
        rw [if_neg hname]
        exact ⟨hsame, older, hsuffix.trans (List.suffix_cons _ _), haddress⟩

/-- A new name is not that of an older definition. -/
theorem name_ne_of_suffix {other : Definition} {oldest : List Definition}
    (hnew : definition.name ∉ older.map Definition.name) (hsuffix : other :: oldest <:+ older) :
    definition.name ≠ other.name := by
  intro hsame
  exact hnew (List.mem_map.mpr ⟨other, hsuffix.subset (List.mem_cons_self ..), hsame.symm⟩)

/-- A name that has slots is that of a variable or a buffer. -/
theorem exists_storage_of_lt_slots {index : ℕ} (h : index < slots definitions name) :
    ∃ size older, index < size ∧ ⟨name, .storage size⟩ :: older <:+ definitions ∧
      addressOf definitions name = Int64.ofNat (past older) := by
  unfold slots at h
  split at h
  · rename_i other size hfind
    obtain ⟨rfl, older, hsuffix, haddress⟩ := exists_older_of_find? hfind
    exact ⟨size, older, h, hsuffix, haddress⟩
  · exact absurd h (Nat.not_lt_zero index)

/-! ## What is in memory -/

theorem Memory.Represents.of_suffix (h : memory.Represents values definitions)
    (hsuffix : older <:+ definitions) : memory.Represents values older := by
  obtain ⟨front, rfl⟩ := hsuffix
  induction front with
  | nil => exact h
  | cons _ front ih => exact ih h.2

/-- The cells only depend on the values of the slots that there are. -/
theorem Memory.Represents.congr_values (h : memory.Represents values definitions)
    (hsame : ∀ definition ∈ definitions, values' definition.name = values definition.name) :
    memory.Represents values' definitions := by
  induction definitions with
  | nil => trivial
  | cons definition older ih =>
      obtain ⟨hfirst, holder⟩ := List.forall_mem_cons.mp hsame
      refine ⟨?_, ih h.2 holder⟩
      have hcells : definition.cells older values' = definition.cells older values := by
        unfold Definition.cells
        rw [hfirst]
      rw [hcells]
      exact h.1

/-- A row of cells is known by its cells. -/
theorem Memory.holds_iff_getElem? {address : Address} {cells : List Cell} :
    memory.Holds address cells ↔
      ∀ n cell, cells[n]? = some cell → memory.get (address + Int64.ofNat n) = cell := by
  constructor
  · intro h n cell hcell
    exact h.get hcell
  · intro h
    induction cells generalizing address with
    | nil => trivial
    | cons first rest ih =>
        constructor
        · have hfirst := h 0 first rfl
          rwa [Address.add_ofNat_zero] at hfirst
        · apply ih
          intro n cell hcell
          rw [Address.add_one_add_ofNat]
          exact h (n + 1) cell hcell

/-- Memory only has to be the same where the definitions are. -/
theorem Memory.Represents.congr (h : memory.Represents values definitions)
    (hroom : (past definitions : ℤ) ≤ Int64.maxValue.toInt)
    (hsame : ∀ address : Address, 219 ≤ address.toInt → address.toInt < past definitions →
      memory'.get address = memory.get address) : memory'.Represents values definitions := by
  induction definitions with
  | nil => trivial
  | cons definition older ih =>
      have hlow := le_past older
      have hlength : (definition.cells older values).length = definition.shape.size :=
        length_cells definition
      have hpast : past (definition :: older) = past older + definition.shape.size := rfl
      have hplace : (Int64.ofNat (past older)).toInt = past older := toInt_past (by omega)
      constructor
      · refine h.1.congr fun n hn => ?_
        have haddress : (Int64.ofNat (past older) + Int64.ofNat n).toInt = past older + n := by
          rw [Address.toInt_add_ofNat (by omega), hplace]
        exact hsame _ (by omega) (by omega)
      · exact ih h.2 (by omega) fun address hlow hhigh => hsame address hlow (by omega)

end Sizes

/-! ## Memory that reflects an inventory -/

/-- What a machine needs to get on is in memory, and so are the definitions. -/
structure Memory.Reflects (memory : Memory) (definitions : List Definition)
    (values : String → ℕ → Value) : Prop extends memory.IsIntact .standard where
  base : memory.get Variable.base.address = .literal (.int 10)
  cells : memory.Represents values definitions
  distinct : (definitions.map Definition.name).Nodup
  room : (past definitions : ℤ) ≤ Int64.maxValue.toInt

/-- Nothing below the definitions was written. -/
def Memory.SameBelow (before after : Memory) : Prop :=
  ∀ address : Address, address.toInt < 219 → after.get address = before.get address

theorem Memory.SameBelow.refl (memory : Memory) : memory.SameBelow memory := fun _ _ => rfl

theorem Memory.SameBelow.trans {before middle after : Memory} (h : before.SameBelow middle)
    (h' : middle.SameBelow after) : before.SameBelow after :=
  fun address hlow => (h' address hlow).trans (h address hlow)

theorem Memory.SameBelow.isIntact {before after : Memory} (h : before.SameBelow after)
    (hbefore : before.IsIntact .standard) : after.IsIntact .standard :=
  hbefore.congr fun address _ hhigh => h address hhigh

section Reflecting

variable {definitions older : List Definition} {storage : Storage} {memory : Memory} {slot : Slot}
variable {values : String → ℕ → Value}

/-- The address of a slot lies in its definition. -/
theorem Slot.toInt_address {size : ℕ} (h : slot.index < size)
    (haddress : addressOf older slot.name = Int64.ofNat (past definitions))
    (hroom : (past definitions + (size + 1) : ℤ) ≤ Int64.maxValue.toInt) :
    (slot.address older).toInt = past definitions + (slot.index + 1) := by
  have hplace : (Int64.ofNat (past definitions)).toInt = past definitions := toInt_past (by omega)
  unfold Slot.address
  rw [haddress, Address.add_one_add_ofNat, Address.toInt_add_ofNat (by omega), hplace]
  rfl

/-- A slot that there is has its value in its cell. -/
theorem Memory.Reflects.read (h : memory.Reflects definitions values)
    (holder : older <:+ definitions) (hslot : slot.index < slots older slot.name) :
    memory.get (slot.address older) = .literal (values slot.name slot.index) := by
  obtain ⟨size, oldest, hsize, hsuffix, haddress⟩ := exists_storage_of_lt_slots hslot
  obtain ⟨hholds, -⟩ := h.cells.of_suffix (hsuffix.trans holder)
  unfold Slot.address
  rw [haddress, Address.add_one_add_ofNat]
  apply hholds.get
  simp [Definition.cells, hsize]

/-- Where one cell of a row is written, the row has the new cell. -/
theorem Memory.Holds.set {address place : Address} {row : List Cell} {n : ℕ} {cell : Cell}
    (h : memory.Holds address row) (hroom : address.toInt + row.length ≤ Int64.maxValue.toInt)
    (hplace : place.toInt = address.toInt + n) :
    (memory.set place cell).Holds address (row.set n cell) := by
  rw [Memory.holds_iff_getElem?]
  intro k found hfound
  have hk : k < row.length := by
    have hlt := (List.getElem?_eq_some_iff.mp hfound).1
    rwa [List.length_set] at hlt
  have hthere : (address + Int64.ofNat k).toInt = address.toInt + k :=
    Address.toInt_add_ofNat (by omega)
  by_cases hkn : k = n
  · subst hkn
    rw [List.getElem?_set_self hk] at hfound
    cases hfound
    have hsame : place = address + Int64.ofNat k := Int64.toInt_inj.mp (hplace.trans hthere.symm)
    rw [hsame]
    exact Memory.get_set_self _ _ _
  · rw [List.getElem?_set_ne (Ne.symm hkn)] at hfound
    have hother : place ≠ address + Int64.ofNat k := by
      rintro rfl
      omega
    rw [Memory.get_set_of_ne _ hother]
    exact h.get hfound

/-- The cells of a variable or of a buffer are those of its slots. -/
theorem cells_write {size : ℕ} {v : Value} :
    Definition.cells older (storage.write slot v).values ⟨slot.name, .storage size⟩ =
      (Definition.cells older storage.values ⟨slot.name, .storage size⟩).set (slot.index + 1)
        (.literal v) := by
  apply List.ext_getElem
  · simp [Definition.cells]
  · intro n _ _
    rcases n with _ | n
    · rfl
    · by_cases hn : n = slot.index
      · simp [Definition.cells, Storage.write, hn]
      · simp [Definition.cells, Storage.write, hn, Ne.symm hn]

/-- Definitions of other names do not notice what is written to a slot. -/
theorem values_write {v : Value} {name : String} (hname : name ≠ slot.name) :
    (storage.write slot v).values name = storage.values name := by
  funext index
  simp [Storage.write, hname]

/-- Writing to a slot of one definition gives this one the new cell, and the others keep theirs. -/
theorem Memory.Represents.write {size : ℕ} {oldest : List Definition} {v : Value}
    (h : memory.Represents storage.values definitions)
    (hdistinct : (definitions.map Definition.name).Nodup)
    (hroom : (past definitions : ℤ) ≤ Int64.maxValue.toInt) (hsize : slot.index < size)
    (hsuffix : ⟨slot.name, .storage size⟩ :: oldest <:+ definitions) {address : Address}
    (haddress : address.toInt = past oldest + (slot.index + 1)) :
    (memory.set address (.literal v)).Represents (storage.write slot v).values definitions := by
  induction definitions with
  | nil => trivial
  | cons definition older ih =>
      rw [List.map_cons, List.nodup_cons] at hdistinct
      obtain ⟨hnew, hdistinct⟩ := hdistinct
      have hpast : past (definition :: older) = past older + definition.shape.size := rfl
      have hplace : (Int64.ofNat (past older)).toInt = past older := toInt_past (by omega)
      have hlength : (definition.cells older storage.values).length = definition.shape.size :=
        length_cells definition
      obtain ⟨hfirst, holder⟩ := h
      rcases List.suffix_cons_iff.mp hsuffix with heq | hsuffix
      · -- the cell is in this definition, and the older ones have other names
        cases heq
        have hshape : (Shape.storage size).size = size + 1 := rfl
        constructor
        · rw [cells_write]
          exact hfirst.set (by omega) (by omega)
        · have hvalues : memory.Represents (storage.write slot v).values oldest := by
            refine holder.congr_values fun other hother => values_write ?_
            intro hsame
            exact hnew (List.mem_map.mpr ⟨other, hother, hsame⟩)
          refine hvalues.congr (by omega) fun other _ hhigh => Memory.get_set_of_ne _ ?_ _
          rintro rfl
          omega
      · -- the cell is in an older definition, so this one has another name and lies above it
        have hbelow : past oldest + (size + 1) ≤ past older := past_le_of_suffix hsuffix
        have hname : definition.name ≠ slot.name := name_ne_of_suffix hnew hsuffix
        refine ⟨?_, ih holder hdistinct (by omega) hsuffix⟩
        have hcells : definition.cells older (storage.write slot v).values =
            definition.cells older storage.values := by
          unfold Definition.cells
          rw [values_write hname]
        rw [hcells]
        refine hfirst.congr fun n hn => Memory.get_set_of_ne _ ?_ _
        rintro rfl
        rw [Address.toInt_add_ofNat (by omega)] at haddress
        omega

/-- A slot that is written has its value in its cell, and nothing else is changed. -/
theorem Memory.Reflects.write (h : memory.Reflects definitions storage.values)
    (holder : older <:+ definitions) (hslot : slot.index < slots older slot.name) (v : Value) :
    (memory.set (slot.address older) (.literal v)).Reflects definitions
        (storage.write slot v).values ∧
      memory.SameBelow (memory.set (slot.address older) (.literal v)) := by
  obtain ⟨size, oldest, hsize, hsuffix, haddress⟩ := exists_storage_of_lt_slots hslot
  have hinside : past oldest + (size + 1) ≤ past definitions :=
    past_le_of_suffix (hsuffix.trans holder)
  have hroom := h.room
  have hlow := le_past oldest
  have hplace : (slot.address older).toInt = past oldest + (slot.index + 1) :=
    slot.toInt_address hsize haddress (by omega)
  have hbelow : memory.SameBelow (memory.set (slot.address older) (.literal v)) := by
    intro address haddress
    apply Memory.get_set_of_ne
    rintro rfl
    omega
  refine ⟨⟨hbelow.isIntact h.toIsIntact, ?_, ?_, h.distinct, hroom⟩, hbelow⟩
  · rw [hbelow _ (by decide)]
    exact h.base
  · exact h.cells.write h.distinct hroom hsize (hsuffix.trans holder) hplace

end Reflecting

/-! ## Cells that stay -/

/-- The address lies in a definition, and it is not that of a slot. -/
structure Definition.IsFixed (definitions : List Definition) (address : Address) : Prop where
  low : 219 ≤ address.toInt
  high : address.toInt < past definitions
  other : ∀ slot : Slot, slot.index < slots definitions slot.name →
    address ≠ slot.address definitions

section Staying

variable {definitions older : List Definition} {memory memory' : Memory} {definition : Definition}
variable {values values' : String → ℕ → Value} {address : Address} {slot : Slot} {name : String}

/-- Behind the codeword only slots depend on the values. -/
theorem getElem?_cells_congr {n : ℕ}
    (hslot : ∀ size, definition.shape = .storage size → n = 0) :
    (definition.cells older values)[n]? = (definition.cells older values')[n]? := by
  unfold Definition.cells
  cases hshape : definition.shape with
  | storage size =>
      rw [hslot size hshape]
      rfl
  | constant v => rfl
  | word body => rfl

theorem slots_cons_self {size : ℕ} : slots (⟨name, .storage size⟩ :: older) name = size := by
  simp [slots]

/-- A new definition leaves the slots of the older ones where they are. -/
theorem slot_cons (hnew : definition.name ∉ older.map Definition.name)
    (hslot : slot.index < slots older slot.name) :
    slots (definition :: older) slot.name = slots older slot.name ∧
      slot.address (definition :: older) = slot.address older := by
  obtain ⟨_, _, -, hsuffix, -⟩ := exists_storage_of_lt_slots hslot
  have hother : definition.name ≠ slot.name := name_ne_of_suffix hnew hsuffix
  constructor
  · simp only [slots, List.find?_cons, hother, decide_false]
  · simp only [Slot.address, addressOf, if_neg hother]

/-- **Whatever the slots hold, all other cells of the definitions are the same.** -/
theorem Memory.Represents.get_of_isFixed (h : memory.Represents values definitions)
    (h' : memory'.Represents values' definitions)
    (hdistinct : (definitions.map Definition.name).Nodup)
    (hroom : (past definitions : ℤ) ≤ Int64.maxValue.toInt) (hfixed : IsFixed definitions address) :
    memory'.get address = memory.get address := by
  obtain ⟨hlow, hhigh, hnone⟩ := hfixed
  induction definitions with
  | nil => exact absurd (Int.lt_of_lt_of_le hhigh hlow) (Int.lt_irrefl _)
  | cons definition older ih =>
      rw [List.map_cons, List.nodup_cons] at hdistinct
      obtain ⟨hnew, hdistinct⟩ := hdistinct
      have hpast : past (definition :: older) = past older + definition.shape.size := rfl
      rcases Int.lt_or_le address.toInt (past older) with hbelow | hinside
      · refine ih h.2 h'.2 hdistinct (by omega) hbelow fun slot hslot => ?_
        obtain ⟨hslots, haddress⟩ := slot_cons hnew hslot
        rw [← haddress]
        exact hnone slot (hslots ▸ hslot)
      · -- the cell is in this definition
        obtain ⟨n, hn⟩ := Int.le.dest hinside
        have hplace : (Int64.ofNat (past older)).toInt = past older := toInt_past (by omega)
        have haddress : address = Int64.ofNat (past older) + Int64.ofNat n := by
          rw [← Int64.toInt_inj, Address.toInt_add_ofNat (by omega), hplace, hn]
        have hcodeword : ∀ size, definition.shape = .storage size → n = 0 := by
          obtain ⟨name, shape⟩ := definition
          rintro size rfl
          rcases n with _ | k
          · rfl
          · have hshape : (Shape.storage size).size = size + 1 := rfl
            have hk : k < slots (⟨name, .storage size⟩ :: older) name := by
              rw [slots_cons_self]
              dsimp only at hpast
              omega
            refine absurd ?_ (hnone ⟨name, some k⟩ hk)
            rw [haddress, Slot.address, addressOf, if_pos rfl, Address.add_one_add_ofNat]
            rfl
        have hlt : n < (definition.cells older values).length := by
          rw [length_cells]
          omega
        have hcell := List.getElem?_eq_getElem hlt
        rw [haddress, h.1.get hcell, h'.1.get ((getElem?_cells_congr hcodeword).trans hcell)]

end Staying

end ThreadedForth
