import ThreadedForth.Proofs.OuterLoop.Items
import ThreadedForth.Proofs.Storage.Defining
import ThreadedForth.Proofs.Storage.Working

/-!
# Reading uses of storage

At the prompt an item is executed at once, and in a definition it is compiled.  `State.Reads` says
which instruction it stands for, and that is all that the two ways have to know of it.

`State.Shows` is the relation between machine and inventory: the machine is at the prompt, its
memory reflects the definitions and the values, its names mean what the inventory says, and the desk
is the same.  From this it follows that a use is read as the instructions of its action
(`State.Shows.reads`).
-/

namespace ThreadedForth

open Definition Effect

/-! ## Items and instructions -/

/-- The item stands for that instruction. -/
inductive State.Reads (s : State) : Item → Instruction → Prop
  | literal {token v} (h : s.classify token = .ok (.literal v)) :
      s.Reads (.token token) (.literal v)
  | call {token entry} (h : s.dictionary.findVisible? token = some entry)
      (himmediate : entry.immediate = false) : s.Reads (.token token) (.call entry.address)
  | string {text} (h : s.dictionary.Resolves "S\"" (kernelAddress "S\"") true) :
      s.Reads (.string text) (.literal (.string text))

section Instructions

variable {s t : State} {here : Address} {base : Cell} {item : Item} {items : List Item}
variable {instruction : Instruction} {instructions : List Instruction} {rest : Input}
variable {memory : Memory} {desk : Desk}

/-- What items stand for depends on what names mean and on the radix. -/
theorem State.Reads.congr (h : s.Reads item instruction)
    (hagrees : t.dictionary.AgreesWith s.dictionary)
    (hbase : t.memory.get Variable.base.address = s.memory.get Variable.base.address) :
    t.Reads item instruction := by
  cases h with
  | literal hmeaning => exact .literal ((classify_congr (hagrees _) hbase).trans hmeaning)
  | call hfind himmediate => exact .call ((hagrees _).trans hfind) himmediate
  | string hquote =>
      obtain ⟨entry, hfind, hentry⟩ := hquote
      exact .string ⟨entry, (hagrees _).trans hfind, hentry⟩

/-- In a definition the cells of the instruction are appended. -/
theorem compiles_read (hs : s.IsCompiling .standard here) (h : s.Reads item instruction)
    (hnext : item.IsNext s.input rest)
    (hroom : here.toInt + instruction.cells.length ≤ Int64.maxValue.toInt) :
    s.Compiles standardTable here instruction.cells rest := by
  cases h with
  | literal hmeaning =>
      cases hnext with
      | token hread => exact compiles_literal hs hread hmeaning hroom
  | call hfind himmediate =>
      cases hnext with
      | token hread => exact compiles_word hs hread (classify_word hfind) himmediate hroom
  | string hquote => exact compiles_string hs hquote hnext hroom

theorem compiles_reads (hs : s.IsCompiling .standard here)
    (hreads : List.Forall₂ s.Reads items instructions)
    (hdelivers : s.input.Delivers items rest)
    (hroom : here.toInt + (instructions.flatMap Instruction.cells).length ≤ Int64.maxValue.toInt) :
    s.Compiles standardTable here (instructions.flatMap Instruction.cells) rest := by
  let P := fun (s : State) item cells => ∃ instruction, s.Reads item instruction ∧
    instruction.cells = cells
  have hitems : List.Forall₂ (P s) items (instructions.map Instruction.cells) :=
    List.forall₂_map_right_iff.mpr (hreads.imp fun _ instruction h => ⟨instruction, h, rfl⟩)
  refine compiles_all (P := P) ?_ ?_ hs hitems hdelivers hroom
  · rintro s here item _ rest hs ⟨instruction, hreads, rfl⟩ hnext hroom
    exact compiles_read hs hreads hnext hroom
  · rintro s item _ memory input ⟨instruction, hreads, rfl⟩ hbase
    exact ⟨instruction, hreads.congr (fun _ => rfl) hbase, rfl⟩

/-- At the prompt the instruction does at once what it does. -/
theorem reaches_acts (hs : s.IsInterpreting base) (h : s.Reads item instruction)
    (hnext : item.IsNext s.input rest) (hacts : instruction.Acts s.memory s.desk memory desk)
    (hmemory : memory.IsIntact .standard) :
    Reaches standardTable s { s.holding memory desk with input := rest } := by
  have hsame : (⟨s.output.text, none⟩ : Output) = s.output := by rw [← hs.sink]
  cases h with
  | literal hmeaning =>
      cases hnext with
      | token hread =>
          cases hacts with
          | literal => exact interprets_literal hs hread hmeaning
  | @call token entry hfind himmediate =>
      cases hnext with
      | token hread =>
          cases hacts with
          | call hworks =>
              have hjump := quiet_jump hs.toAtPrompt hread hfind hs.mode (.inl rfl)
              have hmove := hworks { s with input := rest } s.nip hs.depth hs.halt
              unfold State.holding State.desk at hmove
              rw [hsame] at hmove
              have hback := reaches_prompted (s := { s.holding memory desk with
                input := rest, ip := s.nip }) ⟨hs.depth, hs.halt, hmemory.toHasPrimitives⟩ hmemory
                hs.nip
              rw [State.prompted, ← hs.ip, ← hs.nip] at hback
              exact ((Reaches.single hjump).trans hmove).trans hback
  | @string text hquote =>
      cases hnext with
      | @string _ _ middle _ hread htext =>
          cases hacts with
          | literal =>
              obtain ⟨entry, hfind, haddress, -⟩ := hquote
              have hword : vocabulary[53]? =
                some { name := "S\"", immediate := true, effect := Words.stringQuote } := rfl
              let desk := { s.desk with parameters := s.desk.parameters.push (.string text) }
              have heffect : Words.stringQuote { s with input := middle, ip := entry.address } =
                  .ok () { s.served rest desk with ip := entry.address } := by
                unfold desk State.served State.desk
                rw [hsame]
                exact stringQuote_ok htext hs.mode
              exact reaches_served hs hread hfind haddress hword rfl heffect

/-- Instructions that are read one after the other do what they do in a row. -/
theorem reaches_does (hs : s.IsInterpreting base)
    (hreads : List.Forall₂ s.Reads items instructions) (hdelivers : s.input.Delivers items rest)
    (hdoes : Does instructions s.memory s.desk memory desk) (hmemory : memory.IsIntact .standard) :
    Reaches standardTable s { s.holding memory desk with input := rest } := by
  induction instructions generalizing s items with
  | nil => cases hdoes
  | cons instruction instructions ih =>
      obtain ⟨item, items, hitem, hmore, rfl⟩ := List.forall₂_cons_right_iff.mp hreads
      obtain ⟨middle, hnext, hdelivers⟩ := Input.delivers_cons hdelivers
      cases hdoes with
      | last hacts =>
          cases hmore
          cases hdelivers
          exact reaches_acts hs hitem hnext hacts hmemory
      | @cons _ _ _ _ between _ _ hacts hrest =>
          have hfirst := reaches_acts hs hitem hnext hacts hs.memory
          have hlater : List.Forall₂ (s.served middle between).Reads items instructions :=
            hmore.imp fun _ _ h => h.congr (fun _ => rfl) rfl
          exact hfirst.trans (ih (hs.served middle between) hlater hdelivers hrest)

end Instructions

/-! ## Machines and inventories -/

/-- The entry that a token names: that of the program's definition, or else the one that a machine
has which was just set up. -/
def Definition.lookUp? (definitions : List Definition) (token : String) : Option Entry :=
  match named? definitions token with
  | some definition =>
    some ⟨definition.name, addressOf definitions definition.name, false, false⟩
  | none => Machine.booted.state.dictionary.findVisible? token

/-- Where the next definition begins. -/
abbrev Inventory.here (inventory : Inventory) : Address := Int64.ofNat (past inventory.definitions)

/-- The machine is at the prompt, and has what is in the inventory. -/
structure State.Shows (s : State) (inventory : Inventory) : Prop
    extends s.IsInterpreting (.literal (.int 10)) where
  kernel : s.kernel? = some standardKernel
  next : s.memory.get Variable.here.address = .literal (.int inventory.here)
  reflects : s.memory.Reflects inventory.definitions inventory.storage.values
  names : ∀ token, s.dictionary.findVisible? token = lookUp? inventory.definitions token
  desk : s.desk = inventory.storage.desk

section Showing

variable {definitions : List Definition} {s : State} {inventory : Inventory} {token : String}
variable {place : Place} {slot : Slot} {action : Action} {request : Request}

theorem State.Shows.toInt_here (hs : s.Shows inventory) :
    inventory.here.toInt = past inventory.definitions :=
  toInt_past hs.reflects.room

theorem eq_none_of_isFree (h : isFree definitions token = true) :
    named? definitions token = none :=
  Option.isNone_iff_eq_none.mp h

/-- A token that the program did not define means what it meant at the beginning. -/
theorem State.Shows.findVisible?_of_isFree (hs : s.Shows inventory)
    (h : isFree inventory.definitions token = true) :
    s.dictionary.findVisible? token = Machine.booted.state.dictionary.findVisible? token := by
  rw [hs.names, lookUp?, eq_none_of_isFree h]

theorem State.Shows.classify_eq (hs : s.Shows inventory) {meaning : Meaning}
    (h : meaning? inventory.definitions token = some meaning) :
    s.classify token = .ok meaning := by
  obtain ⟨-, -, hbase⟩ := Machine.variables_booted
  unfold meaning? at h
  split at h
  · rename_i hfree
    rw [classify_congr (hs.findVisible?_of_isFree hfree) (hs.base.trans hbase.symm)]
    cases hclassify : Machine.booted.state.classify token with
    | error _ => simp [hclassify, Except.toOption] at h
    | ok found =>
        rw [hclassify] at h
        exact congrArg Except.ok (Option.some.inj h)
  · cases h

/-- A token that is a count is an integer. -/
theorem meaning?_of_count? {n : ℕ} (h : count? definitions token = some n) :
    meaning? definitions token = some (.literal (.int (Int64.ofNat n))) := by
  unfold count? at h
  split at h
  · rename_i v hmeaning
    split at h
    · rename_i hpositive
      cases h
      have hmax : v.toInt ≤ 9223372036854775807 := v.toInt_le
      have hsame : Int64.ofNat v.toInt.toNat = v := by
        rw [← Int64.toInt_inj, Int64.toInt_ofNat_of_lt (by omega)]
        exact Int.toNat_of_nonneg hpositive
      rw [hmeaning, hsame]
    · cases h
  · cases h

/-- A token that means a word names it. -/
theorem findVisible?_of_classify {entry : Entry} (h : s.classify token = .ok (.word entry)) :
    s.dictionary.findVisible? token = some entry := by
  unfold State.classify at h
  split at h
  · rename_i found hfound
    cases h
    exact hfound
  · cases hradix : s.base with
    | error _ =>
        rw [hradix] at h
        cases h
    | ok radix =>
        simp only [hradix, bind, Except.bind] at h
        split at h
        · cases h
        · split at h <;> cases h

/-- The kernel and the library are found under their names. -/
theorem State.Shows.resolves (hs : s.Shows inventory) (position : ℕ)
    (h : position < vocabulary.length) (hvisible : vocabulary[position].hidden = false)
    (hfree : isFree inventory.definitions vocabulary[position].name = true) :
    s.dictionary.Resolves vocabulary[position].name (primitiveAddress position)
      vocabulary[position].immediate := by
  have hfind := Machine.findVisible?_booted position h hvisible
  exact ⟨_, (hs.findVisible?_of_isFree hfree).trans hfind, rfl, rfl⟩

theorem State.Shows.reads_primitive (hs : s.Shows inventory) (position : ℕ)
    (h : position < vocabulary.length) (hvisible : vocabulary[position].hidden = false)
    (hpassive : vocabulary[position].immediate = false)
    (hfree : isFree inventory.definitions vocabulary[position].name = true) :
    s.Reads (.token vocabulary[position].name) (.call (primitiveAddress position)) := by
  obtain ⟨entry, hfind, haddress, himmediate⟩ := hs.resolves position h hvisible hfree
  rw [← haddress]
  exact .call hfind (himmediate.trans hpassive)

/-- A name that the program defined is called at its address. -/
theorem State.Shows.reads_named (hs : s.Shows inventory) {definition : Definition}
    (h : named? inventory.definitions token = some definition) :
    s.Reads (.token token) (.call (addressOf inventory.definitions definition.name)) := by
  have hfind := hs.names token
  rw [lookUp?, h] at hfind
  exact .call hfind rfl

/-- A place is read as what pushes the address of its slot. -/
theorem State.Shows.reads_slot (hs : s.Shows inventory)
    (h : place.slot? inventory.definitions = some slot) :
    List.Forall₂ s.Reads place.items (slot.instructions inventory.definitions) := by
  unfold Place.slot? at h
  unfold Place.items
  split at h
  · rename_i hnamed hoffset
    cases h
    rw [hoffset]
    exact .cons (hs.reads_named hnamed) .nil
  · rename_i index hnamed hoffset
    split at h
    · rename_i hplus
      obtain ⟨offset, hcount, rfl⟩ := Option.map_eq_some_iff.mp h
      have hindex : s.Reads (.token index) (.literal (.int (Int64.ofNat offset))) :=
        .literal (hs.classify_eq (meaning?_of_count? hcount))
      rw [hoffset]
      exact .cons (hs.reads_named hnamed) (.cons hindex
        (.cons (hs.reads_primitive 58 (by decide) rfl rfl hplus) .nil))
    · cases h
  · cases h

/-- A use of a place is read as the instructions of the slot and a call of the word. -/
theorem State.Shows.reads_place (hs : s.Shows inventory) (position : ℕ)
    (h : position < vocabulary.length) (hvisible : vocabulary[position].hidden = false)
    (hpassive : vocabulary[position].immediate = false) {make : Slot → Action}
    (haction : place.action? inventory.definitions vocabulary[position].name make = some action) :
    ∃ slot, make slot = action ∧ List.Forall₂ s.Reads
      (place.items ++ [.token vocabulary[position].name])
      (slot.instructions inventory.definitions ++ [.call (primitiveAddress position)]) := by
  unfold Place.action? at haction
  split at haction
  · rename_i hfree
    obtain ⟨slot, hslot, hmake⟩ := Option.map_eq_some_iff.mp haction
    have hword := hs.reads_primitive position h hvisible hpassive hfree
    exact ⟨slot, hmake, List.rel_append (hs.reads_slot hslot) (.cons hword .nil)⟩
  · cases haction

/-- **A use is read as the instructions of its action.** -/
theorem State.Shows.reads (hs : s.Shows inventory)
    (h : request.action? inventory.definitions = some action) :
    List.Forall₂ s.Reads request.items (action.instructions inventory.definitions) := by
  cases request with
  | token text =>
      rw [Request.action?] at h
      split at h
      · cases h
      · rename_i hnamed
        cases h
        exact .cons (hs.reads_named hnamed) .nil
      · rename_i v _ hmeaning
        cases h
        exact .cons (.literal (hs.classify_eq hmeaning)) .nil
      · rename_i entry _ hmeaning
        split at h
        · cases h
        · rename_i hpassive
          cases h
          have hfind := findVisible?_of_classify (hs.classify_eq hmeaning)
          exact .cons (.call hfind (Bool.not_eq_true _ ▸ hpassive)) .nil
      · cases h
  | string text =>
      rw [Request.action?] at h
      split at h
      · rename_i hfree
        cases h
        exact .cons (.string (hs.resolves 53 (by decide) rfl hfree)) .nil
      · cases h
  | fetch place =>
      obtain ⟨slot, rfl, hreads⟩ := hs.reads_place 14 (by decide) rfl rfl h
      exact hreads
  | store place =>
      obtain ⟨slot, rfl, hreads⟩ := hs.reads_place 15 (by decide) rfl rfl h
      exact hreads
  | add place =>
      obtain ⟨slot, rfl, hreads⟩ := hs.reads_place 70 (by decide) rfl rfl h
      exact hreads

end Showing

end ThreadedForth
