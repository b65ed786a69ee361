import ThreadedForth.Proofs.Storage.Layout
import ThreadedForth.Proofs.Structured.Execution

/-!
# Words at work

Whoever calls a word sees what has become of memory and of the desk when the word comes back, and it
does not matter to the word who calls it.  `Works` says this of an address, be it that of a
primitive, of a variable, of a constant or of a definition, and `Does` says it of a row of
instructions, wherever they are.

So what an action does is the same in a definition and at the prompt.  `Realizes` compares it with
the inventory: from any memory that reflects the values before, a memory is reached that reflects
the values after.

## Strategy

* **An action** (`realizes_action`).  The slot's address is pushed by instructions that leave memory
  alone, and only the last instruction may write.
* **A body** (`realizes_body`).  Its cells are in every memory that reflects the inventory, so they
  are still there when an action has written.
* **A call** (`realizes_call`).  The induction is on the list of definitions, as the recursion of
  `Definition.run` is.
-/

namespace ThreadedForth

open Definition Effect

/-! ## Coming back -/

/-- The state with a memory and a desk. -/
def State.holding (s : State) (memory : Memory) (desk : Desk) : State :=
  { s with memory, parameters := desk.parameters, output := ⟨desk.text, none⟩ }

/-- Whoever calls the address, the machine comes back with another memory and another desk. -/
def Works (target : Address) (memory : Memory) (desk : Desk) (memory' : Memory) (desk' : Desk) :
    Prop :=
  ∀ (s : State) (nip : Address), s.depth ≠ 0 → s.halt? = none →
    Reaches standardTable { s.holding memory desk with ip := target, nip }
      { s.holding memory' desk' with ip := nip, nip }

section Words

variable {memory memory' : Memory} {desk desk' : Desk} {rest : Stack .parameter} {text : String}
variable {start address : Address} {v : Value}

/-- A primitive works as its effect does. -/
theorem works_of_effect {position : ℕ} {word : Primitive}
    (hword : vocabulary[position]? = some word) (hcontrol : word.control = .advance)
    (hmemory : memory.HasPrimitives .standard) (hmemory' : memory'.HasPrimitives .standard)
    (heffect : ∀ s : State,
      word.effect (s.holding memory desk) = .ok () (s.holding memory' desk')) :
    Works (primitiveAddress position) memory desk memory' desk' := by
  intro s nip _ hhalt
  have hcalled := heffect { s with ip := primitiveAddress position, nip }
  exact reaches_advance hword hcontrol rfl hmemory hcalled hhalt hmemory'

/-- A word that only computes works on the desk. -/
theorem works_computing {position : ℕ} {word : Primitive}
    (hword : vocabulary[position]? = some word) (hcomputing : word ∈ computingWords)
    (hmemory : memory.HasPrimitives .standard)
    (hbase : memory.get Variable.base.address = .literal (.int 10))
    {parameters : Stack .parameter} {written : String}
    (halone : word.effect.alone (.literal (.int 10)) desk.parameters = .ok (parameters, written)) :
    Works (primitiveAddress position) memory desk memory ⟨parameters, desk.text ++ written⟩ := by
  obtain ⟨hcontrol, hlocal⟩ := computes_of_mem_computingWords hcomputing
  apply works_of_effect hword hcontrol hmemory hmemory
  intro s
  exact hlocal.apply_ok (s := s.holding memory desk) hbase rfl halone

theorem works_plus (hmemory : memory.HasPrimitives .standard) (rest : Stack .parameter)
    (text : String)
    (a b : Int64) :
    Works (libraryAddress "+") memory ⟨(rest.push (.int a)).push (.int b), text⟩ memory
      ⟨rest.push (.int (a + b)), text⟩ := by
  have hword : vocabulary[58]? =
    some { name := "+", effect := Words.arithmetic Number.plus } := rfl
  exact works_of_effect hword rfl hmemory hmemory fun _ => rfl

theorem works_fetch (hmemory : memory.HasPrimitives .standard)
    (hcell : memory.get address = .literal v) :
    Works (kernelAddress "@") memory ⟨rest.push (.int address), text⟩ memory
      ⟨rest.push v, text⟩ := by
  have hword : vocabulary[14]? = some { name := "@", effect := Words.fetch } := rfl
  apply works_of_effect hword rfl hmemory hmemory
  intro s
  let before : State := s.holding memory ⟨rest.push (.int address), text⟩
  have hfetch : before.fetch address = .ok v := by
    rw [State.fetch, show before.memory.get address = .literal v from hcell]
    rfl
  have htop : before.topInt = .ok address := rfl
  change Words.fetch before = _
  rw [Words.fetch, topInt, bind_ok (examine_ok htop), bind_ok (examine_ok hfetch),
    bind_ok (Words.discard_pop_ok rfl)]
  rfl

theorem works_store (hmemory : memory.HasPrimitives .standard)
    (hmemory' : (memory.set address (.literal v)).HasPrimitives .standard) :
    Works (kernelAddress "!") memory ⟨(rest.push v).push (.int address), text⟩
      (memory.set address (.literal v)) ⟨rest, text⟩ := by
  have hword : vocabulary[15]? = some { name := "!", effect := Words.store } := rfl
  exact works_of_effect hword rfl hmemory hmemory' fun _ => rfl

theorem works_plusStore {n held : Int64} (hmemory : memory.HasPrimitives .standard)
    (hcell : memory.get address = .literal (.int held))
    (hmemory' : (memory.set address (.literal (.int (held + n)))).HasPrimitives .standard) :
    Works (libraryAddress "+!") memory ⟨(rest.push (.int n)).push (.int address), text⟩
      (memory.set address (.literal (.int (held + n)))) ⟨rest, text⟩ := by
  have hword : vocabulary[70]? = some { name := "+!", effect := Words.plusStore } := rfl
  apply works_of_effect hword rfl hmemory hmemory'
  intro s
  let before : State := s.holding memory ⟨(rest.push (.int n)).push (.int address), text⟩
  have hfetch : before.fetch address = .ok (.int held) := by
    rw [State.fetch, show before.memory.get address = .literal (.int held) from hcell]
    rfl
  have htop : before.topInt = .ok address := rfl
  have hsecond : before.parameters.pick 1 = .ok (.int n) := rfl
  have hnumber : ∀ m : Int64, (Value.int m).toNumber = .ok (.int m) := fun _ => rfl
  change Words.plusStore before = _
  rw [Words.plusStore, pick, bind_ok (examine_ok hsecond), bind_ok (lift_ok (hnumber n)), topInt,
    bind_ok (examine_ok htop), bind_ok (examine_ok hfetch), bind_ok (lift_ok (hnumber held)),
    bind_ok (Words.discard_pop_ok rfl), bind_ok (Words.discard_pop_ok rfl)]
  rfl

/-- A variable or a buffer pushes the address behind its codeword. -/
theorem works_storage (hcell : memory.get start = .native standardKernel.dovar) :
    Works start memory desk memory
      { desk with parameters := desk.parameters.push (.int (start + 1)) } := by
  intro s nip _ hhalt
  have hword : vocabulary[29]? =
    some { name := "(DOVAR)", hidden := true, control := .owned, effect := Words.dovar } := rfl
  apply Reaches.single
  rw [Quiet, step_owned (s := { s.holding memory desk with ip := start, nip }) hcell
    (lookup_standardTable hword) rfl rfl]
  exact congrArg₂ EStateM.Result.ok hhalt (State.with_halt_none hhalt)

/-- A constant pushes the value behind its codeword. -/
theorem works_constant (hcells : memory.Holds start [.native standardKernel.docon, .literal v]) :
    Works start memory desk memory { desk with parameters := desk.parameters.push v } := by
  intro s nip _ hhalt
  let before : State := { s.holding memory desk with ip := start, nip }
  have hword : vocabulary[30]? =
    some { name := "(DOCON)", hidden := true, control := .owned, effect := Words.docon } := rfl
  have hread : before.literalAt (start + 1) = .ok v := by
    rw [State.literalAt, show before.memory.get (start + 1) = .literal v from hcells.2.1]
    rfl
  have heffect : Words.docon before =
      .ok () { before with ip := nip, parameters := desk.parameters.push v } := by
    rw [Words.docon, get_bind, bind_ok (examine_ok hread)]
    rfl
  apply Reaches.single
  rw [Quiet, step_owned (s := before) hcells.1 (lookup_standardTable hword) rfl heffect]
  exact congrArg₂ EStateM.Result.ok hhalt (State.with_halt_none hhalt)

end Words

/-! ## Instructions -/

/-- What an instruction does, wherever it is. -/
inductive Instruction.Acts : Instruction → Memory → Desk → Memory → Desk → Prop
  | literal {v memory desk} :
      (literal v).Acts memory desk memory { desk with parameters := desk.parameters.push v }
  | call {target memory desk memory' desk'} (h : Works target memory desk memory' desk') :
      (call target).Acts memory desk memory' desk'

/-- What instructions do, of which only the last one may write to memory. -/
inductive Does : List Instruction → Memory → Desk → Memory → Desk → Prop
  | last {instruction memory desk memory' desk'}
      (h : instruction.Acts memory desk memory' desk') :
      Does [instruction] memory desk memory' desk'
  | cons {instruction rest memory desk desk' memory'' desk''}
      (h : instruction.Acts memory desk memory desk')
      (hrest : Does rest memory desk' memory'' desk'') :
      Does (instruction :: rest) memory desk memory'' desk''

section Doing

variable {memory memory' : Memory} {desk desk' middle : Desk} {instruction : Instruction}
variable {first second : List Instruction} {instructions : List Instruction} {a : Address}

theorem Does.append (h : Does first memory desk memory middle)
    (h' : Does second memory middle memory' desk') :
    Does (first ++ second) memory desk memory' desk' := by
  induction first generalizing desk with
  | nil => cases h
  | cons instruction rest ih =>
      cases h with
      | last hacts => exact .cons hacts h'
      | cons hacts hrest => exact .cons hacts (ih hrest)

/-- An instruction is executed, and the one behind it is next. -/
theorem Instruction.Acts.reaches (h : instruction.Acts memory desk memory' desk')
    (hmemory : memory.HasPrimitives .standard) (hcells : memory.Holds a instruction.cells)
    {s : State}
    (hdepth : s.depth ≠ 0) (hhalt : s.halt? = none) (nip : Address) :
    ∃ nip', Reaches standardTable { s.holding memory desk with ip := a, nip }
      { s.holding memory' desk' with
        ip := a + Int64.ofNat instruction.cells.length, nip := nip' } := by
  have hcode : State.InCode { s.holding memory desk with ip := a, nip } .standard :=
    ⟨hdepth, hhalt, hmemory⟩
  cases h with
  | @literal v =>
      have hmove := reaches_lit hcode hcells.1 hcells.2.1
      have hpast : a + 1 + 1 = a + Int64.ofNat 2 := by grind
      refine ⟨a + 1 + 1, ?_⟩
      change Reaches standardTable _
        { s.holding memory _ with ip := a + Int64.ofNat 2, nip := a + 1 + 1 }
      rw [← hpast]
      exact hmove
  | call hworks =>
      have hcall := quiet_reference hcode hcells.1
      exact ⟨a + 1, (Reaches.single hcall).trans (hworks s (a + 1) hdepth hhalt)⟩

theorem Does.reaches (h : Does instructions memory desk memory' desk')
    (hmemory : memory.HasPrimitives .standard)
    (hcells : memory.Holds a (instructions.flatMap Instruction.cells)) {s : State}
    (hdepth : s.depth ≠ 0) (hhalt : s.halt? = none) (nip : Address) :
    ∃ nip', Reaches standardTable { s.holding memory desk with ip := a, nip }
      { s.holding memory' desk' with
        ip := a + Int64.ofNat (instructions.flatMap Instruction.cells).length, nip := nip' } := by
  induction h generalizing a nip with
  | last hacts =>
      rw [List.flatMap_cons, List.flatMap_nil, List.append_nil] at hcells ⊢
      exact hacts.reaches hmemory hcells hdepth hhalt nip
  | cons hacts _ ih =>
      rw [List.flatMap_cons] at hcells ⊢
      obtain ⟨hfirst, hrest⟩ := Memory.holds_append.mp hcells
      obtain ⟨nip', hmove⟩ := hacts.reaches hmemory hfirst hdepth hhalt nip
      obtain ⟨nip'', hmoves⟩ := ih hmemory hrest nip'
      rw [Address.add_ofNat_add] at hmoves
      rw [List.length_append]
      exact ⟨nip'', hmove.trans hmoves⟩

end Doing

/-! ## Actions -/

/-- From every memory that reflects the values before, this leads to one that reflects the values
after, and nothing below the definitions is written. -/
def Realizes (definitions : List Definition) (way : Memory → Desk → Memory → Desk → Prop)
    (before after : Storage) : Prop :=
  ∀ memory : Memory, memory.Reflects definitions before.values →
    ∃ memory', way memory before.desk memory' after.desk ∧
      memory'.Reflects definitions after.values ∧ memory.SameBelow memory'

section Realizing

variable {definitions older : List Definition} {before after : Storage} {name : String}
variable {memory : Memory} {desk : Desk} {slot : Slot} {values : String → ℕ → Value}
variable {call : String → Storage → Option Storage}

/-- What leaves the values alone may leave memory alone. -/
theorem Realizes.of_values {way : Memory → Desk → Memory → Desk → Prop}
    (hvalues : after.values = before.values)
    (hway : ∀ memory : Memory, memory.Reflects definitions before.values →
      way memory before.desk memory after.desk) : Realizes definitions way before after := by
  intro memory hmemory
  refine ⟨memory, hway memory hmemory, ?_, .refl memory⟩
  rw [hvalues]
  exact hmemory

/-- The instructions of a slot push the address of its cell. -/
theorem does_slot (hmemory : memory.Reflects definitions values) (holder : older <:+ definitions)
    (hslot : slot.index < slots older slot.name) :
    Does (slot.instructions older) memory desk memory
      { desk with parameters := desk.parameters.push (.int (slot.address older)) } := by
  obtain ⟨size, oldest, -, hsuffix, haddress⟩ := exists_storage_of_lt_slots hslot
  obtain ⟨⟨hcodeword, -⟩, -⟩ := hmemory.cells.of_suffix (hsuffix.trans holder)
  rw [← haddress] at hcodeword
  have hstart : Works (addressOf older slot.name) memory desk memory _ := works_storage hcodeword
  unfold Slot.instructions Slot.address Slot.index
  cases slot.offset? with
  | none =>
      have hnone : addressOf older slot.name + 1 + Int64.ofNat ((none : Option ℕ).getD 0) =
          addressOf older slot.name + 1 := Address.add_ofNat_zero _
      rw [hnone]
      exact .last (.call hstart)
  | some offset =>
      have hplus := works_plus hmemory.toHasPrimitives desk.parameters desk.text
        (addressOf older slot.name + 1) (Int64.ofNat offset)
      exact .cons (.call hstart) (.cons .literal (.last (.call hplus)))

/-- Instructions that push the address of a slot, and a word that writes there, write to the
slot. -/
theorem realizes_write {word : Address} {rest : Stack .parameter} {v : Value}
    (holder : older <:+ definitions) (hslot : slot.index < slots older slot.name)
    (hworks : ∀ memory : Memory, memory.Reflects definitions before.values →
      (memory.set (slot.address older) (.literal v)).HasPrimitives .standard →
      Works word memory
        { before.desk with
          parameters := before.desk.parameters.push (.int (slot.address older)) }
        (memory.set (slot.address older) (.literal v)) { before.desk with parameters := rest }) :
    Realizes definitions (Does (slot.instructions older ++ [.call word])) before
      ((before.leave rest).write slot v) := by
  intro memory hmemory
  obtain ⟨hreflects, hbelow⟩ := hmemory.write holder hslot v
  have hwrites := hworks memory hmemory hreflects.toHasPrimitives
  exact ⟨_, (does_slot hmemory holder hslot).append (.last (.call hwrites)), hreflects, hbelow⟩

/-- A word of the library that was found at an address is there. -/
theorem exists_position_of_computingWordAt? {address : Address} {word : Primitive}
    (h : computingWordAt? address = some word) : ∃ position, vocabulary[position]? = some word ∧
      address = primitiveAddress position ∧ word ∈ computingWords := by
  unfold computingWordAt? at h
  rw [Option.map_eq_some_iff] at h
  obtain ⟨⟨found, index⟩, hfind, rfl⟩ := h
  have hmem := List.mem_of_find?_eq_some hfind
  have htest := List.find?_some hfind
  rw [decide_eq_true_eq] at htest
  obtain ⟨haddress, hname⟩ := htest
  have hword : libraryWords[index]? = some found := List.mk_mem_zipIdx_iff_getElem?.mp hmem
  refine ⟨kernelWords.length + index, ?_, haddress.symm, ?_⟩
  · change (kernelWords ++ libraryWords)[_]? = _
    rw [List.getElem?_append_right (Nat.le_add_right _ _), Nat.add_sub_cancel_left]
    exact hword
  · refine List.mem_append.mpr (.inr (List.mem_filter.mpr ⟨List.mem_of_getElem? hword, ?_⟩))
    exact decide_eq_true hname

/-- **What an action is compiled to does what the action does.** -/
theorem realizes_action {action : Action} (holder : older <:+ definitions)
    (hcall : ∀ name before after, call name before = some after →
      Realizes definitions (Works (addressOf older name)) before after)
    (hrun : action.run older call before = some after) :
    Realizes definitions (Does (action.instructions older)) before after := by
  cases action with
  | push v =>
      cases hrun
      exact .of_values rfl fun _ _ => .last .literal
  | word address =>
      rw [Action.run] at hrun
      split at hrun
      · rename_i word hword
        split at hrun
        · rename_i parameters text halone
          cases hrun
          obtain ⟨position, hposition, rfl, hcomputing⟩ := exists_position_of_computingWordAt? hword
          refine .of_values rfl fun memory hmemory => .last (.call ?_)
          exact works_computing hposition hcomputing hmemory.toHasPrimitives hmemory.base halone
        · cases hrun
      · cases hrun
  | call name =>
      intro memory hmemory
      obtain ⟨memory', hworks, hreflects, hbelow⟩ := hcall name before after hrun memory hmemory
      exact ⟨memory', .last (.call hworks), hreflects, hbelow⟩
  | fetch slot =>
      rw [Action.run] at hrun
      split at hrun
      · rename_i hslot
        cases hrun
        refine .of_values rfl fun memory hmemory => ?_
        apply (does_slot hmemory holder hslot).append
        apply Does.last (.call _)
        exact works_fetch hmemory.toHasPrimitives (hmemory.read holder hslot)
      · cases hrun
  | store slot =>
      obtain ⟨values, ⟨⟨items⟩, text⟩⟩ := before
      rw [Action.run] at hrun
      rcases items with _ | ⟨v, rest⟩
      · cases hrun
      · dsimp only at hrun
        split at hrun
        · rename_i hslot
          cases hrun
          apply realizes_write holder hslot
          intro memory hmemory hwritten
          exact works_store hmemory.toHasPrimitives hwritten
        · cases hrun
  | add slot =>
      obtain ⟨values, ⟨⟨items⟩, text⟩⟩ := before
      rw [Action.run] at hrun
      split at hrun
      · rename_i n rest held hitems hheld
        subst hitems
        split at hrun
        · rename_i hslot
          cases hrun
          apply realizes_write holder hslot
          intro memory hmemory hwritten
          have hcell := hmemory.read holder hslot
          rw [hheld] at hcell
          exact works_plusStore hmemory.toHasPrimitives hcell hwritten
        · cases hrun
      · cases hrun

end Realizing

/-! ## Bodies and calls -/

/-- From one address the machine gets to another, with another memory and another desk. -/
def Passes (a past : Address) (memory : Memory) (desk : Desk) (memory' : Memory) (desk' : Desk) :
    Prop :=
  ∀ (s : State) (nip : Address), s.depth ≠ 0 → s.halt? = none →
    ∃ nip', Reaches standardTable { s.holding memory desk with ip := a, nip }
      { s.holding memory' desk' with ip := past, nip := nip' }

section Calling

variable {definitions older : List Definition} {before after : Storage} {name : String}
variable {memory memory' : Memory} {desk desk' : Desk} {start a : Address}
variable {call : String → Storage → Option Storage}

/-- A definition works as its body does. -/
theorem works_of_passes {body : List Instruction}
    (hcells : memory.Holds start (definitionCells standardKernel body))
    (hcells' : memory'.Holds start (definitionCells standardKernel body))
    (hmemory : memory.HasPrimitives .standard)
    (hmemory' : memory'.HasPrimitives .standard)
    (hpasses : Passes (start + 1)
      (start + 1 + Int64.ofNat (body.flatMap Instruction.cells).length) memory desk memory' desk') :
    Works start memory desk memory' desk' := by
  intro s nip hdepth hhalt
  obtain ⟨hdocol, -⟩ := hcells
  obtain ⟨-, hrest⟩ := hcells'
  obtain ⟨-, hexit, -⟩ := Memory.holds_append.mp hrest
  let inside : State := { s with returns := s.returns.push (.int nip), depth := s.depth + 1 }
  have hdeep : inside.depth ≠ 0 := Nat.succ_ne_zero _
  have hentered := quiet_docol (s := { s.holding memory desk with ip := start, nip })
    ⟨hdepth, hhalt, hmemory⟩ hdocol
  obtain ⟨nip', hbody⟩ := hpasses inside nip hdeep hhalt
  have hleft := reaches_exit (s := { inside.holding memory' desk' with
    ip := start + 1 + Int64.ofNat (body.flatMap Instruction.cells).length, nip := nip' })
    ⟨hdeep, hhalt, hmemory'⟩ hexit rfl
  exact ((Reaches.single hentered).trans hbody).trans hleft

/-- **A body does what its actions do one after the other.**  Its cells are part of the
definitions. -/
theorem realizes_body {body : List Action} (holder : older <:+ definitions)
    (hcall : ∀ name before after, call name before = some after →
      Realizes definitions (Works (addressOf older name)) before after)
    (hcells : ∀ memory values, Memory.Represents memory values definitions →
      memory.Holds a ((body.flatMap (·.instructions older)).flatMap Instruction.cells))
    (hrun : body.foldlM (fun storage action => action.run older call storage) before = some after) :
    Realizes definitions (Passes a (a + Int64.ofNat
      ((body.flatMap (·.instructions older)).flatMap Instruction.cells).length)) before after := by
  induction body generalizing before a with
  | nil =>
      cases hrun
      refine .of_values rfl fun memory _ s nip _ _ => ⟨nip, ?_⟩
      rw [List.flatMap_nil, List.flatMap_nil, List.length_nil, Address.add_ofNat_zero]
      exact .refl _
  | cons action body ih =>
      rw [List.foldlM_cons, Option.bind_eq_bind, Option.bind_eq_some_iff] at hrun
      obtain ⟨middle, haction, hbody⟩ := hrun
      simp only [List.flatMap_cons, List.flatMap_append] at hcells ⊢
      intro memory hmemory
      obtain ⟨between, hdoes, hbetween, hbelow⟩ :=
        realizes_action holder hcall haction memory hmemory
      obtain ⟨memory', hpasses, hreflects, hbelow'⟩ := ih
        (fun memory values hmemory => (Memory.holds_append.mp (hcells memory values hmemory)).2)
        hbody between hbetween
      obtain ⟨hfirst, -⟩ := Memory.holds_append.mp (hcells memory _ hmemory.cells)
      refine ⟨memory', fun s nip hdepth hhalt => ?_, hreflects, hbelow.trans hbelow'⟩
      obtain ⟨nip', hmove⟩ := hdoes.reaches hmemory.toHasPrimitives hfirst hdepth hhalt nip
      obtain ⟨nip'', hmoves⟩ := hpasses s nip' hdepth hhalt
      rw [Address.add_ofNat_add] at hmoves
      rw [List.length_append]
      exact ⟨nip'', hmove.trans hmoves⟩

/-- **Calling a name does what it stands for.** -/
theorem realizes_call (holder : older <:+ definitions)
    (hrun : Definition.run older name before = some after) :
    Realizes definitions (Works (addressOf older name)) before after := by
  induction older generalizing name before after with
  | nil => cases hrun
  | cons definition older ih =>
      have hsuffix : older <:+ definitions := (List.suffix_cons _ _).trans holder
      rw [Definition.run] at hrun
      unfold addressOf
      by_cases hname : definition.name = name
      · rw [if_pos hname] at hrun ⊢
        have hplace : ∀ memory values, Memory.Represents memory values definitions →
            memory.Holds (Int64.ofNat (past older)) (definition.cells older values) :=
          fun memory values hmemory => (hmemory.of_suffix holder).1
        unfold Definition.cells at hplace
        split at hrun
        · cases hrun
        · rename_i v hshape
          cases hrun
          rw [hshape] at hplace
          refine .of_values rfl fun memory hmemory => ?_
          exact works_constant (hplace memory _ hmemory.cells)
        · rename_i body hshape
          rw [hshape] at hplace
          have hbody := realizes_body hsuffix (fun _ _ _ hrun => ih hsuffix hrun)
            (fun memory values hmemory =>
              (Memory.holds_append.mp (hplace memory values hmemory).2).1) hrun
          intro memory hmemory
          obtain ⟨memory', hpasses, hreflects, hbelow⟩ := hbody memory hmemory
          refine ⟨memory', ?_, hreflects, hbelow⟩
          exact works_of_passes (hplace memory _ hmemory.cells) (hplace memory' _ hreflects.cells)
            hmemory.toHasPrimitives hreflects.toHasPrimitives hpasses
      · rw [if_neg hname] at hrun ⊢
        exact ih hsuffix hrun

end Calling

end ThreadedForth
