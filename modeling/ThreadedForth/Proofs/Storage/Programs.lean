import ThreadedForth.Proofs.Machine.AppendOnly
import ThreadedForth.Proofs.Storage.Reading

/-!
# Independent storage

Variables, constants and buffers lie in one flat memory together with the code of words, and what
keeps them apart is only where codewords are and how `HERE` is moved.  The theorem at the end says
that this is enough: a program that makes and uses them, in whatever order, does what the inventory
says, where every slot has a value of its own.

## Strategy

There is one lemma for each kind of statement, from one prompt that shows an inventory to the next
one that does.  The words that define something only differ in the cells that they append, so that
the new prompt is looked at once (`State.Shows.define`).  `CREATE` and `ALLOT` append the cells of
one definition, though they are two words with a token in between.
-/

namespace ThreadedForth

open Definition Effect

/-! ## Inventories that grow -/

section Growing

variable {definitions : List Definition} {inventory after final : Inventory} {name token : String}
variable {shape : Shape} {statement : Statement} {statements : List Statement}

theorem Inventory.eq_of_define? (h : inventory.define? name shape = some after) :
    isFree inventory.definitions name = true ∧ after =
      { definitions := ⟨Dictionary.fold name, shape⟩ :: inventory.definitions
        storage := inventory.storage.clear (Dictionary.fold name) } := by
  unfold define? at h
  split at h
  · rename_i hfree
    cases h
    exact ⟨hfree, rfl⟩
  · cases h

/-- A new definition takes the room that its shape needs. -/
theorem past_of_define? (h : inventory.define? name shape = some after) :
    past after.definitions = past inventory.definitions + shape.size := by
  obtain ⟨-, rfl⟩ := Inventory.eq_of_define? h
  rfl

/-- A definition takes its name over, and all other names mean what they meant. -/
theorem lookUp?_cons :
    lookUp? (⟨Dictionary.fold name, shape⟩ :: definitions) token =
      if Dictionary.fold name = Dictionary.fold token then
        some ⟨Dictionary.fold name, Int64.ofNat (past definitions), false, false⟩
      else lookUp? definitions token := by
  unfold lookUp? named?
  rw [List.find?_cons]
  by_cases hname : Dictionary.fold name = Dictionary.fold token
  · simp [hname, addressOf]
  · simp only [hname, decide_false, if_false]
    cases hfind : definitions.find? (·.name = Dictionary.fold token) with
    | none => rfl
    | some definition =>
        obtain ⟨hsame, -⟩ := exists_older_of_find? hfind
        have hother : Dictionary.fold name ≠ definition.name := hsame ▸ hname
        simp only [addressOf, if_neg hother]

theorem suffix_of_define? (h : inventory.define? name shape = some after) :
    inventory.definitions <:+ after.definitions := by
  obtain ⟨-, rfl⟩ := Inventory.eq_of_define? h
  exact List.suffix_cons _ _

/-- A statement only adds to the definitions. -/
theorem suffix_of_run (h : inventory.run statement = some after) :
    inventory.definitions <:+ after.definitions := by
  cases statement with
  | use request =>
      simp only [Inventory.run, Option.bind_eq_bind, Option.bind_eq_some_iff] at h
      obtain ⟨_, -, storage, -, h⟩ := h
      cases h
      exact List.suffix_rfl
  | makeVariable name =>
      simp only [Inventory.run, Option.ite_none_right_eq_some] at h
      exact suffix_of_define? h.2
  | makeConstant name =>
      rw [Inventory.run] at h
      split at h
      · rw [Option.ite_none_right_eq_some] at h
        have hleft := suffix_of_define? h.2
        exact hleft
      · cases h
  | makeBuffer name size =>
      simp only [Inventory.run, Option.bind_eq_bind, Option.bind_eq_some_iff,
        Option.ite_none_right_eq_some] at h
      obtain ⟨_, -, _, -, -, h⟩ := h
      exact suffix_of_define? h
  | makeWord name body =>
      simp only [Inventory.run, Option.bind_eq_bind, Option.bind_eq_some_iff,
        Option.ite_none_right_eq_some] at h
      obtain ⟨_, -, -, h⟩ := h
      exact suffix_of_define? h

theorem suffix_of_runAll (h : inventory.runAll statements = some final) :
    inventory.definitions <:+ final.definitions := by
  induction statements generalizing inventory with
  | nil =>
      cases h
      exact List.suffix_rfl
  | cons statement statements ih =>
      rw [Inventory.runAll, List.foldlM_cons, Option.bind_eq_bind, Option.bind_eq_some_iff] at h
      obtain ⟨middle, hrun, hrest⟩ := h
      exact (suffix_of_run hrun).trans (ih hrest)

end Growing

/-! ## New definitions -/

section Defining

variable {s t : State} {inventory after : Inventory} {name : String} {shape : Shape}
variable {memory : Memory} {dictionary : Dictionary} {rest : Input} {statement : Statement}

/-- A definition that was appended and named is one of the inventory. -/
theorem State.Shows.define (hs : s.Shows inventory)
    (hdefine : inventory.define? name shape = some after)
    (hroom : (past after.definitions : ℤ) ≤ Int64.maxValue.toInt)
    (hdefines : s.memory.Defines memory inventory.here (Definition.cells inventory.definitions
      (inventory.storage.clear (Dictionary.fold name)).values ⟨Dictionary.fold name, shape⟩))
    (hpublishes : dictionary.Publishes s.dictionary name inventory.here) (input : Input) :
    State.Shows { s with memory, dictionary, input } after := by
  obtain ⟨hfree, rfl⟩ := Inventory.eq_of_define? hdefine
  have hreflects := hs.reflects.define (notMem_of_isFree hfree) hroom hdefines
  have hnext := hdefines.next
  rw [length_cells, ← Int64.ofNat_add] at hnext
  refine ⟨⟨⟨⟨hs.ip, hs.nip, hs.depth, hs.halt⟩, hreflects.toIsIntact⟩, mode_of_get hdefines.state,
    hreflects.base, hs.sink⟩, hs.kernel, hnext, hreflects, fun token => ?_, hs.desk⟩
  rw [hpublishes, hs.names, lookUp?_cons]

/-- The same for a name that is entered visible. -/
theorem State.Shows.define_visible (hs : s.Shows inventory)
    (hdefine : inventory.define? name shape = some after)
    (hroom : (past after.definitions : ℤ) ≤ Int64.maxValue.toInt)
    (hextends : (s.memory.named inventory.here).Extends memory inventory.here
      (Definition.cells inventory.definitions
        (inventory.storage.clear (Dictionary.fold name)).values ⟨Dictionary.fold name, shape⟩))
    (input : Input) :
    State.Shows { s with
      memory, input
      dictionary := s.dictionary.define name inventory.here false false }
      after := by
  have hlow : 219 ≤ inventory.here.toInt := by
    rw [hs.toInt_here]
    exact Int.ofNat_le.mpr (le_past _)
  exact hs.define hdefine hroom (hextends.defines hlow (get_state_of_mode hs.mode))
    (s.dictionary.publishes_define name _) input

/-- How much of the input was read does not matter. -/
theorem State.Shows.read (hs : s.Shows inventory) (input : Input) :
    State.Shows { s with input } inventory :=
  ⟨⟨⟨⟨hs.ip, hs.nip, hs.depth, hs.halt⟩, hs.memory⟩, hs.mode, hs.base, hs.sink⟩, hs.kernel, hs.next,
    hs.reflects, hs.names, hs.desk⟩

/-- Parameters that are left are left by both. -/
theorem State.Shows.leave (hs : s.Shows inventory) (parameters : Stack .parameter) :
    State.Shows { s with parameters }
      { inventory with storage := inventory.storage.leave parameters } := by
  refine ⟨⟨⟨⟨hs.ip, hs.nip, hs.depth, hs.halt⟩, hs.memory⟩, hs.mode, hs.base, hs.sink⟩, hs.kernel,
    hs.next, hs.reflects, hs.names, ?_⟩
  have htext : s.output.text = inventory.storage.desk.text := congrArg Desk.text hs.desk
  simp only [State.desk, Storage.leave, htext]

/-- A word that is read at the prompt does what its effect does. -/
theorem State.Shows.reaches_word (hs : s.Shows inventory) (position : ℕ)
    (h : position < vocabulary.length) (hvisible : vocabulary[position].hidden = false)
    (hcontrol : vocabulary[position].control = .advance)
    (hfree : isFree inventory.definitions vocabulary[position].name = true) {middle : Input}
    (hread : s.input.readToken = (some vocabulary[position].name, middle)) (ht : t.Shows after)
    (hdepth : t.depth = s.depth)
    (heffect : vocabulary[position].effect
        { s with input := middle, ip := primitiveAddress position } =
      .ok () { t with ip := primitiveAddress position }) : Reaches standardTable s t := by
  obtain ⟨entry, hfind, haddress, -⟩ := hs.resolves position h hvisible hfree
  rw [← haddress] at heffect
  have hback := reaches_executed hs.toAtPrompt hread hfind hs.mode (.inl rfl) haddress
    (List.getElem?_eq_getElem h) hcontrol heffect (ht.nip.trans hs.nip.symm) hdepth ht.halt
    ht.memory
  rw [State.prompted, ← ht.ip, ← ht.nip] at hback
  exact hback

/-- The machine gets from one prompt to the next one, as the statement says. -/
def State.Follows (s : State) (statement : Statement) (after : Inventory) : Prop :=
  ∀ rest, s.input.Delivers statement.items rest →
    ∃ t, Reaches standardTable s t ∧ t.Shows after ∧ t.input = rest

/-! ## Statements -/

theorem State.Shows.follows_use (hs : s.Shows inventory) {request : Request}
    (hrun : inventory.run (.use request) = some after) : s.Follows (.use request) after := by
  intro rest hdelivers
  simp only [Inventory.run, Option.bind_eq_bind, Option.bind_eq_some_iff] at hrun
  obtain ⟨action, haction, storage, hrun, hafter⟩ := hrun
  cases hafter
  obtain ⟨memory, hdoes, hreflects, hbelow⟩ := realizes_action List.suffix_rfl
    (fun _ _ _ hrun => realizes_call List.suffix_rfl hrun) hrun s.memory hs.reflects
  rw [← hs.desk] at hdoes
  refine ⟨_, reaches_does hs.toIsInterpreting (hs.reads haction) hdelivers hdoes
    hreflects.toIsIntact, ?_, rfl⟩
  refine ⟨⟨⟨⟨hs.ip, hs.nip, hs.depth, hs.halt⟩, hreflects.toIsIntact⟩, ?_, hreflects.base, rfl⟩,
    hs.kernel, ?_, hreflects, hs.names, rfl⟩
  · exact (mode_congr (hbelow _ (by decide))).trans hs.mode
  · exact (hbelow _ (by decide)).trans hs.next

theorem State.Shows.follows_makeVariable (hs : s.Shows inventory)
    (hrun : inventory.run (.makeVariable name) = some after)
    (hroom : (past after.definitions : ℤ) ≤ Int64.maxValue.toInt) :
    s.Follows (.makeVariable name) after := by
  intro rest hdelivers
  rw [Inventory.run, Option.ite_none_right_eq_some] at hrun
  obtain ⟨hfree, hdefine⟩ := hrun
  obtain ⟨middle, ⟨hread⟩, hdelivers⟩ := Input.delivers_cons hdelivers
  obtain ⟨_, ⟨hname⟩, ⟨⟩⟩ := Input.delivers_cons hdelivers
  have hplace := hs.toInt_here
  have hlow := le_past inventory.definitions
  have hpast : past after.definitions = past inventory.definitions + 2 := past_of_define? hdefine
  obtain ⟨memory, hextends, heffect⟩ := variableWord_ok
    (s := { s with input := middle, ip := primitiveAddress 27 }) hs.kernel hname hs.next (by omega)
    (by omega)
  have hcells := cells_clear inventory.definitions inventory.storage (Dictionary.fold name) 1
  have hshows := hs.define_visible hdefine hroom (hcells.symm ▸ hextends) rest
  exact ⟨_, hs.reaches_word 27 (by decide) rfl rfl hfree hread hshows rfl heffect,
    hshows, rfl⟩

theorem State.Shows.follows_makeConstant (hs : s.Shows inventory)
    (hrun : inventory.run (.makeConstant name) = some after)
    (hroom : (past after.definitions : ℤ) ≤ Int64.maxValue.toInt) :
    s.Follows (.makeConstant name) after := by
  intro rest hdelivers
  rw [Inventory.run] at hrun
  split at hrun
  · rename_i v left hitems
    rw [Option.ite_none_right_eq_some] at hrun
    obtain ⟨hfree, hdefine⟩ := hrun
    obtain ⟨middle, ⟨hread⟩, hdelivers⟩ := Input.delivers_cons hdelivers
    obtain ⟨_, ⟨hname⟩, ⟨⟩⟩ := Input.delivers_cons hdelivers
    have hplace := hs.toInt_here
    have hlow := le_past inventory.definitions
    have hpast : past after.definitions = past inventory.definitions + 2 := past_of_define? hdefine
    have hparameters : s.parameters = Stack.push ⟨left⟩ v := by
      have hsame : s.parameters = inventory.storage.desk.parameters :=
        congrArg Desk.parameters hs.desk
      rw [hsame, Stack.push, ← hitems]
    obtain ⟨memory, hextends, heffect⟩ := constant_ok
      (s := { s with input := middle, ip := primitiveAddress 28 }) hs.kernel hparameters hname
      hs.next (by omega) (by omega)
    have hshows := (hs.leave ⟨left⟩).define_visible hdefine hroom hextends rest
    exact ⟨_, hs.reaches_word 28 (by decide) rfl rfl hfree hread hshows rfl heffect,
      hshows, rfl⟩
  · cases hrun

theorem State.Shows.follows_makeBuffer (hs : s.Shows inventory) {size : String}
    (hrun : inventory.run (.makeBuffer name size) = some after)
    (hroom : (past after.definitions : ℤ) ≤ Int64.maxValue.toInt) :
    s.Follows (.makeBuffer name size) after := by
  intro rest hdelivers
  simp only [Inventory.run, Option.bind_eq_bind, Option.bind_eq_some_iff,
    Option.ite_none_right_eq_some] at hrun
  obtain ⟨created, hcreated, n, hcount, ⟨hfree, hallot, hlimit⟩, hdefine⟩ := hrun
  obtain ⟨afterCreate, ⟨hread⟩, hdelivers⟩ := Input.delivers_cons hdelivers
  obtain ⟨afterName, ⟨hname⟩, hdelivers⟩ := Input.delivers_cons hdelivers
  obtain ⟨afterSize, ⟨hsize⟩, hdelivers⟩ := Input.delivers_cons hdelivers
  obtain ⟨_, ⟨hallotRead⟩, ⟨⟩⟩ := Input.delivers_cons hdelivers
  have hplace := hs.toInt_here
  have hlow := le_past inventory.definitions
  have hpastCreated : past created.definitions = past inventory.definitions + 1 :=
    past_of_define? hcreated
  have hpast : past after.definitions = past inventory.definitions + (n + 1) :=
    past_of_define? hdefine
  -- the name and its codeword
  obtain ⟨memory, hextends, heffect⟩ := create_ok
    (s := { s with input := afterCreate, ip := primitiveAddress 26 }) hs.kernel hname hs.next
    (by omega) (by omega)
  have hcells := cells_clear inventory.definitions inventory.storage (Dictionary.fold name)
  have hshows := hs.define_visible hcreated (by omega) ((hcells 0).symm ▸ hextends) afterName
  have hfirst := hs.reaches_word 26 (by decide) rfl rfl hfree hread hshows rfl heffect
  -- the size
  have hmeaning := hshows.classify_eq (meaning?_of_count? hcount)
  have hsecond := reaches_literal hshows.toAtPrompt hsize hshows.mode hmeaning
  have hsized := (hshows.read afterSize).leave (s.parameters.push (.int (Int64.ofNat n)))
  -- and the cells
  have hone : (inventory.here + 1).toInt = past inventory.definitions + 1 := by
    rw [Address.toInt_add_one (by omega), hplace]
  have hnext : memory.get Variable.here.address = .literal (.int (inventory.here + 1)) :=
    hextends.next
  obtain ⟨filled, hfilled, heffect⟩ := allot_ok (n := n) (s := { s with
      memory, input := rest, ip := primitiveAddress 18
      parameters := s.parameters.push (.int (Int64.ofNat n))
      dictionary := s.dictionary.define name inventory.here false false }) rfl rfl hlimit hnext
    (by omega) (by omega)
  have hlength : ([Cell.native standardKernel.dovar] ++
      List.replicate n (Cell.literal (.int 0))).length = n + 1 := by simp
  have hall : (s.memory.named inventory.here).Extends filled inventory.here
      (.native standardKernel.dovar :: List.replicate n (.literal (.int 0))) :=
    hextends.trans hfilled (by omega) (by omega)
  have hfinal := hs.define_visible hdefine hroom ((hcells n).symm ▸ hall) rest
  have hthird := hsized.reaches_word 18 (by decide) rfl rfl hallot hallotRead hfinal rfl heffect
  exact ⟨_, (hfirst.trans hsecond).trans hthird, hfinal, rfl⟩

/-- The items of a body are read as the instructions of its actions. -/
theorem State.Shows.reads_body (hs : s.Shows inventory) {body : List Request}
    {actions : List Action} (h : body.mapM (·.action? inventory.definitions) = some actions) :
    List.Forall₂ s.Reads (body.flatMap Request.items)
      (actions.flatMap (·.instructions inventory.definitions)) := by
  induction body generalizing actions with
  | nil =>
      cases h
      exact .nil
  | cons request body ih =>
      simp only [List.mapM_cons, Option.bind_eq_bind, Option.bind_eq_some_iff] at h
      obtain ⟨action, haction, actions, hactions, h⟩ := h
      cases h
      exact List.rel_append (hs.reads haction) (ih hactions)

theorem State.Shows.follows_makeWord (hs : s.Shows inventory) {body : List Request}
    (hrun : inventory.run (.makeWord name body) = some after)
    (hroom : (past after.definitions : ℤ) ≤ Int64.maxValue.toInt) :
    s.Follows (.makeWord name body) after := by
  intro rest hdelivers
  simp only [Inventory.run, Option.bind_eq_bind, Option.bind_eq_some_iff,
    Option.ite_none_right_eq_some] at hrun
  obtain ⟨actions, hactions, ⟨hcolon, hsemicolon⟩, hdefine⟩ := hrun
  obtain ⟨named, ⟨hcolonRead⟩, hdelivers⟩ := Input.delivers_cons hdelivers
  obtain ⟨opened, ⟨hname⟩, hdelivers⟩ := Input.delivers_cons hdelivers
  obtain ⟨closed, hbody, hclosed⟩ := Input.delivers_append hdelivers
  obtain ⟨_, ⟨hsemicolonRead⟩, ⟨⟩⟩ := Input.delivers_cons hclosed
  obtain ⟨colon, hcolonFind, hcolonAddress, -⟩ :=
    hs.resolves 19 (by decide) rfl hcolon
  obtain ⟨semicolon, hsemicolonFind, hsemicolonAddress, himmediate⟩ :=
    hs.resolves 20 (by decide) rfl hsemicolon
  have hplace := hs.toInt_here
  have hlow := le_past inventory.definitions
  let instructions := actions.flatMap (·.instructions inventory.definitions)
  have hlength : (Definition.cells inventory.definitions inventory.storage.values
      ⟨Dictionary.fold name, .word actions⟩).length = (Shape.word actions).size := length_cells _
  change (definitionCells standardKernel instructions).length = _ at hlength
  rw [length_definitionCells] at hlength
  have hpast := past_of_define? hdefine
  have habove : Outfit.standard.past ≤ inventory.here.toInt := by
    rw [Outfit.standard_past]
    omega
  have hcompiles : ∀ memory,
      (s.memory.opened inventory.here).Extends memory inventory.here
        [.native standardKernel.docol] →
      State.Compiles { s with
          memory, dictionary := s.dictionary.define name inventory.here false true
          input := opened }
        standardTable (inventory.here + 1) (instructions.flatMap Instruction.cells) closed := by
    intro memory hextends
    have hcompiling := isCompiling_opened hs.toAtPrompt hs.kernel habove (by omega) hextends
      (s.dictionary.define name inventory.here false true) opened
    have hone : (inventory.here + 1).toInt = past inventory.definitions + 1 := by
      rw [Address.toInt_add_one (by omega), hplace]
    refine compiles_reads hcompiling ((hs.reads_body hactions).imp fun _ _ h => ?_) hbody (by omega)
    exact h.congr (s.dictionary.agreesWith_define_hidden name _) (hextends.base (by omega))
  obtain ⟨memory, dictionary, hreaches, hdefines, -, hchain⟩ := reaches_defined hs.toAtPrompt
    hs.kernel hs.mode hs.next habove (by omega) hcolonFind hcolonAddress hsemicolonFind
    hsemicolonAddress himmediate hcolonRead hname hsemicolonRead hcompiles
  have hpublishes : dictionary.Publishes s.dictionary name inventory.here := by
    intro other
    rw [Dictionary.findVisible?, hchain]
    split
    · rfl
    · rfl
  exact ⟨_, hreaches, hs.define hdefine hroom hdefines hpublishes rest, rfl⟩

/-- **Whatever the statement is, the machine follows the inventory.** -/
theorem State.Shows.follows (hs : s.Shows inventory) (hrun : inventory.run statement = some after)
    (hroom : (past after.definitions : ℤ) ≤ Int64.maxValue.toInt) : s.Follows statement after := by
  cases statement with
  | use request => exact hs.follows_use hrun
  | makeVariable name => exact hs.follows_makeVariable hrun hroom
  | makeConstant name => exact hs.follows_makeConstant hrun hroom
  | makeBuffer name size => exact hs.follows_makeBuffer hrun hroom
  | makeWord name body => exact hs.follows_makeWord hrun hroom

/-- **Statement after statement the machine follows the inventory.** -/
theorem State.Shows.follows_all (hs : s.Shows inventory) {statements : List Statement}
    {final : Inventory} (hrun : inventory.runAll statements = some final)
    (hroom : (past final.definitions : ℤ) ≤ Int64.maxValue.toInt)
    (hdelivers : s.input.Delivers (statements.flatMap Statement.items) rest) :
    ∃ t, Reaches standardTable s t ∧ t.Shows final ∧ t.input = rest := by
  induction statements generalizing s inventory with
  | nil =>
      cases hrun
      cases hdelivers
      exact ⟨s, .refl s, hs, rfl⟩
  | cons statement statements ih =>
      rw [Inventory.runAll, List.foldlM_cons, Option.bind_eq_bind, Option.bind_eq_some_iff] at hrun
      obtain ⟨middle, hfirst, hrest⟩ := hrun
      rw [List.flatMap_cons] at hdelivers
      obtain ⟨left, hitems, hdelivers⟩ := Input.delivers_append hdelivers
      have hgrown : past middle.definitions ≤ past final.definitions :=
        past_le_of_suffix (suffix_of_runAll hrest)
      obtain ⟨t, hreaches, ht, rfl⟩ := hs.follows hfirst (by omega) left hitems
      obtain ⟨u, hreaches', hu, hinput⟩ := ih ht hrest hdelivers
      exact ⟨u, hreaches.trans hreaches', hu, hinput⟩

end Defining

/-! ## The theorem -/

section Programs

variable {fresh m : Machine} {around : Surroundings} {statements : List Statement}
variable {final : Inventory} {source : String}

/-- A machine that was just set up gets to a prompt at which there is nothing yet. -/
theorem exists_shows_opening (hprimitives : fresh.primitives = #[])
    (hstate : fresh.state = State.within {} around) (hsink : around.output.allowance = none)
    (hm : fresh.bootstrap [libraryWords] = .ok () m) (source : String) :
    ∃ s, Reaches standardTable (m.started source) s ∧ s.Shows (.opening around.output.text) ∧
      s.input = .ofString source := by
  have hbooted := state_eq_booted hprimitives hstate hm
  have hintact := isIntact_standard_of_bootstrap hprimitives hm
  have hkernel := (isStandard_of_bootstrap hprimitives hm).kernel
  have hset := state_of_bootstrap hm
  rw [hstate] at hset
  have hmemory : m.state.memory = Machine.booted.state.memory := by rw [hbooted, State.within]
  obtain ⟨hhere, hmode, hbase⟩ := Machine.variables_booted
  rw [← hmemory] at hhere hmode hbase
  have hquit := reaches_prompted_of_quit (s := m.started source) hintact hkernel rfl
    (congrArg State.ip hset)
  rw [setMode_interpret (s := m.started source) (mode_of_get hmode)] at hquit
  refine ⟨_, hquit, ?_, rfl⟩
  refine ⟨⟨⟨⟨rfl, rfl, Nat.one_ne_zero, rfl⟩, hintact⟩, mode_of_get hmode, hbase, ?_⟩, hkernel,
    hhere, ⟨hintact, hbase, trivial, List.nodup_nil, ?_⟩, fun token => ?_, ?_⟩
  · exact (congrArg (·.output.allowance) hset).trans hsink
  · exact (by decide : ((past [] : ℕ) : ℤ) ≤ Int64.maxValue.toInt)
  · exact congrArg (·.dictionary.findVisible? token) hbooted
  · exact congrArg State.desk hset

/-- **Variables, constants and buffers are independent storage.**  Let a machine be just set up with
the kernel and the library, and let its sink take all that is written.  Let the source spell
statements that the inventory can run, one after the other: no name is defined twice, slots are
within bounds, and what is added to is an integer.  Let there be room for the cells.

Then the machine interprets the source without a failure.  Between any two statements, and at the
end, it is at a prompt that shows the inventory: the desk is the same, so what was fetched is what
was stored there last, and every slot has its value in its cell.  From each of these prompts to the
end, no other cell of the definitions is changed, and constants push the same values as before. -/
theorem storage_is_independent (hprimitives : fresh.primitives = #[])
    (hstate : fresh.state = State.within {} around) (hsink : around.output.allowance = none)
    (hm : fresh.bootstrap [libraryWords] = .ok () m)
    (hsource : Spells (statements.flatMap Statement.items) source.toList)
    (hrun : (Inventory.opening around.output.text).runAll statements = some final)
    (hroom : (past final.definitions : ℤ) ≤ Int64.maxValue.toInt) :
    ∃ after, m.Interprets source after ∧ after.recovered = m.recovered ∧ after.state.Shows final ∧
      ∀ before more, statements = before ++ more →
        ∃ inventory s rest,
          (Inventory.opening around.output.text).runAll before = some inventory ∧
          Reaches standardTable (m.started source) s ∧ s.Shows inventory ∧
          s.input.Delivers (more.flatMap Statement.items) rest ∧
          (∀ address, IsFixed inventory.definitions address →
            after.state.memory.get address = s.memory.get address) ∧
          ∀ name v storage, ⟨name, .constant v⟩ ∈ inventory.definitions →
            Definition.run inventory.definitions name storage = some (storage.push v) ∧
            Definition.run final.definitions name storage = some (storage.push v) := by
  obtain ⟨start, hstarted, hstart, hinput⟩ :=
    exists_shows_opening hprimitives hstate hsink hm source
  obtain ⟨rest, last, hdelivers, hend⟩ := hsource.delivers false
  rw [show Input.text ⟨source.toList, false⟩ = start.input from hinput.symm] at hdelivers
  obtain ⟨t, hreaches, ht, rfl⟩ := hstart.follows_all hrun hroom hdelivers
  have hstandard := isStandard_of_bootstrap hprimitives hm
  have hinterprets := Machine.interprets_of_reaches hstandard.kernel
    (hstandard.primitives ▸ hstarted.trans hreaches)
    (hstandard.isFitted.primitives ▸ step_interpret_end ht.toAtPrompt hend)
  refine ⟨_, hinterprets, Machine.recovered_tell _ _, ?_, ?_⟩
  · rw [Machine.state_tell]
    exact ht.read last
  · rintro before more rfl
    rw [Inventory.runAll, List.foldlM_append, Option.bind_eq_bind, Option.bind_eq_some_iff] at hrun
    obtain ⟨inventory, hbefore, hmore⟩ := hrun
    have hsuffix : inventory.definitions <:+ final.definitions := suffix_of_runAll hmore
    have hgrown := past_le_of_suffix hsuffix
    rw [List.flatMap_append] at hdelivers
    obtain ⟨middle, hfirst, hsecond⟩ := Input.delivers_append hdelivers
    obtain ⟨s, hreaches', hs, rfl⟩ := hstart.follows_all hbefore (by omega) hfirst
    refine ⟨inventory, s, _, hbefore, hstarted.trans hreaches', hs, hsecond,
      fun address hfixed => ?_, fun name v storage hmem => ?_⟩
    · rw [Machine.state_tell]
      exact hs.reflects.cells.get_of_isFixed (ht.reflects.cells.of_suffix hsuffix)
        hs.reflects.distinct hs.reflects.room hfixed
    · exact ⟨run_constant hs.reflects.distinct hmem storage,
        run_constant ht.reflects.distinct (hsuffix.subset hmem) storage⟩

end Programs

/-- A word that takes a constant, adds it to a variable and stores in a buffer, and what is fetched
after the word was called twice. -/
def sharedStorage : List Statement := [
  .makeVariable "x", .use (.token "7"), .use (.store { name := "x" }),
  .use (.fetch { name := "x" }), .makeConstant "c", .makeBuffer "b" "3",
  .makeWord "w" [.token "c", .add { name := "x" }, .fetch { name := "x" },
    .store { name := "b", offset? := some "2" }],
  .use (.token "w"), .use (.token "w"), .use (.string "seven"),
  .use (.store { name := "b", offset? := some "0" }),
  .use (.fetch { name := "b", offset? := some "0" }),
  .use (.fetch { name := "b", offset? := some "1" }),
  .use (.fetch { name := "b", offset? := some "2" }), .use (.fetch { name := "x" }),
  .use (.token "c")]

def sharedSource : String :=
  "VARIABLE x 7 x ! x @ CONSTANT c CREATE b 3 ALLOT : w c x +! x @ b 2 + ! ; " ++
    "w w S\" seven\" b 0 + ! b 0 + @ b 1 + @ b 2 + @ x @ c "

theorem storage_is_independent_shared : ∃ after : Machine,
    Machine.booted.Interprets sharedSource after ∧
    after.state.parameters = ⟨[.int 7, .int 21, .int 21, .int 0, .string "seven"]⟩ := by
  have hruns : ((Inventory.opening "").runAll sharedStorage).map
      (fun final => (past final.definitions, final.storage.desk)) =
      some (239, ⟨⟨[.int 7, .int 21, .int 21, .int 0, .string "seven"]⟩, ""⟩) := by
    decide +kernel
  obtain ⟨final, hrun, hfinal⟩ := Option.map_eq_some_iff.mp hruns
  obtain ⟨hpast, hdesk⟩ := Prod.mk.inj hfinal
  have hchars : sharedSource.toList =
      (sharedStorage.flatMap Statement.items).flatMap fun item => item.chars ++ [' '] := by
    decide +kernel
  have hsource : Spells (sharedStorage.flatMap Statement.items) sharedSource.toList := by
    rw [hchars]
    exact spells_separated (by decide +kernel)
  have hroom : (past final.definitions : ℤ) ≤ Int64.maxValue.toInt := by
    rw [hpast]
    decide
  have hfresh : ({} : Machine).state = State.within {} (State.surroundings {}) := rfl
  obtain ⟨after, hinterprets, -, hshows, -⟩ :=
    storage_is_independent rfl hfresh rfl bootstrap_booted hsource hrun hroom
  exact ⟨after, hinterprets, congrArg Desk.parameters (hshows.desk.trans hdesk)⟩

end ThreadedForth
