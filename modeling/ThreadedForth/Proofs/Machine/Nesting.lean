import ThreadedForth.Proofs.Decompile.Listing
import ThreadedForth.Proofs.Machine.Linkage
import ThreadedForth.Proofs.Words.Resuming

/-!
# Nested calls

A program is a set of definitions whose bodies are rows of literals and calls.  While it runs, some
of its words are active: they were entered and have not been left.  Each of them but the innermost
one waits for a call, and where it will go on is on the return stack, behind the call; the innermost
one has it in `nip` as long as a primitive runs.

`State.Runs` says this of a state, and `State.Runs.of_step` that a step keeps it.  Where the machine
is between two cells of a body is one of five stages, and each step leads from one stage to another.

Nothing is known of the libraries of the machine.  Of a primitive that a body calls it is only asked
that it is plain, which says of its effect what the stages need.
-/

namespace ThreadedForth

open Effect Words

/-! ## Plain words -/

/-- The word comes back to its caller, and leaves the ways back alone. -/
structure Primitive.IsPlain (word : Primitive) : Prop where
  control : word.control = .advance
  links : ∀ s, (after word.effect s).returns = s.returns ∧ (after word.effect s).depth = s.depth
  nip : KeepsNip word.effect

/-- The words that do not return, branch, pass over an operand or use the return stack are plain. -/
theorem isPlain_of_mem_vocabulary {word : Primitive} (hword : word ∈ vocabulary)
    (hcontrol : word.control = .advance) (hlink : word.name ∉ Ability.link.words)
    (hlit : word.name ≠ "LIT") : word.IsPlain := by
  refine ⟨hcontrol, fun s => (becomes_of_mem_vocabulary hword s).links_eq hlink, ?_⟩
  refine keepsNip_of_mem_vocabulary hword fun hname => ?_
  simp only [nipWords, List.mem_cons, List.not_mem_nil, or_false] at hname
  rcases hname with hname | hname | hname | hname
  · rw [hname] at hlink
    exact hlink (by decide)
  · exact hlit hname
  · rw [eq_of_name hword (show vocabulary[4]? = some _ from rfl) hname] at hcontrol
    cases hcontrol
  · rw [eq_of_name hword (show vocabulary[5]? = some _ from rfl) hname] at hcontrol
    cases hcontrol

/-- A plain word is at the address, with the trampoline behind it, and has a name there. -/
structure State.HasPlain (table : PrimitiveTable) (s : State) (target : Address) : Prop where
  word : ∃ id word, s.memory.get target = .native id ∧ table.lookup id = .ok word ∧ word.IsPlain
  behind : ∃ id, s.memory.get (target + 1) = .native id ∧ table.lookup id = .ok trampoline
  name : s.dictionary.nameAt? target ≠ none

/-! ## Programs -/

/-- Definitions, and the plain words that they use. -/
structure Definitions where
  /-- The body of the definition whose codeword is at an address. -/
  body : Address → Option (List Instruction)
  plain : List Address

/-- The address is the one between two parts of the body of a definition. -/
structure Definitions.Divides (program : Definitions) (start : Address)
    (first rest : List Instruction) (place : Address) : Prop where
  body : program.body start = some (first ++ rest)
  place : place = start + Int64.ofNat ((first.flatMap Instruction.cells).length + 1)

/-- Where a call leads back to: into the word that is active, or into the outer loop. -/
def Definitions.LeadsBack (program : Definitions) (loop : Address) : List Address → Address → Prop
  | [], link => link = loop
  | start :: _, link => ∃ first rest, program.Divides start first rest link

/-- The active words, innermost first, have saved these values on top of what was there. -/
def Definitions.Saves (program : Definitions) (loop : Address) (base : List Value) :
    List Address → List Value → Prop
  | [], items => items = base
  | _ :: active, items =>
    ∃ link rest, items = .int link :: rest ∧ program.LeadsBack loop active link ∧
      program.Saves loop base active rest

/-- The words that bodies are threaded with are in place: `LIT` with the trampoline behind it, and
`EXIT`. -/
structure Memory.HasThreading (memory : Memory) (w : Outfit) : Prop where
  lit : memory.get w.kernel.lit = .native (w.first + 3)
  behind : memory.get (w.kernel.lit + 1) = .native w.first
  exit : memory.get w.kernel.exit = .native (w.first + 2)

namespace State

/-- What a body may call. -/
inductive MayCall (kernel : Kernel) (program : Definitions) (s : State) (target : Address) : Prop
  | definition (h : (program.body target).isSome)
  | plain (h : target ∈ program.plain)
  | created {id : Nat} (hcell : s.memory.get target = .native id)
      (hid : id = kernel.dovar ∨ id = kernel.docon) (hname : s.dictionary.nameAt? target ≠ none)

/-- The program is in memory, and its bodies call what they may. -/
structure Carries (table : PrimitiveTable) (kernel : Kernel) (s : State) (program : Definitions) :
    Prop where
  holds : ∀ start body, program.body start = some body →
    s.memory.Holds start (definitionCells kernel body)
  plain : ∀ target ∈ program.plain, s.HasPlain table target
  calls : ∀ start body, program.body start = some body → ∀ target, .call target ∈ body →
    s.MayCall kernel program target

/-- The words that are active after the next step: one is entered or left, or they stay. -/
def activate (kernel : Kernel) (s : State) (active : List Address) : List Address :=
  if s.memory.get s.ip = .native kernel.docol then s.ip :: active
  else if s.ip = kernel.exit then active.tail
  else active

/-- Where the machine is while it goes through the body of the innermost word. -/
inductive Stage (kernel : Kernel) (program : Definitions) (loop : Address) (s : State)
    (active : List Address) : Prop
  /-- An instruction is next, or the end of the body. -/
  | instruction {start : Address} {outer : List Address} {first rest : List Instruction}
      (hactive : active = start :: outer) (hdivides : program.Divides start first rest s.ip)
  /-- A word is called. -/
  | called (hcall : s.MayCall kernel program s.ip) (hback : program.LeadsBack loop active s.nip)
  /-- `LIT` is called, and its operand is behind the call. -/
  | operand {v : Value} (hip : s.ip = kernel.lit) (hoperand : s.memory.get s.nip = .literal v)
      (hback : program.LeadsBack loop active (s.nip + 1))
  /-- The trampoline is next. -/
  | returning {target : Address} (htarget : target ∈ program.plain ∨ target = kernel.lit)
      (hip : s.ip = target + 1) (hback : program.LeadsBack loop active s.nip)
  /-- `EXIT` is called. -/
  | leaving (hip : s.ip = kernel.exit)

/-- The machine goes through the words of a program, and these are active. -/
structure Runs (kernel : Kernel) (program : Definitions) (loop : Address) (base : List Value)
    (s : State) (active : List Address) : Prop where
  stage : s.Stage kernel program loop active
  saved : program.Saves loop base active s.returns.items
  deep : active.length ≤ s.depth

end State

variable {w : Outfit} {program : Definitions} {loop start place : Address} {base : List Value}
variable {active : List Address} {first rest : List Instruction} {s t : State} {word : Primitive}

/-! ## Cells of a body -/

theorem State.Carries.holds_rest {table : PrimitiveTable} {kernel : Kernel}
    (h : s.Carries table kernel program) (hdivides : program.Divides start first rest place) :
    s.memory.Holds place
      (rest.flatMap Instruction.cells ++ [.reference (kernelAddress "EXIT")]) := by
  have hholds := h.holds start _ hdivides.body
  have hcells : definitionCells kernel (first ++ rest) =
      (.native kernel.docol :: first.flatMap Instruction.cells) ++
        (rest.flatMap Instruction.cells ++ [.reference (kernelAddress "EXIT")]) := by
    simp [definitionCells]
  rw [hcells, Memory.holds_append] at hholds
  rw [hdivides.place]
  exact hholds.2

/-- Instructions begin with a reference, and so does the end of a body. -/
theorem State.Carries.exists_reference {table : PrimitiveTable} {kernel : Kernel}
    (h : s.Carries table kernel program) (hdivides : program.Divides start first rest place) :
    ∃ target, s.memory.get place = .reference target := by
  have hholds := h.holds_rest hdivides
  rcases rest with _ | ⟨_ | _, rest⟩
  all_goals exact ⟨_, hholds.1⟩

/-- Behind its first instruction a body is divided again. -/
theorem Definitions.Divides.next {instruction : Instruction}
    (h : program.Divides start first (instruction :: rest) place) :
    program.Divides start (first ++ [instruction]) rest
      (place + Int64.ofNat instruction.cells.length) := by
  refine ⟨by rw [h.body, List.append_assoc, List.singleton_append], ?_⟩
  rw [h.place, Address.add_ofNat_add, List.flatMap_append, List.length_append,
    List.flatMap_singleton]
  congr 2
  omega

/-- A body begins behind the codeword. -/
theorem Definitions.divides_start {body : List Instruction} (h : program.body start = some body) :
    program.Divides start [] body (start + 1) := ⟨h, rfl⟩

/-! ## The words that are executed -/

theorem lit_apply (s : State) : Words.lit s = match s.literalAt s.nip with
    | .ok v => .ok () { s with parameters := s.parameters.push v, nip := s.nip + 1 }
    | .error cause => .error { cause } s := by
  rcases hread : s.literalAt s.nip with cause | v
  · rw [Words.lit, get_bind, bind_error (examine_error hread)]
  · rw [Words.lit, get_bind, bind_ok (examine_ok hread)]
    rfl

theorem docon_apply (s : State) : docon s = match s.literalAt (s.ip + 1) with
    | .ok v => .ok () { s with parameters := s.parameters.push v, ip := s.nip }
    | .error cause => .error { cause } s := by
  rcases hread : s.literalAt (s.ip + 1) with cause | v
  · rw [docon, get_bind, bind_error (examine_error hread)]
  · rw [docon, get_bind, bind_ok (examine_ok hread)]
    rfl

section Threading

variable (hmemory : s.memory.HasThreading w)
include hmemory

theorem executes_exit (hip : s.ip = w.kernel.exit) :
    s.Executes w.table { name := "EXIT", control := .owned, effect := Effect.exit } :=
  ⟨w.first + 2, hip ▸ hmemory.exit, w.lookup 2 _ (w.getElem?_words rfl)⟩

theorem executes_lit (hip : s.ip = w.kernel.lit) :
    s.Executes w.table { name := "LIT", effect := Words.lit } :=
  ⟨w.first + 3, hip ▸ hmemory.lit, w.lookup 3 _ (w.getElem?_words rfl)⟩

theorem executes_behind_lit (hip : s.ip = w.kernel.lit + 1) : s.Executes w.table trampoline :=
  ⟨w.first, hip ▸ hmemory.behind, w.lookup 0 _ (w.getElem?_words rfl)⟩

end Threading

theorem State.HasPlain.executes (h : s.HasPlain w.table s.ip) :
    ∃ word, s.Executes w.table word ∧ word.IsPlain :=
  let ⟨⟨id, word, hcell, hword, hplain⟩, _, _⟩ := h
  ⟨word, ⟨id, hcell, hword⟩, hplain⟩

/-- The codeword of a definition executes `DOCOL`. -/
theorem State.Carries.executes_docol (hcarries : s.Carries w.table w.kernel program)
    {body : List Instruction} (hbody : program.body s.ip = some body) :
    s.Executes w.table { name := "DOCOL", effect := enter } :=
  ⟨w.first + 1, (hcarries.holds _ _ hbody).1, w.lookup 1 _ (w.getElem?_words rfl)⟩

/-- The codeword of a created word executes one of two words. -/
theorem executes_created {id : Nat} (hcell : s.memory.get s.ip = .native id)
    (hid : id = w.kernel.dovar ∨ id = w.kernel.docon) :
    s.Executes w.table { name := "(DOVAR)", hidden := true, control := .owned, effect := dovar } ∨
      s.Executes w.table
        { name := "(DOCON)", hidden := true, control := .owned, effect := docon } := by
  rcases hid with rfl | rfl
  · exact .inl ⟨w.first + 29, hcell, w.lookup 29 _ (w.getElem?_words rfl)⟩
  · exact .inr ⟨w.first + 30, hcell, w.lookup 30 _ (w.getElem?_words rfl)⟩

/-- What comes behind a plain word or behind `LIT` is the trampoline. -/
theorem State.Carries.executes_trampoline (hcarries : s.Carries w.table w.kernel program)
    (hmemory : s.memory.HasThreading w) {target : Address}
    (htarget : target ∈ program.plain ∨ target = w.kernel.lit) (hip : s.ip = target + 1) :
    s.Executes w.table trampoline := by
  rcases htarget with hplain | rfl
  · obtain ⟨id, hcell, hword⟩ := (hcarries.plain target hplain).behind
    exact ⟨id, hip ▸ hcell, hword⟩
  · exact executes_behind_lit hmemory hip

/-- A step that executes a word keeps the words that are active, unless the word changes the
depth. -/
theorem State.Executes.activate_eq (hword : s.Executes w.table word)
    (hmemory : s.memory.HasThreading w)
    (hdepth : ∀ s, (after word.effect s).depth = s.depth) :
    s.activate w.kernel active = active := by
  rw [activate, if_neg, if_neg]
  · intro hip
    have hexit := executes_exit hmemory hip
    rw [hword.unique hexit] at hdepth
    exact absurd (hdepth { returns := ⟨[.int 0]⟩, depth := 1 }) (by decide)
  · intro hcell
    have hdocol : s.Executes w.table { name := "DOCOL", effect := enter } :=
      ⟨w.first + 1, hcell, w.lookup 1 _ (w.getElem?_words rfl)⟩
    rw [hword.unique hdocol] at hdepth
    exact absurd (hdepth {}) (by decide)

/-! ## One step -/

section Stepping

variable {halt? : Option Halt}

/-- A step that does not fail settles what its word has done. -/
theorem State.Executes.exists_of_step (hword : s.Executes w.table word)
    (hstep : step w.table s = .ok halt? t) : ∃ u, word.effect s = .ok () u ∧
      t = match word.control with
        | .advance => { u with ip := s.ip + 1, halt? := none }
        | .owned => { u with halt? := none } := by
  rw [step_of_executes hword] at hstep
  rcases heffect : word.effect s with ⟨⟨⟩, u⟩ | ⟨error, u⟩
  · rw [heffect] at hstep
    refine ⟨u, rfl, ?_⟩
    rcases hcontrol : word.control
    all_goals
      rw [hcontrol] at hstep
      exact (EStateM.Result.ok.inj hstep).2.symm
  · rw [heffect] at hstep
    cases hstep

/-- What a reference leads to is called from inside a word. -/
theorem State.Runs.step_reference {target : Address} (hmemory : s.memory.HasThreading w)
    (hs : s.Runs w.kernel program loop base active) (hactive : active ≠ [])
    (hcell : s.memory.get s.ip = .reference target) (hstep : step w.table s = .ok halt? t) :
    t = { s with nip := s.ip + 1, ip := target, halt? := none } ∧
      s.activate w.kernel active = active := by
  have hdepth : s.depth ≠ 0 := by
    have hpositive := List.length_pos_iff.mpr hactive
    have hdeep := hs.deep
    omega
  rw [ThreadedForth.step_reference hcell, if_neg hdepth] at hstep
  refine ⟨(EStateM.Result.ok.inj hstep).2.symm, ?_⟩
  rw [activate, hcell, if_neg nofun, if_neg]
  intro hip
  obtain ⟨id, hexit, -⟩ := executes_exit hmemory hip
  cases hcell.symm.trans hexit

/-- At an instruction, what it calls is called; at the end of the body, `EXIT` is. -/
theorem State.Runs.step_instruction {outer : List Address}
    (hcarries : s.Carries w.table w.kernel program) (hmemory : s.memory.HasThreading w)
    (hs : s.Runs w.kernel program loop base (start :: outer))
    (hdivides : program.Divides start first rest s.ip) (hstep : step w.table s = .ok halt? t) :
    t.Runs w.kernel program loop base (s.activate w.kernel (start :: outer)) := by
  have hholds := hcarries.holds_rest hdivides
  rcases rest with _ | ⟨instruction, rest⟩
  · obtain ⟨rfl, hsame⟩ := hs.step_reference hmemory (List.cons_ne_nil _ _) hholds.1 hstep
    rw [hsame]
    exact ⟨.leaving rfl, hs.saved, hs.deep⟩
  have hnext := hdivides.next
  cases instruction with
  | call target =>
      obtain ⟨rfl, hsame⟩ := hs.step_reference hmemory (List.cons_ne_nil _ _) hholds.1 hstep
      rw [hsame]
      refine ⟨.called ?_ ⟨_, _, hnext⟩, hs.saved, hs.deep⟩
      cases hcarries.calls start _ hdivides.body target (by simp) with
      | definition h => exact .definition h
      | plain h => exact .plain h
      | created hcell hid hname => exact .created hcell hid hname
  | literal v =>
      obtain ⟨rfl, hsame⟩ := hs.step_reference hmemory (List.cons_ne_nil _ _) hholds.1 hstep
      have htwo : s.ip + Int64.ofNat (Instruction.literal v).cells.length = s.ip + 1 + 1 := by
        change s.ip + Int64.ofNat 2 = s.ip + 1 + 1
        grind
      rw [htwo] at hnext
      have hback : program.LeadsBack loop (start :: outer) (s.ip + 1 + 1) := ⟨_, _, hnext⟩
      rw [hsame]
      exact ⟨.operand rfl hholds.2.1 hback, hs.saved, hs.deep⟩

/-- The codeword of a definition makes it active. -/
theorem State.Runs.step_definition (hcarries : s.Carries w.table w.kernel program)
    (hs : s.Runs w.kernel program loop base active)
    (hdefinition : (program.body s.ip).isSome) (hback : program.LeadsBack loop active s.nip)
    (hstep : step w.table s = .ok halt? t) :
    t.Runs w.kernel program loop base (s.activate w.kernel active) := by
  obtain ⟨body, hbody⟩ := Option.isSome_iff_exists.mp hdefinition
  obtain ⟨u, heffect, rfl⟩ := (hcarries.executes_docol hbody).exists_of_step hstep
  cases heffect
  rw [activate, if_pos (hcarries.holds _ _ hbody).1]
  have hinside : program.Divides s.ip [] body (s.ip + 1) := Definitions.divides_start hbody
  exact ⟨.instruction rfl hinside, ⟨s.nip, _, rfl, hback, hs.saved⟩, Nat.succ_le_succ hs.deep⟩

/-- A plain word leaves the way back to the trampoline behind it. -/
theorem State.Runs.step_plain (hcarries : s.Carries w.table w.kernel program)
    (hmemory : s.memory.HasThreading w) (hs : s.Runs w.kernel program loop base active)
    (htarget : s.ip ∈ program.plain) (hback : program.LeadsBack loop active s.nip)
    (hstep : step w.table s = .ok halt? t) :
    t.Runs w.kernel program loop base (s.activate w.kernel active) := by
  obtain ⟨word, hword, hplain⟩ := (hcarries.plain s.ip htarget).executes
  obtain ⟨u, heffect, ht⟩ := hword.exists_of_step hstep
  rw [hplain.control] at ht
  subst ht
  -- neither the links nor `nip` have changed
  obtain ⟨hreturns, hdepth⟩ := hplain.links s
  have hnip := hplain.nip s
  rw [after_ok heffect] at hreturns hdepth hnip
  rw [hword.activate_eq hmemory fun s => (hplain.links s).2]
  refine ⟨.returning (.inl htarget) rfl ?_, ?_, ?_⟩
  · change program.LeadsBack loop active u.nip
    rwa [hnip]
  · change program.Saves loop base active u.returns.items
    rw [hreturns]
    exact hs.saved
  · change active.length ≤ u.depth
    rw [hdepth]
    exact hs.deep

/-- Whoever goes back into a word is at an instruction of it, or at its end. -/
theorem Definitions.LeadsBack.stage {link : Address} (h : program.LeadsBack loop active link)
    (hactive : active ≠ []) (hip : s.ip = link) : s.Stage w.kernel program loop active := by
  obtain ⟨start, outer, rfl⟩ := List.exists_cons_of_ne_nil hactive
  obtain ⟨first, rest, hdivides⟩ := h
  exact .instruction rfl (hip ▸ hdivides)

/-- The codeword of a created word goes back at once. -/
theorem State.Runs.step_created {id : Nat} (hmemory : s.memory.HasThreading w)
    (hs : s.Runs w.kernel program loop base active) (hcell : s.memory.get s.ip = .native id)
    (hid : id = w.kernel.dovar ∨ id = w.kernel.docon)
    (hback : program.LeadsBack loop active s.nip) (hactive : s.activate w.kernel active ≠ [])
    (hstep : step w.table s = .ok halt? t) :
    t.Runs w.kernel program loop base (s.activate w.kernel active) := by
  obtain ⟨parameters, rfl, hsame⟩ :
      ∃ parameters, t = { s with parameters, ip := s.nip, halt? := none } ∧
        s.activate w.kernel active = active := by
    rcases executes_created hcell hid with hword | hword
    · obtain ⟨u, heffect, rfl⟩ := hword.exists_of_step hstep
      cases heffect
      exact ⟨_, rfl, hword.activate_eq hmemory fun _ => rfl⟩
    · obtain ⟨u, heffect, rfl⟩ := hword.exists_of_step hstep
      refine ⟨u.parameters, ?_, hword.activate_eq hmemory fun s => ?_⟩
      · change docon s = _ at heffect
        rw [docon_apply] at heffect
        split at heffect
        · cases heffect
          rfl
        · cases heffect
      · change (after docon s).depth = s.depth
        rw [after, docon_apply]
        rcases s.literalAt (s.ip + 1) <;> rfl
  rw [hsame] at hactive ⊢
  exact ⟨hback.stage hactive rfl, hs.saved, hs.deep⟩

/-- `LIT` passes over its operand. -/
theorem State.Runs.step_operand {v : Value} (hmemory : s.memory.HasThreading w)
    (hs : s.Runs w.kernel program loop base active) (hip : s.ip = w.kernel.lit)
    (hoperand : s.memory.get s.nip = .literal v)
    (hback : program.LeadsBack loop active (s.nip + 1)) (hstep : step w.table s = .ok halt? t) :
    t.Runs w.kernel program loop base (s.activate w.kernel active) := by
  have hword : s.Executes w.table { name := "LIT", effect := Words.lit } :=
    executes_lit hmemory hip
  have hread : s.literalAt s.nip = .ok v := by
    rw [literalAt, hoperand]
    rfl
  have hsame : s.activate w.kernel active = active := by
    refine hword.activate_eq hmemory fun s => ?_
    change (after Words.lit s).depth = s.depth
    rw [after, lit_apply]
    rcases s.literalAt s.nip <;> rfl
  obtain ⟨u, heffect, rfl⟩ := hword.exists_of_step hstep
  change Words.lit s = _ at heffect
  rw [lit_apply, hread] at heffect
  cases heffect
  rw [hsame]
  exact ⟨.returning (.inr rfl) (congrArg (· + 1) hip) hback, hs.saved, hs.deep⟩

/-- The trampoline goes back to the caller. -/
theorem State.Runs.step_trampoline {target : Address}
    (hcarries : s.Carries w.table w.kernel program) (hmemory : s.memory.HasThreading w)
    (hs : s.Runs w.kernel program loop base active)
    (htarget : target ∈ program.plain ∨ target = w.kernel.lit) (hip : s.ip = target + 1)
    (hback : program.LeadsBack loop active s.nip) (hactive : s.activate w.kernel active ≠ [])
    (hstep : step w.table s = .ok halt? t) :
    t.Runs w.kernel program loop base (s.activate w.kernel active) := by
  have hword := hcarries.executes_trampoline hmemory htarget hip
  rw [hword.activate_eq hmemory fun _ => rfl] at hactive ⊢
  obtain ⟨u, heffect, rfl⟩ := hword.exists_of_step hstep
  cases heffect
  exact ⟨hback.stage hactive rfl, hs.saved, hs.deep⟩

/-- `EXIT` goes back into the word that has waited for this one. -/
theorem State.Runs.step_exit (hmemory : s.memory.HasThreading w)
    (hs : s.Runs w.kernel program loop base active) (hip : s.ip = w.kernel.exit)
    (hactive : s.activate w.kernel active ≠ []) (hstep : step w.table s = .ok halt? t) :
    t.Runs w.kernel program loop base (s.activate w.kernel active) := by
  have hword : s.Executes w.table { name := "EXIT", control := .owned, effect := Effect.exit } :=
    executes_exit hmemory hip
  have hsame : s.activate w.kernel active = active.tail := by
    rw [activate, if_neg, if_pos hip]
    intro hcell
    have hdocol : s.Executes w.table { name := "DOCOL", effect := enter } :=
      ⟨w.first + 1, hcell, w.lookup 1 _ (w.getElem?_words rfl)⟩
    cases congrArg Primitive.control (hword.unique hdocol)
  rw [hsame] at hactive ⊢
  rcases active with _ | ⟨inner, outer⟩
  · exact absurd rfl hactive
  obtain ⟨link, items, hitems, hback, hsaved⟩ := hs.saved
  have hdeep : outer.length + 1 ≤ s.depth := hs.deep
  have hdepth : s.depth ≠ 0 := by omega
  have hexit : Effect.exit s =
      .ok () { s with returns := ⟨items⟩, depth := s.depth - 1, nip := link, ip := link } := by
    rw [Effect.exit, get_bind]
    simp only [hitems, if_neg hdepth]
    rfl
  obtain ⟨u, heffect, rfl⟩ := hword.exists_of_step hstep
  cases hexit.symm.trans heffect
  refine ⟨hback.stage hactive rfl, hsaved, ?_⟩
  change outer.length ≤ s.depth - 1
  omega

/-- **A step stays inside the program**, as long as a word is active. -/
theorem State.Runs.of_step (hcarries : s.Carries w.table w.kernel program)
    (hmemory : s.memory.HasThreading w) (hs : s.Runs w.kernel program loop base active)
    (hactive : s.activate w.kernel active ≠ []) (hstep : step w.table s = .ok halt? t) :
    t.Runs w.kernel program loop base (s.activate w.kernel active) := by
  cases hs.stage with
  | instruction hfirst hdivides =>
      subst hfirst
      exact hs.step_instruction hcarries hmemory hdivides hstep
  | called hcall hback =>
      cases hcall with
      | definition h => exact hs.step_definition hcarries h hback hstep
      | plain h => exact hs.step_plain hcarries hmemory h hback hstep
      | created hcell hid _ => exact hs.step_created hmemory hcell hid hback hactive hstep
  | operand hip hoperand hback => exact hs.step_operand hmemory hip hoperand hback hstep
  | returning htarget hip hback =>
      exact hs.step_trampoline hcarries hmemory htarget hip hback hactive hstep
  | leaving hip => exact hs.step_exit hmemory hip hactive hstep

end Stepping

end ThreadedForth
