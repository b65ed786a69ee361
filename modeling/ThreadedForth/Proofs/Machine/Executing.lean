import Mathlib.Data.List.Nodup
import ThreadedForth.Proofs.Machine.Runs
import ThreadedForth.Proofs.Machine.FailingStep
import ThreadedForth.Proofs.Words.Making

/-!
# The word that a step executes

A step executes a word if the cell at `ip` holds the number of one, and then all that the step does
is to `settle` what the word has done.  Every other step leaves memory, the dictionary and the input
alone.
-/

namespace ThreadedForth

open Effect Words

/-- The cell at `ip` is that of a primitive. -/
def State.Executes (table : PrimitiveTable) (s : State) (word : Primitive) : Prop :=
  ∃ id, s.memory.get s.ip = .native id ∧ table.lookup id = .ok word

namespace Effect

/-- How a step ends after its primitive. -/
def settle (control : Control) (address : Address) :
    EStateM.Result Error State Unit → EStateM.Result Error State (Option Halt)
  | .error error s =>
    .error (error.locate ({ s with ip := address }.contextAt address)) { s with ip := address }
  | .ok () s =>
    match control with
    | .advance => finish { s with ip := address + 1 }
    | .owned => finish s

end Effect

variable {table : PrimitiveTable} {s t : State} {word : Primitive} {error : Error}

theorem State.Executes.mem (h : s.Executes standardTable word) : word ∈ vocabulary :=
  let ⟨_, _, hword⟩ := h
  mem_of_lookup hword

theorem State.Executes.unique {other : Primitive} (h : s.Executes table word)
    (h' : s.Executes table other) : word = other := by
  obtain ⟨id, hcell, hword⟩ := h
  obtain ⟨id', hcell', hother⟩ := h'
  cases hcell.symm.trans hcell'
  exact Except.ok.inj (hword.symm.trans hother)

theorem step_of_executes (h : s.Executes table word) :
    step table s = settle word.control s.ip (word.effect s) := by
  obtain ⟨id, hcell, hword⟩ := h
  simp only [step, hcell, hword]
  rcases word.effect s with ⟨⟨⟩, t⟩ | ⟨error, t⟩
  · rcases word.control <;> rfl
  · rfl

/-- A step that settles a success takes note of a halt. -/
theorem settle_ok (control : Control) (address : Address) (s : State) :
    ∃ ip, settle control address (.ok () s) = .ok s.halt? { s with ip, halt? := none } := by
  cases control with
  | advance => exact ⟨address + 1, rfl⟩
  | owned => exact ⟨s.ip, rfl⟩

/-- A step executes a word of the table, or else it changes `ip` and `nip` only or fails at once,
whatever the surroundings are. -/
theorem step_cases_within (table : PrimitiveTable) (s : State) :
    (∃ word, s.Executes table word) ∨
    (∃ ip nip, ∀ around, step table (s.within around) =
      .ok s.halt? (State.within { s with ip, nip, halt? := none } around)) ∨
    ∃ error, ∀ around, step table (s.within around) = .error error (s.within around) := by
  have hsame : ∀ around, (s.within around).memory.get (s.within around).ip =
      s.memory.get s.ip := fun _ => rfl
  rcases hcell : s.memory.get s.ip with id | target | v | _
  · rcases hlookup : table.lookup id with cause | word
    · refine .inr (.inr ⟨Error.locate cause (s.contextAt s.ip), fun around => ?_⟩)
      simp only [step, hsame, hcell, hlookup]
      rfl
    · exact .inl ⟨word, id, hcell, hlookup⟩
  · refine .inr (.inl ⟨target, if s.depth = 0 then s.nip else s.ip + 1, fun around => ?_⟩)
    simp only [step, hsame, hcell]
    rfl
  · refine .inr (.inl ⟨s.ip + 1, s.nip, fun around => ?_⟩)
    simp only [step, hsame, hcell]
    rfl
  · refine .inr (.inr ⟨Error.locate (Cause.unknownCell s.ip) (s.contextAt s.ip), fun around => ?_⟩)
    simp only [step, hsame, hcell]
    rfl

theorem step_cases (table : PrimitiveTable) (s : State) :
    (∃ word, s.Executes table word) ∨
    (∃ ip nip, step table s = .ok s.halt? { s with ip, nip, halt? := none }) ∨
    ∃ error, step table s = .error error s :=
  (step_cases_within table s).imp_right (.imp
    (fun ⟨ip, nip, hstep⟩ => ⟨ip, nip, hstep s.surroundings⟩)
    fun ⟨error, hstep⟩ => ⟨error, hstep s.surroundings⟩)

/-! ## What the words do to the state -/

theorem nodup_names : (vocabulary.map Primitive.name).Nodup := by decide +kernel

/-- Words are told apart by their names. -/
theorem eq_of_name {other : Primitive} {id : Nat} (hword : word ∈ vocabulary)
    (hother : vocabulary[id]? = some other) (hname : word.name = other.name) : word = other :=
  List.inj_on_of_nodup_map nodup_names hword (List.mem_of_getElem? hother) hname

theorem effect_of_name_interpret : ∀ word ∈ vocabulary, word.name = "INTERPRET" →
    word.effect = interpret ∧ word.control = .owned := by
  intro word hword hname
  rw [eq_of_name hword (show vocabulary[7]? = some _ from rfl) hname]
  exact ⟨rfl, rfl⟩

theorem effect_of_name_docol : ∀ word ∈ vocabulary, word.name = "DOCOL" → word.effect = enter :=
  fun _ hword hname =>
    congrArg Primitive.effect (eq_of_name hword (show vocabulary[1]? = some _ from rfl) hname)

theorem effect_of_name_exit : ∀ word ∈ vocabulary, word.name = "EXIT" → word.effect = Effect.exit :=
  fun _ hword hname =>
    congrArg Primitive.effect (eq_of_name hword (show vocabulary[2]? = some _ from rfl) hname)

theorem effect_of_name_quit : ∀ word ∈ vocabulary, word.name = "QUIT" → word.effect = restart :=
  fun _ hword hname =>
    congrArg Primitive.effect (eq_of_name hword (show vocabulary[8]? = some _ from rfl) hname)

theorem effect_of_name_bye : ∀ word ∈ vocabulary, word.name = "BYE" →
    word.effect = requestHalt .bye :=
  fun _ hword hname =>
    congrArg Primitive.effect (eq_of_name hword (show vocabulary[9]? = some _ from rfl) hname)

theorem effect_of_name_comment : ∀ word ∈ vocabulary, word.name = "(" → word.effect = comment :=
  fun _ hword hname =>
    congrArg Primitive.effect (eq_of_name hword (show vocabulary[54]? = some _ from rfl) hname)

theorem effect_of_name_allot : ∀ word ∈ vocabulary, word.name = "ALLOT" → word.effect = allot :=
  fun _ hword hname =>
    congrArg Primitive.effect (eq_of_name hword (show vocabulary[18]? = some _ from rfl) hname)

/-- The words that are able to write anywhere write to the address on the stack. -/
theorem patches_of_mem_vocabulary : ∀ word ∈ vocabulary, word.name ∈ Ability.patch.words →
    Patches word.effect := by
  intro word hword hname
  simp only [Ability.words, List.mem_cons, List.not_mem_nil, or_false] at hname
  rcases hname with hname | hname
  · rw [eq_of_name hword (show vocabulary[15]? = some _ from rfl) hname]
    exact patches_store
  · rw [eq_of_name hword (show vocabulary[70]? = some _ from rfl) hname]
    exact patches_plusStore

/-- The words that are able to enter a name do nothing else out of the ordinary. -/
theorem namesOnce_of_mem_vocabulary : ∀ word ∈ vocabulary, word.name ∈ Ability.define.words →
    NamesOnce word.effect := by
  intro word hword hname
  simp only [Ability.words, List.mem_cons, List.not_mem_nil, or_false] at hname
  rcases hname with hname | hname | hname | hname
  · rw [eq_of_name hword (show vocabulary[19]? = some _ from rfl) hname]
    exact namesOnce_colon
  · rw [eq_of_name hword (show vocabulary[26]? = some _ from rfl) hname]
    exact namesOnce_create
  · rw [eq_of_name hword (show vocabulary[27]? = some _ from rfl) hname]
    exact namesOnce_variableWord
  · rw [eq_of_name hword (show vocabulary[28]? = some _ from rfl) hname]
    exact namesOnce_constant

/-- What `INTERPRET` does with a token. -/
def Effect.heed (token : String) : Effect Unit := do
  let mode ← examine State.mode
  act mode (← examine (·.classify token))

theorem interpret_none {input : Input} (h : s.input.readToken = (none, input)) :
    interpret s = .ok () { s with input, halt? := some .endOfInput } := by
  rw [interpret, bind_ok (readToken?_ok h)]
  rfl

theorem interpret_some {token : String} {input : Input}
    (h : s.input.readToken = (some token, input)) :
    interpret s = heed token { s with input } := by
  rw [interpret, bind_ok (readToken?_ok h)]
  rfl

theorem madeOf_heed {able : Ability → Prop} (token : String) : MadeOf able (heed token) :=
  .bind (.examine fun _ _ => rfl) fun _ => .bind (.examine fun _ _ => rfl) fun _ => madeOf_act _ _

/-- Every word makes the changes only that it is able to make. -/
theorem becomes_of_mem_vocabulary (h : word ∈ vocabulary) (s : State) :
    s.Becomes (fun ability => word.name ∈ ability.words) (after word.effect s) := by
  by_cases hinterpret : word.name = "INTERPRET"
  · rw [(effect_of_name_interpret word h hinterpret).1, hinterpret]
    rcases hread : s.input.readToken with ⟨_ | token, input⟩
    · rw [after_ok (interpret_none hread)]
      have hinput : s.Changes (fun ability => "INTERPRET" ∈ ability.words) { s with input } :=
        .elsewhere rfl rfl rfl rfl rfl rfl
      exact hinput.becomes.tail (.halt (by decide) .endOfInput)
    · have hinput : s.Changes (fun ability => "INTERPRET" ∈ ability.words) { s with input } :=
        .elsewhere rfl rfl rfl rfl rfl rfl
      rw [after, interpret_some hread]
      exact hinput.becomes.trans ((madeOf_heed token).becomes _)
  · by_cases hcomment : word.name = "("
    · rw [effect_of_name_comment word h hcomment]
      exact State.Changes.becomes (.elsewhere rfl rfl rfl rfl rfl rfl)
    · exact (madeOf_of_mem_vocabulary h hinterpret hcomment).becomes s

/-! ## The kernel -/

/-- If no word of the table changes what the machine knows of its kernel, then no step does. -/
theorem kernel?_after_step_of_table
    (htable : ∀ id word, table.lookup id = .ok word →
      ∀ s, (after word.effect s).kernel? = s.kernel?) (s : State) :
    (after (step table) s).kernel? = s.kernel? := by
  rcases step_cases table s with ⟨word, hword⟩ | ⟨ip, nip, hstep⟩ | ⟨error, hstep⟩
  · have hstep := step_of_executes hword
    obtain ⟨id, -, hlookup⟩ := hword
    have hsame := htable id word hlookup s
    rcases hresult : word.effect s with ⟨⟨⟩, t⟩ | ⟨error, t⟩
    · obtain ⟨ip, hsettle⟩ := settle_ok word.control s.ip t
      rw [hresult, hsettle] at hstep
      rw [after_ok hstep, ← hsame, after_ok hresult]
    · rw [hresult] at hstep
      rw [after_error hstep, ← hsame, after_error hresult]
  · rw [after_ok hstep]
  · rw [after_error hstep]

theorem kernel?_after_step (s : State) : (after (step standardTable) s).kernel? = s.kernel? :=
  kernel?_after_step_of_table (fun _ _ hword s =>
    (becomes_of_mem_vocabulary (mem_of_lookup hword) s).kernel?_eq) s

/-! ## Halting -/

/-- Only `BYE` asks for a halt, and `INTERPRET` if there is no token left. -/
theorem halt?_after (hword : word ∈ vocabulary) (s : State) :
    (after word.effect s).halt? = s.halt? ∨
      word.effect s = .ok () { s with halt? := some .bye } ∨
      word.name = "INTERPRET" ∧ s.input.readToken.1 = none ∧
        word.effect s =
          .ok () { s with input := s.input.readToken.2, halt? := some .endOfInput } := by
  by_cases hbye : word.name = "BYE"
  · refine .inr (.inl ?_)
    rw [effect_of_name_bye word hword hbye]
    rfl
  · by_cases hinterpret : word.name = "INTERPRET"
    · rw [(effect_of_name_interpret word hword hinterpret).1]
      rcases hread : s.input.readToken with ⟨_ | token, input⟩
      · exact .inr (.inr ⟨hinterpret, rfl, interpret_none hread⟩)
      · have hmade : MadeOf (fun _ => False) (heed token) := madeOf_heed token
        refine .inl ?_
        rw [after, interpret_some hread]
        exact (hmade.becomes { s with input }).halt?_eq id
    · refine .inl ((becomes_of_mem_vocabulary hword s).halt?_eq ?_)
      simp [Ability.words, hbye, hinterpret]

/-- Only `INTERPRET` finds that the input has ended. -/
theorem interpret_of_halt (hs : s.halt? = none)
    (h : step standardTable s = .ok (some .endOfInput) t) :
    (∃ word, s.Executes standardTable word ∧ word.name = "INTERPRET") ∧ s.input.readToken.1 = none ∧
      t = { s with input := s.input.readToken.2 } := by
  rcases step_cases standardTable s with ⟨word, hword⟩ | ⟨ip, nip, hstep⟩ | ⟨error, hstep⟩
  · rw [step_of_executes hword] at h
    rcases halt?_after hword.mem s with hsame | hbye | ⟨hname, hnone, hend⟩
    · rcases hresult : word.effect s with ⟨⟨⟩, u⟩ | ⟨error, u⟩
      · obtain ⟨ip, hsettle⟩ := settle_ok word.control s.ip u
        rw [after_ok hresult, hs] at hsame
        rw [hresult, hsettle, hsame] at h
        cases h
      · rw [hresult] at h
        cases h
    · obtain ⟨ip, hsettle⟩ := settle_ok word.control s.ip { s with halt? := some .bye }
      rw [hbye, hsettle] at h
      cases h
    · rw [hend, (effect_of_name_interpret word hword.mem hname).2] at h
      refine ⟨⟨word, hword, hname⟩, hnone, ?_⟩
      injection h with _ ht
      rw [← ht, ← hs]
  · rw [hstep, hs] at h
    cases h
  · rw [hstep] at h
    cases h

/-- A step that does not fail has dealt with the request to halt, whatever the table is. -/
theorem halt?_of_step_ok {halt? : Option Halt} (h : step table s = .ok halt? t) :
    t.halt? = none := by
  rcases step_cases table s with ⟨word, hword⟩ | ⟨ip, nip, hstep⟩ | ⟨error, hstep⟩
  · rw [step_of_executes hword] at h
    rcases hresult : word.effect s with ⟨⟨⟩, u⟩ | ⟨error, u⟩
    · obtain ⟨ip, hsettle⟩ := settle_ok word.control s.ip u
      rw [hresult, hsettle] at h
      cases h
      rfl
    · rw [hresult] at h
      cases h
  · cases hstep.symm.trans h
    rfl
  · cases hstep.symm.trans h

/-- A word that fails has not asked for a halt. -/
theorem halt?_of_effect_error (hword : word ∈ vocabulary) (h : word.effect s = .error error t) :
    t.halt? = s.halt? := by
  rcases halt?_after hword s with hsame | hbye | ⟨-, -, hend⟩
  · rwa [after_error h] at hsame
  · cases hbye.symm.trans h
  · cases hend.symm.trans h

/-- A step that fails leaves what its word left, except for `ip`. -/
theorem step_error_cases (h : step table s = .error error t) :
    t = s ∨ ∃ id word error' u, table.lookup id = .ok word ∧ word.effect s = .error error' u ∧
      t = { u with ip := s.ip } := by
  rcases step_cases table s with ⟨word, hword⟩ | ⟨ip, nip, hstep⟩ | ⟨_, hstep⟩
  · rw [step_of_executes hword] at h
    obtain ⟨id, -, hword⟩ := hword
    rcases hresult : word.effect s with ⟨⟨⟩, u⟩ | ⟨error', u⟩
    · obtain ⟨ip, hsettle⟩ := settle_ok word.control s.ip u
      rw [hresult, hsettle] at h
      cases h
    · rw [hresult] at h
      cases h
      exact .inr ⟨id, word, error', u, hword, hresult, rfl⟩
  · cases hstep.symm.trans h
  · cases hstep.symm.trans h
    exact .inl rfl

theorem halt?_of_step_error (h : step standardTable s = .error error t) : t.halt? = s.halt? := by
  rcases step_error_cases h with rfl | ⟨id, word, error', u, hword, heffect, rfl⟩
  · rfl
  · have hsame := halt?_of_effect_error (mem_of_lookup hword) heffect
    exact hsame

/-! ## Recovering -/

namespace Machine

variable {kernel : Kernel} {report : Bool} {before after : Progress}

/-- A step of a run succeeds without a halt, or it fails and is recovered from. -/
theorem goes_cases (h : Goes table kernel report before after) :
    (step table before.1 = .ok none after.1 ∧ after.2 = before.2) ∨
    ∃ error t output, step table before.1 = .error error t ∧
      after.2 = before.2.push error ∧
      after.1 = { t with input := t.input.dropLine, output, ip := kernel.quit } := by
  rcases hstep : step table before.1 with ⟨halt?, t⟩ | ⟨error, t⟩
  · simp only [Goes, advance, hstep, Prod.mk.injEq] at h
    obtain ⟨rfl, rfl⟩ := h
    exact .inl ⟨rfl, rfl⟩
  · simp only [Goes, advance, hstep, Prod.mk.injEq, true_and] at h
    obtain ⟨output, hrecover⟩ := exists_recover report kernel.quit error t
    subst h
    exact .inr ⟨error, t, output, rfl, rfl, hrecover t.input⟩

/-- After a step that does not halt, the machine is still not about to. -/
theorem halt?_of_goes (h : Goes standardTable kernel report before after)
    (hbefore : before.1.halt? = none) :
    after.1.halt? = none := by
  rcases goes_cases h with ⟨hstep, -⟩ | ⟨error, t, output, hstep, -, hafter⟩
  · exact halt?_of_step_ok hstep
  · rw [hafter, ← hbefore, ← halt?_of_step_error hstep]

theorem kernel?_of_goes (h : Goes standardTable kernel report before after) :
    after.1.kernel? = before.1.kernel? := by
  have hsame := kernel?_after_step before.1
  rcases goes_cases h with ⟨hstep, -⟩ | ⟨error, t, output, hstep, -, hafter⟩
  · rw [← hsame, after_ok hstep]
  · rw [hafter, ← hsame, after_error hstep]

theorem halt?_of_comes (h : Comes standardTable kernel report before after)
    (hbefore : before.1.halt? = none) :
    after.1.halt? = none := by
  induction h with
  | refl => exact hbefore
  | tail _ hgoes ih => exact halt?_of_goes hgoes ih

theorem kernel?_of_comes (h : Comes standardTable kernel report before after) :
    after.1.kernel? = before.1.kernel? := by
  induction h with
  | refl => rfl
  | tail _ hgoes ih => exact (kernel?_of_goes hgoes).trans ih

/-- The failures that were recovered from stay on record. -/
theorem recovered_of_comes (h : Comes table kernel report before after) :
    ∃ errors : List Error, after.2 = before.2 ++ errors.toArray := by
  induction h with
  | refl => exact ⟨[], by simp⟩
  | tail _ hgoes ih =>
      obtain ⟨errors, herrors⟩ := ih
      rcases goes_cases hgoes with ⟨-, hsame⟩ | ⟨error, t, output, -, hpush, -⟩
      · exact ⟨errors, hsame.trans herrors⟩
      · exact ⟨errors ++ [error], by rw [hpush, herrors]; simp⟩

/-- What was recovered from on the way is still on record when the run ends. -/
theorem exists_recovered_of_loop {fuel : Nat} {halt : Halt} {recovered : Array Error}
    (h : Comes table kernel report before after)
    (hloop : loop table report kernel.quit fuel none before.1 before.2 =
      some (halt, t, recovered)) :
    ∃ errors : List Error, recovered = after.2 ++ errors.toArray := by
  obtain ⟨rest, hrest⟩ := (exists_loop_iff_of_comes h).mp ⟨fuel, hloop⟩
  obtain ⟨u, hcomes, -⟩ := comes_of_loop hrest
  exact recovered_of_comes hcomes

/-- If nothing was recovered from on the way, then no step failed. -/
theorem reaches_of_comes (h : Comes table kernel report before after)
    (hsame : after.2.size = before.2.size) :
    Reaches table before.1 after.1 := by
  induction h using Relation.ReflTransGen.head_induction_on with
  | refl => exact .refl _
  | @head before middle hgoes hcomes ih =>
      obtain ⟨errors, herrors⟩ := recovered_of_comes hcomes
      have hsize := congrArg Array.size herrors
      rw [Array.size_append] at hsize
      rcases goes_cases hgoes with ⟨hstep, hmiddle⟩ | ⟨error, t, output, -, hpush, -⟩
      · exact (Reaches.single hstep).trans (ih (by rw [hmiddle]; exact hsame))
      · rw [hpush, Array.size_push] at hsize
        omega

/-- A source that is interpreted with nothing to recover from has no first failure. -/
theorem Interprets.not_firstFails {m done : Machine} {source : String} {cause : Cause}
    (h : m.Interprets source done) (hkernel : m.state.kernel? = some kernel)
    (hsame : done.recovered = m.recovered) : ¬ m.FirstFails source s cause := by
  rintro ⟨⟨n, hsteps⟩, error, hfails, -⟩
  obtain ⟨steps, hrun⟩ := h
  obtain ⟨t, recovered, hloop, hdone⟩ :=
    (runSource_eq_some_iff (m := { m with stepLimit := none }) hkernel).mp
      (hrun none steps (Nat.le_refl steps) nofun)
  have hreaches := (Reaches.of_stepTimes hsteps).2
  have hcomes : Comes m.primitives kernel m.report (m.started source, m.recovered) _ :=
    (comes_of_reaches hreaches m.recovered).tail (goes_of_error hfails m.recovered)
  obtain ⟨errors, herrors⟩ := exists_recovered_of_loop hcomes hloop
  have hrecovered : done.recovered = recovered :=
    (congrArg Machine.recovered hdone).trans (recovered_tell _ _)
  rw [hsame, herrors] at hrecovered
  have hsize := congrArg Array.size hrecovered
  rw [Array.size_append, Array.size_push] at hsize
  omega

end Machine

end ThreadedForth
