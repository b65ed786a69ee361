import ThreadedForth.Proofs.Machine.AppendOnly

/-!
# Calls are balanced

A call saves its link on the return stack and takes the machine one level deeper, and the way back
takes both again.  `QUIT` begins anew at depth 1 and without a link.  So from the first `QUIT` on
the depth is always one more than the number of links, and all links are addresses, whatever memory
holds and however often the machine recovers.  A program breaks this only if it uses the return
stack for itself.
-/

namespace ThreadedForth

open Effect Words

/-- The words by which a program uses the return stack for itself. -/
def returnStackWords : List String := [">R", "R>", "RDROP", "RSP!"]

/-- There is a link for every level but the first one, and every link is an address. -/
structure State.IsBalanced (s : State) : Prop where
  depth : s.depth = s.returns.size + 1
  links : ∀ v ∈ s.returns.items, ∃ link, v = .int link

variable {s t : State} {word : Primitive}

namespace State

/-! ## The words that call and return -/

theorem IsBalanced.congr (hs : s.IsBalanced) (hreturns : t.returns = s.returns)
    (hdepth : t.depth = s.depth) : t.IsBalanced :=
  ⟨by rw [hdepth, hreturns, hs.depth], by rw [hreturns]; exact hs.links⟩

theorem IsBalanced.enter (hs : s.IsBalanced) : (after Effect.enter s).IsBalanced := by
  refine ⟨congrArg (· + 1) hs.depth, fun v hv => ?_⟩
  rcases List.mem_cons.mp hv with rfl | hv
  · exact ⟨s.nip, rfl⟩
  · exact hs.links v hv

/-- The way back is there, except on the first level. -/
theorem IsBalanced.exit_cases (hs : s.IsBalanced) :
    (s.depth = 1 ∧ Effect.exit s = .error { cause := .unbalancedReturn } s) ∨
      ∃ link rest, s.depth ≠ 1 ∧ s.returns.items = .int link :: rest ∧ Effect.exit s =
        .ok () { s with returns := ⟨rest⟩, depth := s.depth - 1, nip := link, ip := link } := by
  have hdepth := hs.depth
  rw [Stack.size] at hdepth
  rcases hitems : s.returns.items with _ | ⟨v, rest⟩
  · refine .inl ⟨by rw [hdepth, hitems]; rfl, ?_⟩
    rw [Effect.exit, Effect.get_bind]
    simp only [hitems]
    rfl
  · obtain ⟨link, rfl⟩ := hs.links v (by rw [hitems]; exact List.mem_cons_self)
    rw [hitems, List.length_cons] at hdepth
    refine .inr ⟨link, rest, by omega, rfl, ?_⟩
    have hpositive : s.depth ≠ 0 := by omega
    rw [Effect.exit, Effect.get_bind]
    simp only [hitems, if_neg hpositive]
    rfl

theorem IsBalanced.exit (hs : s.IsBalanced) : (after Effect.exit s).IsBalanced := by
  rcases hs.exit_cases with ⟨-, herror⟩ | ⟨link, rest, -, hitems, hok⟩
  · rw [after_error herror]
    exact hs
  · have hdepth := hs.depth
    rw [Stack.size, hitems, List.length_cons] at hdepth
    rw [after_ok hok]
    refine ⟨?_, fun v hv => hs.links v (by rw [hitems]; exact List.mem_cons_of_mem _ hv)⟩
    change s.depth - 1 = rest.length + 1
    omega

/-- `QUIT` begins anew, in whatever state the machine is. -/
theorem isBalanced_restart {kernel : Kernel} (hkernel : s.kernel? = some kernel) :
    (after restart s).IsBalanced := by
  have hread : s.kernel = .ok kernel := by rw [State.kernel, hkernel]
  have hok : restart s = .ok () { s.setMode .interpret with
      returns := {}, depth := 1, ip := kernel.outerLoop } := bind_ok (examine_ok hread)
  rw [after_ok hok]
  exact ⟨rfl, fun v hv => by cases hv⟩

/-! ## Steps -/

/-- Every word keeps the balance, whether it fails or not. -/
theorem IsBalanced.after_word (hs : s.IsBalanced) (hword : word ∈ vocabulary)
    (hname : word.name ∉ returnStackWords) {kernel : Kernel} (hkernel : s.kernel? = some kernel) :
    (after word.effect s).IsBalanced := by
  by_cases hdocol : word.name = "DOCOL"
  · rw [effect_of_name_docol word hword hdocol]
    exact hs.enter
  by_cases hexit : word.name = "EXIT"
  · rw [effect_of_name_exit word hword hexit]
    exact hs.exit
  by_cases hquit : word.name = "QUIT"
  · rw [effect_of_name_quit word hword hquit]
    exact isBalanced_restart hkernel
  have hlink : word.name ∉ Ability.link.words := by
    simp only [returnStackWords, List.mem_cons, List.not_mem_nil, or_false, not_or] at hname
    simp [Ability.words, hdocol, hexit, hquit, hname]
  obtain ⟨hreturns, hdepth⟩ := (becomes_of_mem_vocabulary hword s).links_eq hlink
  exact hs.congr hreturns hdepth

theorem kernel?_move {table : PrimitiveTable} {kernel : Kernel} {report : Bool}
    (hwords : ∀ id word, table.lookup id = .ok word →
      ∀ s, (after word.effect s).kernel? = s.kernel?) (input? : Option Input) :
    (s.move table kernel report input?).kernel? = s.kernel? :=
  move_keeps (P := fun t => t.kernel? = s.kernel?) input?
    (fun id word hword => hwords id word hword s) rfl fun _ _ _ _ _ _ h => h

/-- No word changes what the machine knows of its kernel. -/
theorem kernel?_of_lookup {id : Nat} (hword : standardTable.lookup id = .ok word) (s : State) :
    (after word.effect s).kernel? = s.kernel? :=
  (becomes_of_mem_vocabulary (mem_of_lookup hword) s).kernel?_eq

section Moving

variable {report : Bool} {kernel : Kernel} (hkernel : s.kernel? = some kernel)
include hkernel

/-- A move keeps the balance. -/
theorem IsBalanced.move (hs : s.IsBalanced) (input? : Option Input) (hcalls : input? = none →
      ∀ word, s.Executes standardTable word → word.name ∉ returnStackWords) :
    (s.move standardTable kernel report input?).IsBalanced := by
  cases input? with
  | some input => exact hs.congr rfl rfl
  | none =>
      rcases move_none standardTable kernel report s with
        ⟨word, hword⟩ | ⟨ip, nip, input, output, halt?, hmove⟩
      · obtain ⟨ip, input, output, halt?, hmove⟩ := move_of_executes kernel report hword
        rw [hmove]
        exact (hs.after_word hword.mem (hcalls rfl word hword) hkernel).congr rfl rfl
      · rw [hmove]
        exact hs.congr rfl rfl

theorem isBalanced_move_quit (hword : s.Executes standardTable word) (hname : word.name = "QUIT") :
    (s.move standardTable kernel report none).IsBalanced := by
  obtain ⟨ip, input, output, halt?, hmove⟩ := move_of_executes kernel report hword
  rw [hmove, effect_of_name_quit word hword.mem hname]
  exact (isBalanced_restart hkernel).congr rfl rfl

end Moving

/-- Where calls are balanced, `EXIT` fails on the first level only, because there is no link. -/
theorem IsBalanced.step_exit (hs : s.IsBalanced) (hword : s.Executes standardTable word)
    (hname : word.name = "EXIT") :
    (∀ error t, step standardTable s = .error error t → error.cause = .unbalancedReturn) ∧
      ((∃ error t, step standardTable s = .error error t) ↔ s.depth = 1) := by
  have hstep := step_of_executes hword
  rw [effect_of_name_exit word hword.mem hname] at hstep
  rcases hs.exit_cases with ⟨hdepth, herror⟩ | ⟨link, rest, hdepth, -, hok⟩
  · rw [herror, settle] at hstep
    refine ⟨fun error t hfails => ?_, fun _ => hdepth, fun _ => ⟨_, _, hstep⟩⟩
    rw [hstep] at hfails
    injection hfails with hsame _
    rw [← hsame]
    rfl
  · obtain ⟨ip, hsettle⟩ := settle_ok word.control s.ip
      { s with returns := ⟨rest⟩, depth := s.depth - 1, nip := link, ip := link }
    rw [hok, hsettle] at hstep
    refine ⟨fun error t hfails => ?_, ?_, fun hone => absurd hone hdepth⟩
    · rw [hstep] at hfails
      cases hfails
    · rintro ⟨error, t, hfails⟩
      rw [hstep] at hfails
      cases hfails

end State

/-! ## Runs -/

section Running

variable {table : PrimitiveTable} {kernel known : Kernel} {report : Bool} {trace : ℕ → State}
variable {inputs : ℕ → Option Input} {n q : ℕ}

theorem kernel?_of_moves
    (hwords : ∀ id word, table.lookup id = .ok word →
      ∀ s, (after word.effect s).kernel? = s.kernel?)
    (hkernel : (trace 0).kernel? = some known)
    (hmoves : ∀ i < n, trace (i + 1) = (trace i).move table kernel report (inputs i)) :
    ∀ i ≤ n, (trace i).kernel? = some known := by
  intro i hi
  induction i with
  | zero => exact hkernel
  | succ i ih =>
      rw [hmoves i hi, State.kernel?_move hwords]
      exact ih (Nat.le_of_lt hi)

/-- **Calls are balanced.**  Let a machine be set up with the kernel and the library, and let it be
in any state, with anything in memory.  Let it make any number of steps on any sources, with
whatever failures to recover from, and let one of the steps execute `QUIT`.  As long as no later
step executes a word that uses the return stack for itself, the depth is one more than the number of
links, and every link is an address.

Then `EXIT` can fail only because there is no link, and it fails exactly if the depth is 1. -/
theorem calls_are_balanced {fresh m : Machine} (hprimitives : fresh.primitives = #[])
    (hm : fresh.bootstrap [libraryWords] = .ok () m) (hstart : (trace 0).kernel? = m.state.kernel?)
    (hmoves : ∀ i < n,
      trace (i + 1) = (trace i).move standardTable standardKernel report (inputs i))
    (hquit : q < n ∧ inputs q = none ∧
      ∃ word, (trace q).Executes standardTable word ∧ word.name = "QUIT")
    (hcalls : ∀ i < n, q < i → inputs i = none →
      ∀ word, (trace i).Executes standardTable word → word.name ∉ returnStackWords) :
    ∀ i ≤ n, q < i → (trace i).IsBalanced ∧
      ∀ word, (trace i).Executes standardTable word → word.name = "EXIT" →
        (∀ error t, step standardTable (trace i) = .error error t →
          error.cause = .unbalancedReturn) ∧
        ((∃ error t, step standardTable (trace i) = .error error t) ↔ (trace i).depth = 1) := by
  have hkernel := kernel?_of_moves (fun _ _ => State.kernel?_of_lookup)
    (hstart.trans (isStandard_of_bootstrap hprimitives hm).kernel) hmoves
  obtain ⟨hq, hstep, word, hword, hname⟩ := hquit
  have hbalanced : ∀ i ≤ n, q < i → (trace i).IsBalanced := by
    intro i hi hqi
    induction i, hqi using Nat.le_induction with
    | base =>
        rw [hmoves q hq, hstep]
        exact State.isBalanced_move_quit (hkernel q (Nat.le_of_lt hq)) hword hname
    | succ i hqi ih =>
        rw [hmoves i hi]
        exact State.IsBalanced.move (hkernel i (Nat.le_of_lt hi)) (ih (Nat.le_of_lt hi)) (inputs i)
          (hcalls i hi hqi)
  exact fun i hi hqi => ⟨hbalanced i hi hqi, fun word => (hbalanced i hi hqi).step_exit⟩

end Running

/-- The next step leaves the return stack to calls. -/
def State.sparesReturns (s : State) : Bool :=
  match s.memory.get s.ip with
  | .native id => vocabulary[id]?.all (·.name ∉ returnStackWords)
  | _ => true

theorem State.sparesReturns_spec (h : s.sparesReturns = true)
    (hword : s.Executes standardTable word) :
    word.name ∉ returnStackWords := by
  obtain ⟨id, hcell, hlookup⟩ := hword
  simpa [sparesReturns, hcell, getElem?_of_lookup hlookup] using h

set_option maxRecDepth 4000 in
/-- A source that leaves the outer loop, and then defines a word that is called. -/
theorem exists_states_exit :
    ∃ states, states = List.iterate (State.next false)
        (Machine.booted.state.given "EXIT\n: T R@ ; T") 30 ∧
      (∀ s ∈ states, s.sparesReturns = true) ∧
      (∀ s ∈ states[0]?, s.memory.get s.ip = .native 8) ∧
      (∀ s ∈ states[3]?, s.memory.get s.ip = .native 2 ∧ s.depth = 1) ∧
      ∀ s ∈ states[28]?, s.memory.get s.ip = .native 2 ∧ s.depth = 2 := by
  refine ⟨_, rfl, ?_⟩
  decide +kernel

/-- That source is run: on the first level `EXIT` fails, and on the second one it does not. -/
theorem calls_are_balanced_exit : ∃ trace : ℕ → State, trace 0 = Machine.booted.state ∧
    (∀ i ≤ 30, 1 < i → (trace i).IsBalanced) ∧
    ((trace 4).depth = 1 ∧ ∃ error t, step standardTable (trace 4) = .error error t ∧
      error.cause = .unbalancedReturn) ∧
    (trace 29).depth = 2 ∧ ¬ ∃ error t, step standardTable (trace 29) = .error error t := by
  obtain ⟨states, hstates, hspares, hquit, hfirst, hsecond⟩ := exists_states_exit
  let source := "EXIT\n: T R@ ; T"
  let trace := Machine.booted.state.course false (Input.once source)
  have hstep : ∀ i < 30, trace (i + 1) ∈ states[i]? := by
    intro i hi
    rw [hstates]
    exact State.course_once_mem hi
  have hmem : ∀ i < 30, trace (i + 1) ∈ states := fun i hi =>
    List.mem_of_getElem? (Option.mem_def.mp (hstep i hi))
  have hcalls : ∀ i < 30, 1 < i → Input.once source i = none →
      ∀ word, (trace i).Executes standardTable word → word.name ∉ returnStackWords := by
    intro i hi hpositive _ word
    obtain ⟨i, rfl⟩ := Nat.exists_eq_add_of_lt hpositive
    exact State.sparesReturns_spec (hspares _ (hmem (1 + i) (by omega)))
  have hfirstQuit : (trace 1).Executes standardTable _ := ⟨8, hquit _ (hstep 0 (by decide)), rfl⟩
  have hbalanced := calls_are_balanced rfl bootstrap_booted rfl (fun _ _ => rfl)
    ⟨by decide, rfl, _, hfirstQuit, rfl⟩ hcalls
  obtain ⟨hcell, hdepth⟩ := hfirst _ (hstep 3 (by decide))
  obtain ⟨hcell', hdepth'⟩ := hsecond _ (hstep 28 (by decide))
  obtain ⟨hcause, hfails⟩ := (hbalanced 4 (by decide) (by decide)).2 _ ⟨2, hcell, rfl⟩ rfl
  obtain ⟨-, hfails'⟩ := (hbalanced 29 (by decide) (by decide)).2 _ ⟨2, hcell', rfl⟩ rfl
  obtain ⟨error, t, herror⟩ := hfails.mpr hdepth
  refine ⟨trace, rfl, fun i hi hpositive => (hbalanced i hi hpositive).1,
    ⟨hdepth, error, t, herror, hcause error t herror⟩, hdepth', fun herror' => ?_⟩
  have hone : (trace 29).depth = 1 := hfails'.mp herror'
  rw [hone] at hdepth'
  cases hdepth'

end ThreadedForth
