import ThreadedForth.Proofs.Machine.Steps

/-!
# Runs

A run makes steps until one of them halts, and its fuel and the limit on its steps are only there to
make it end in any case.  `Comes` says how far a run may come, failures included.  `Interprets` says
how a run on a text ends if it is given enough fuel and steps, and `FirstFails` what the first
failure on the way is, if there is one.
-/

namespace ThreadedForth

open Effect

/-- Recovering drops the rest of the line, prints, and goes on at `QUIT`. -/
theorem exists_recover (report : Bool) (quit : Address) (error : Error) (s : State) :
    ∃ output, ∀ input, State.recover report quit error { s with input } =
      { s with input := input.dropLine, output, ip := quit } := by
  cases report with
  | false => exact ⟨s.output, fun _ => rfl⟩
  | true =>
      simp only [State.recover, if_true, State.print]
      rcases s.output.write error.report with cause | output
      · exact ⟨s.output, fun _ => rfl⟩
      · exact ⟨output, fun _ => rfl⟩

namespace Machine

/-- In some number of steps the machine interprets the source to its end, and then is as said.  How
many steps a run is allowed does not matter as long as it is allowed these. -/
def Interprets (m : Machine) (source : String) (after : Machine) : Prop :=
  ∃ steps, ∀ stepLimit, ∀ fuel ≥ steps, (∀ limit, stepLimit = some limit → steps ≤ limit) →
    { m with stepLimit }.runSource fuel source = some (.ok .endOfInput, { after with stepLimit })

/-- The state in which a run on a source begins. -/
def started (m : Machine) (source : String) : State :=
  { m.state with input := .ofString source, halt? := none }

/-- When the machine interprets the source, then all goes well up to that state, in which a step
fails for that reason. -/
def FirstFails (m : Machine) (source : String) (s : State) (cause : Cause) : Prop :=
  (∃ n, stepTimes m.primitives none n (m.started source) = .ok none s) ∧
    ∃ error, step m.primitives s = .error error s ∧ error.cause = cause

/-! ## A run as steps

A failure does not end a run, so what a run comes to is a state together with the failures that were
recovered from on the way. -/

/-- How far a run has come: the state, and the failures recovered from so far. -/
abbrev Progress := State × Array Error

/-- A step of a run that does not halt. -/
def Goes (table : PrimitiveTable) (kernel : Kernel) (report : Bool) (before after : Progress) :
    Prop :=
  advance table report kernel.quit before.1 before.2 = (none, after)

/-- Some steps of a run that do not halt. -/
def Comes (table : PrimitiveTable) (kernel : Kernel) (report : Bool) : Progress → Progress → Prop :=
  Relation.ReflTransGen (Goes table kernel report)

section Looping

variable {table : PrimitiveTable} {kernel : Kernel} {s t : State} {report : Bool}
variable {recovered recovered' : Array Error}
variable {before after : Progress}

theorem goes_of_quiet (h : Quiet table s t) (recovered : Array Error) :
    Goes table kernel report (s, recovered) (t, recovered) := by
  simp only [Goes, advance, show step table s = .ok none t from h]

/-- After a failure the machine is at `QUIT`, and the failure is on record. -/
theorem goes_of_error {error : Error} (h : step table s = .error error t)
    (recovered : Array Error) :
    Goes table kernel report (s, recovered)
      (t.recover report kernel.quit error, recovered.push error) := by
  simp only [Goes, advance, h]

theorem comes_of_reaches (h : Reaches table s t) (recovered : Array Error) :
    Comes table kernel report (s, recovered) (t, recovered) :=
  Relation.ReflTransGen.lift (·, recovered) (fun _ _ hquiet => goes_of_quiet hquiet _) _ _ h

/-- A step takes one unit of fuel and one of the allowed steps. -/
theorem loop_of_goes (h : Goes table kernel report before after) {limit : Option Nat}
    (hlimit : limit ≠ some 0)
    (fuel : Nat) :
    loop table report kernel.quit (fuel + 1) limit before.1 before.2 =
      loop table report kernel.quit fuel (limit.map (· - 1)) after.1 after.2 := by
  rcases limit with _ | _ | limit
  · rw [loop, show advance _ _ _ _ _ = _ from h]
    exact fun h => by cases h
  · exact absurd rfl hlimit
  · rw [loop, show advance _ _ _ _ _ = _ from h]
    exact fun h => by cases h

/-- A step that halts ends the run. -/
theorem loop_of_halt {halt : Halt} (h : step table s = .ok (some halt) t)
    {limit : Option Nat} (hlimit : limit ≠ some 0) (fuel : Nat) :
    loop table report kernel.quit (fuel + 1) limit s recovered =
      some (halt, t, recovered) := by
  have hadvance : advance table report kernel.quit s recovered =
      (some halt, t, recovered) := by
    rw [advance, h]
  rcases limit with _ | _ | limit
  · rw [loop, hadvance]
    exact fun h => by cases h
  · exact absurd rfl hlimit
  · rw [loop, hadvance]
    exact fun h => by cases h

/-- What a run comes to does not depend on how much fuel is left then. -/
theorem loop_mono {quit : Address} {fuel fuel' : Nat} {limit : Option Nat}
    {outcome : Halt × Progress} (h : loop table report quit fuel limit s recovered = some outcome)
    (hle : fuel ≤ fuel') : loop table report quit fuel' limit s recovered = some outcome := by
  fun_induction loop table report quit fuel limit s recovered generalizing fuel' with
  | case1 => rw [← h, loop]
  | case2 => cases h
  | case3 fuel limit s recovered hlimit t recovered' hadvance ih =>
      obtain ⟨fuel', rfl⟩ : ∃ n, fuel' = n + 1 := ⟨fuel' - 1, by omega⟩
      rw [loop, hadvance]
      · exact ih h (by omega)
      · exact hlimit
  | case4 fuel limit s recovered hlimit halt t recovered' hadvance =>
      obtain ⟨fuel', rfl⟩ : ∃ n, fuel' = n + 1 := ⟨fuel' - 1, by omega⟩
      rw [loop, hadvance]
      · exact h
      · exact hlimit

theorem loop_of_comes (h : Comes table kernel report before after) :
    ∃ n, ∀ fuel limit, (∀ l, limit = some l → n ≤ l) →
      loop table report kernel.quit (n + fuel) limit before.1 before.2 =
        loop table report kernel.quit fuel (limit.map (· - n)) after.1 after.2 := by
  induction h using Relation.ReflTransGen.head_induction_on with
  | refl =>
      refine ⟨0, fun fuel limit _ => ?_⟩
      rw [Nat.zero_add]
      cases limit <;> rfl
  | @head before middle hgoes _ ih =>
      obtain ⟨n, hn⟩ := ih
      refine ⟨n + 1, fun fuel limit hlimit => ?_⟩
      have hzero : limit ≠ some 0 := by
        rintro rfl
        exact absurd (hlimit 0 rfl) (by omega)
      have hrest : ∀ l, limit.map (· - 1) = some l → n ≤ l := by
        intro l hl
        obtain ⟨l', rfl, rfl⟩ := Option.map_eq_some_iff.mp hl
        have hle := hlimit l' rfl
        omega
      rw [show n + 1 + fuel = n + fuel + 1 by omega, loop_of_goes hgoes hzero, hn fuel _ hrest,
        Option.map_map]
      congr 2
      funext l
      exact Nat.sub_sub l 1 n |>.trans (by rw [Nat.add_comm])

/-- A run that ends has come to a step that halts, or it has used up its steps. -/
theorem comes_of_limited_loop {fuel : Nat} {limit : Option Nat} {halt : Halt}
    (h : loop table report kernel.quit fuel limit s recovered =
      some (halt, t, recovered')) :
    ∃ u, Comes table kernel report (s, recovered) (u, recovered') ∧
      (step table u = .ok (some halt) t ∨ limit ≠ none ∧ halt = .stepLimit ∧ t = u) := by
  induction fuel generalizing s recovered limit with
  | zero =>
      rcases limit with _ | _ | limit
      · cases h
      · cases h
        exact ⟨t, .refl, .inr ⟨by simp, rfl, rfl⟩⟩
      · cases h
  | succ fuel ih =>
      by_cases hlimit : limit = some 0
      · subst hlimit
        rw [loop] at h
        cases h
        exact ⟨t, .refl, .inr ⟨by simp, rfl, rfl⟩⟩
      have hcontinue : ∀ {s' recovered₁}, Goes table kernel report (s, recovered) (s', recovered₁) →
          loop table report kernel.quit fuel (limit.map (· - 1)) s' recovered₁ =
            some (halt, t, recovered') →
          ∃ u, Comes table kernel report (s, recovered) (u, recovered') ∧
            (step table u = .ok (some halt) t ∨
              limit ≠ none ∧ halt = .stepLimit ∧ t = u) := by
        intro s' recovered₁ hgoes hloop
        obtain ⟨u, hcomes, hend⟩ := ih hloop
        refine ⟨u, hcomes.head hgoes, hend.imp_right fun ⟨hsome, hrest⟩ => ⟨?_, hrest⟩⟩
        rintro rfl
        exact hsome rfl
      rcases hstep : step table s with ⟨_ | halt', t'⟩ | ⟨error, t'⟩
      · have hgoes : Goes table kernel report _ _ := goes_of_quiet hstep recovered
        rw [loop_of_goes hgoes hlimit] at h
        exact hcontinue hgoes h
      · rw [loop_of_halt hstep hlimit] at h
        cases h
        exact ⟨s, .refl, .inl hstep⟩
      · have hgoes : Goes table kernel report _ _ := goes_of_error hstep recovered
        rw [loop_of_goes hgoes hlimit] at h
        exact hcontinue hgoes h

/-- Without a limit on its steps a run that ends has come to a step that halts. -/
theorem comes_of_loop {fuel : Nat} {halt : Halt}
    (h : loop table report kernel.quit fuel none s recovered =
      some (halt, t, recovered')) :
    ∃ u, Comes table kernel report (s, recovered) (u, recovered') ∧
      step table u = .ok (some halt) t := by
  obtain ⟨u, hcomes, hhalt | ⟨hnone, -⟩⟩ := comes_of_limited_loop h
  · exact ⟨u, hcomes, hhalt⟩
  · exact absurd rfl hnone

/-- Without a limit on its steps a run ends in the same way from wherever it has come to. -/
theorem exists_loop_iff_of_comes (h : Comes table kernel report before after)
    {outcome : Halt × Progress} :
    (∃ fuel, loop table report kernel.quit fuel none before.1 before.2 =
      some outcome) ↔
    ∃ fuel, loop table report kernel.quit fuel none after.1 after.2 =
      some outcome := by
  obtain ⟨n, hn⟩ := loop_of_comes h
  constructor
  · rintro ⟨fuel, hloop⟩
    refine ⟨fuel, ?_⟩
    rw [← loop_mono hloop (Nat.le_add_left fuel n), hn fuel none (by simp)]
    rfl
  · rintro ⟨fuel, hloop⟩
    refine ⟨n + fuel, ?_⟩
    rw [hn fuel none (by simp)]
    exact hloop

/-- Without a limit on its steps a run ends exactly if it comes to a step that halts. -/
theorem exists_loop_iff {halt : Halt} :
    (∃ fuel, loop table report kernel.quit fuel none s recovered =
      some (halt, t, recovered')) ↔
    ∃ u, Comes table kernel report (s, recovered) (u, recovered') ∧
      step table u = .ok (some halt) t := by
  refine ⟨fun ⟨_, h⟩ => comes_of_loop h, fun ⟨u, hcomes, hhalt⟩ => ?_⟩
  obtain ⟨n, hn⟩ := loop_of_comes hcomes
  refine ⟨n + 1, ?_⟩
  rw [hn 1 none (by simp)]
  exact loop_of_halt hhalt (by simp) 0

end Looping

variable {m : Machine} {source : String} {t u : State}

/-! ## The halt is told -/

theorem state_tell (m : Machine) (halt : Halt) : (m.tell halt).state = m.state := by
  rw [tell]
  split <;> rfl

theorem primitives_tell (m : Machine) (halt : Halt) : (m.tell halt).primitives = m.primitives := by
  rw [tell]
  split <;> rfl

theorem tell_with_stepLimit (m : Machine) (halt : Halt) (stepLimit : Option Nat) :
    { m.tell halt with stepLimit } = { m with stepLimit }.tell halt := by
  rw [tell, tell]
  split <;> rfl

theorem recovered_tell (m : Machine) (halt : Halt) : (m.tell halt).recovered = m.recovered := by
  rw [tell]
  split <;> rfl

/-! ## Running -/

section Running

variable {kernel : Kernel} (hkernel : m.state.kernel? = some kernel)
include hkernel

/-- Running is looping, and the halt is told at the end. -/
theorem run_eq (fuel : Nat) :
    m.run fuel =
      (loop m.primitives m.report kernel.quit fuel m.stepLimit { m.state with halt? := none }
        m.recovered).map fun outcome =>
          (.ok outcome.1, tell { m with state := outcome.2.1, recovered := outcome.2.2 }
            outcome.1) := by
  have hread : m.state.kernel = .ok kernel := by rw [State.kernel, hkernel]
  rw [run, hread]
  dsimp only
  rcases loop m.primitives m.report kernel.quit fuel m.stepLimit
    { m.state with halt? := none } m.recovered with _ | ⟨halt, state, recovered⟩ <;> rfl

/-- Running on a source is looping from the state in which it starts. -/
theorem runSource_eq (fuel : Nat) (source : String) :
    m.runSource fuel source =
      (loop m.primitives m.report kernel.quit fuel m.stepLimit (m.started source)
        m.recovered).map fun outcome =>
          (.ok outcome.1, tell { m with state := outcome.2.1, recovered := outcome.2.2 }
            outcome.1) :=
  run_eq (m := m.withInput (.ofString source)) hkernel fuel

theorem runSource_eq_some_iff {fuel : Nat} {halt : Halt} {after : Machine} :
    m.runSource fuel source = some (.ok halt, after) ↔
      ∃ state recovered, loop m.primitives m.report kernel.quit fuel m.stepLimit
        (m.started source) m.recovered = some (halt, state, recovered) ∧
      after = tell { m with state, recovered } halt := by
  rw [runSource_eq hkernel, Option.map_eq_some_iff]
  constructor
  · rintro ⟨⟨halt', state, recovered⟩, hloop, heq⟩
    cases heq
    exact ⟨state, recovered, hloop, rfl⟩
  · rintro ⟨state, recovered, hloop, rfl⟩
    exact ⟨_, hloop, rfl⟩

/-- A run that comes to a step that finds the end of the input interprets the source. -/
theorem interprets_of_comes {recovered : Array Error}
    (hcomes : Comes m.primitives kernel m.report (m.started source, m.recovered) (t, recovered))
    (hend : step m.primitives t = .ok (some .endOfInput) u) :
    m.Interprets source (tell { m with state := u, recovered } .endOfInput) := by
  obtain ⟨n, hn⟩ := loop_of_comes hcomes
  refine ⟨n + 1, fun limit fuel hfuel hlimit => ?_⟩
  obtain ⟨fuel, rfl⟩ := Nat.exists_eq_add_of_le hfuel
  have hzero : limit.map (· - n) ≠ some 0 := by
    intro hzero
    obtain ⟨l, hl, hle⟩ := Option.map_eq_some_iff.mp hzero
    have hmore := hlimit l hl
    omega
  have hallowed : ∀ l, limit = some l → n ≤ l :=
    fun l hl => Nat.le_of_succ_le (hlimit l hl)
  refine (runSource_eq_some_iff (m := { m with stepLimit := limit }) hkernel).mpr
    ⟨u, recovered, ?_, ?_⟩
  · have hloop : loop m.primitives m.report kernel.quit (n + (fuel + 1)) limit (m.started source)
        m.recovered = some (.endOfInput, u, recovered) := by
      rw [hn (fuel + 1) limit hallowed, loop_of_halt hend hzero fuel]
    rw [show n + 1 + fuel = n + (fuel + 1) by omega]
    exact hloop
  · rw [tell_with_stepLimit]

/-- A run whose steps are quiet up to one that finds the end of the input interprets the source. -/
theorem interprets_of_reaches (hreaches : Reaches m.primitives (m.started source) t)
    (hend : step m.primitives t = .ok (some .endOfInput) u) :
    m.Interprets source ({ m with state := u }.tell .endOfInput) :=
  interprets_of_comes hkernel (comes_of_reaches hreaches _) hend

/-- A run that was seen to end interprets its source with any fuel and any limit that allow it. -/
theorem interprets_of_runSource {fuel : Nat} {after : Machine} (hlimit : m.stepLimit = none)
    (h : m.runSource fuel source = some (.ok .endOfInput, after)) : m.Interprets source after := by
  obtain ⟨state, recovered, hloop, rfl⟩ := (runSource_eq_some_iff hkernel).mp h
  rw [hlimit] at hloop
  obtain ⟨t, hcomes, hend⟩ := comes_of_loop hloop
  exact interprets_of_comes hkernel hcomes hend

end Running

/-- A source ends in one way only. -/
theorem Interprets.unique {after other : Machine} (h : m.Interprets source after)
    (hother : m.Interprets source other) :
    after.state = other.state ∧ after.recovered = other.recovered := by
  obtain ⟨steps, hrun⟩ := h
  obtain ⟨steps', hrun'⟩ := hother
  have hone := hrun none (max steps steps') (Nat.le_max_left ..) nofun
  have htwo := hrun' none (max steps steps') (Nat.le_max_right ..) nofun
  rw [hone] at htwo
  injection htwo with hpair
  injection hpair with _ hsame
  injection hsame with hstate _ _ _ hrecovered
  exact ⟨hstate, hrecovered⟩

/-- If steps that are quiet lead to one that fails, then it is the first one to fail. -/
theorem firstFails_of_reaches {cause : Cause}
    (hreaches : Reaches m.primitives (m.started source) t) (hfails : Fails m.primitives t cause) :
    m.FirstFails source t cause := by
  obtain ⟨n, hn⟩ := hreaches.exists_stepTimes
  obtain ⟨context, hfails⟩ := hfails
  exact ⟨⟨n, hn none⟩, _, hfails, rfl⟩

end Machine

end ThreadedForth
