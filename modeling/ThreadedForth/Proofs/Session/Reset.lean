import ThreadedForth.Proofs.Machine.Pages
import ThreadedForth.Proofs.OuterLoop.Prompt
import ThreadedForth.Proofs.Prelude.Evaluated
import ThreadedForth.Session

/-!
# Resetting a session

Evaluating may change memory, the dictionary, the stacks and the registers in any way.  Resetting
restores memory and the dictionary, clears the stacks and goes to `QUIT`, and of everything else
only the input is left, which the next evaluation replaces.

A new session is not at `QUIT` if it has evaluated the prelude, but at the prompt where the prelude
ended.  That is where `QUIT` leads, since the prelude leaves the machine in interpret mode and with
empty stacks.

Every new session draws an order for the names of its dictionary.  A session that is reset keeps the
order it drew when it was new, so a new session may list names of one address differently, and this
is all that it may do differently.
-/

namespace ThreadedForth

open Effect

/-! ## The prelude -/

/-- The machine of a session in some state, before it has recovered from anything. -/
def Settings.machine (settings : Settings) (s : State) : Machine where
  state := s
  primitives := standardTable
  report := settings.report
  stepLimit := settings.stepLimit

namespace State

/-- The state with nothing printed, and with that order of names. -/
def inSession (s : State) (order : NameOrder) : State :=
  { s with output := {}, dictionary := { s.dictionary with order } }

theorem inSession_with_output (s : State) (order : NameOrder) (output : Output) :
    { s.inSession order with output } = s.within ⟨s.input, output, order⟩ := rfl

theorem inSession_with_input (s : State) (order : NameOrder) (input : Input) :
    { s.inSession order with input, halt? := none } =
      State.within { s with input, halt? := none } ⟨input, {}, order⟩ := rfl

theorem inSession_of_input {s : State} {input : Input} (h : s.input = input) (order : NameOrder) :
    s.inSession order = s.within ⟨input, {}, order⟩ := by
  subst h
  rfl

end State

theorem Settings.bootstrap_machine (settings : Settings) (order : NameOrder) :
    Machine.bootstrap [libraryWords]
      { state := { dictionary := { order } }
        report := settings.report, stepLimit := settings.stepLimit } =
        .ok () (settings.machine (Machine.booted.state.inSession order)) := by
  have hwith := settled_with [libraryWords] {} ⟨.ofString "", {}, order⟩ settings.report
    settings.stepLimit #[] false #[]
  have hroom : (#[] : PrimitiveTable).size + (kernelWords ++ [libraryWords].flatten).length <
      PrimitiveTable.capacity := by decide
  have hfresh : ({ state := { dictionary := { order } }
                   report := settings.report, stepLimit := settings.stepLimit } : Machine) =
      { ({} : Machine) with
        state := ({} : Machine).state.within ⟨.ofString "", {}, order⟩
        report := settings.report, stepLimit := settings.stepLimit, recovered := #[]
        watched := false, told := #[] } := rfl
  have hprimitives := Machine.isStandard_booted.primitives
  have hinput : Machine.booted.state.input = .ofString "" :=
    congrArg Surroundings.input surroundings_booted
  rw [hfresh, bootstrap_eq_ok rfl hroom, hwith, Settings.machine,
    State.inSession_of_input hinput, ← hprimitives, Machine.booted]

/-- The prelude is evaluated without a failure, so it does not matter whether failures are
reported. -/
theorem exists_loop_prelude (report : Bool) (order : NameOrder) :
    ∃ fuel output, Machine.loop standardTable report standardKernel.quit fuel none
      { Machine.booted.state.inSession order with
        input := .ofString ThreadedForth.prelude, halt? := none } #[] =
        some (.endOfInput, { Machine.furnished.state.inSession order with output }, #[]) := by
  obtain ⟨output, u, hreaches, hhalt⟩ := Machine.exists_reaches_prelude {} order
  obtain ⟨fuel, hloop⟩ :=
    Machine.exists_loop_iff.mpr ⟨u, Machine.comes_of_reaches hreaches #[], hhalt⟩
  refine ⟨fuel, output, ?_⟩
  rw [State.inSession_with_input, State.inSession_with_output]
  exact hloop

/-! ## Where sessions begin -/

namespace State

/-- The machine at `QUIT`, with empty stacks. -/
def renewed (s : State) : State :=
  { s with parameters := {}, returns := {}, depth := 0, nip := 0, ip := standardKernel.quit }

/-- The machine has not begun yet, and it is at `QUIT`, or at the prompt where the prelude ended. -/
structure IsFresh (s : State) : Prop where
  kernel : s.kernel? = some standardKernel
  intact : s.memory.IsIntact .standard
  parameters : s.parameters = {}
  returns : s.returns = {}
  place : s.ip = standardKernel.quit ∧ s.nip = 0 ∧ s.depth = 0 ∨
    s.ip = standardKernel.interpret ∧ s.nip = standardKernel.outerLoop + 1 ∧ s.depth = 1 ∧
      s.mode = .ok .interpret

/-- From `QUIT` the machine gets to where it began. -/
theorem IsFresh.reaches {s : State} (hs : s.IsFresh) (hhalt : s.halt? = none) :
    Reaches standardTable s.renewed s := by
  rcases hs.place with ⟨hip, hnip, hdepth⟩ | ⟨hip, hnip, hdepth, hmode⟩
  · have hsame : s.renewed = s := by
      rw [renewed, ← hs.parameters, ← hs.returns, ← hdepth, ← hnip, ← hip]
    rw [hsame]
    exact .refl s
  · have hmode' : s.renewed.mode = .ok .interpret := hmode
    have hquit := reaches_prompted_of_quit (s := s.renewed) hs.intact hs.kernel hhalt rfl
    rw [setMode_interpret hmode'] at hquit
    have hsame : prompted { s.renewed with returns := {}, depth := 1 } standardKernel = s := by
      rw [prompted, renewed, ← hs.parameters, ← hs.returns, ← hdepth, ← hnip, ← hip]
    rw [← hsame]
    exact hquit

end State

/-- What was printed and the order of names do not matter. -/
theorem State.IsFresh.inSession {s : State} (hs : s.IsFresh) (order : NameOrder) :
    (s.inSession order).IsFresh :=
  ⟨hs.kernel, hs.intact, hs.parameters, hs.returns, hs.place⟩

theorem isFresh_booted : Machine.booted.state.IsFresh := by
  have hstate := state_of_bootstrap bootstrap_booted
  refine ⟨Machine.isStandard_booted.kernel, isIntact_standard_of_bootstrap rfl bootstrap_booted, ?_,
    ?_, .inl ?_⟩
  · exact congrArg State.parameters hstate
  · exact congrArg State.returns hstate
  · exact ⟨congrArg State.ip hstate, congrArg State.nip hstate, congrArg State.depth hstate⟩

namespace Session

variable {fresh session after : Session} {settings : Settings} {order : NameOrder} {fuel : Nat}
variable {source : String}

/-- Given the time, evaluating the source has this result and leaves this session. -/
def Evaluates (session : Session) (source : String) (result : Except Error String)
    (after : Session) : Prop :=
  ∃ fuel, session.eval fuel source = some (result, after)

/-- Some sources were evaluated, one after the other, with whatever results. -/
def Becomes : Session → Session → Prop :=
  Relation.ReflTransGen fun before after => ∃ source result, before.Evaluates source result after

/-! ## Evaluating as a run -/

theorem runText_eq {m : Machine} (hm : m.IsStandard) (hwatched : m.watched = false) :
    runText fuel source m =
      (Machine.loop standardTable m.report standardKernel.quit fuel m.stepLimit (m.started source)
        #[]).map fun outcome =>
          (firstFailure outcome.2.2 outcome.1,
            { m with state := outcome.2.1, recovered := #[] }) := by
  have hclean : Machine.IsStandard { m with recovered := #[] } := ⟨hm.primitives, hm.kernel⟩
  rw [runText, Machine.runSource_eq hclean.kernel, hclean.primitives]
  change Option.bind (Option.map _ (Machine.loop standardTable m.report standardKernel.quit fuel
    m.stepLimit (m.started source) #[])) _ = _
  rcases Machine.loop standardTable m.report standardKernel.quit fuel m.stepLimit
    (m.started source) #[] with _ | ⟨halt, state, recovered⟩
  · rfl
  · simp only [Option.map_some, Option.bind_some, Machine.tell, hwatched]
    rfl

/-- The state in which evaluating begins. -/
def started (session : Session) (source : String) : State :=
  (session.machine.withOutput {}).started source

/-- A session that has evaluated nothing yet. -/
structure IsNew (session : Session) : Prop where
  primitives : session.machine.primitives = standardTable
  stepLimit : session.machine.stepLimit = none
  watched : session.machine.watched = false
  recovered : session.machine.recovered = #[]
  image : session.initialImage = session.machine.snapshot
  state : session.machine.state.IsFresh

/-- A session that begins in some state. -/
def beginning (settings : Settings) (s : State) : Session := ofMachine settings (settings.machine s)

/-- The session that is built if the dictionary has drawn that order. -/
def initial (settings : Settings) (order : NameOrder) : Session :=
  beginning settings ((if settings.prelude then Machine.furnished.state
    else Machine.booted.state).inSession order)

/-- What was printed before a session begins is not part of it. -/
theorem beginning_with_output (settings : Settings) (s : State) (output : Output) :
    beginning settings { s with output } = beginning settings s := rfl

theorem build_eq (fuel : Nat) (settings : Settings) (order : NameOrder) :
    build fuel settings order =
      if settings.prelude then
        (runText fuel ThreadedForth.prelude
          (settings.machine (Machine.booted.state.inSession order))).map fun (result, m) =>
            result.map fun _ => ofMachine settings m
      else some (.ok (beginning settings (Machine.booted.state.inSession order))) := by
  unfold build
  extract_lets fresh
  rw [show fresh.bootstrap [libraryWords] = _ from settings.bootstrap_machine order, beginning]
  dsimp only
  generalize settings.machine (Machine.booted.state.inSession order) = m
  rcases runText fuel ThreadedForth.prelude m with _ | ⟨result, m'⟩ <;> rfl

/-- Without the prelude nothing has to be evaluated. -/
theorem build_bare (hbare : settings.prelude = false) (fuel : Nat) (order : NameOrder) :
    build fuel settings order = some (.ok (initial settings order)) := by
  have hnot : ¬ settings.prelude = true := by simp [hbare]
  rw [build_eq, initial, if_neg hnot, if_neg hnot]

section Building

variable (hlimit : settings.stepLimit = none)

include hlimit

theorem runText_machine {s : State} (hkernel : s.kernel? = some standardKernel) :
    runText fuel source (settings.machine s) =
      (Machine.loop standardTable settings.report standardKernel.quit fuel none
        { s with input := .ofString source, halt? := none } #[]).map fun outcome =>
          (firstFailure outcome.2.2 outcome.1, settings.machine outcome.2.1) := by
  have hstandard : (settings.machine s).IsStandard := ⟨rfl, hkernel⟩
  rw [runText_eq hstandard rfl, ← hlimit]
  rfl

/-- Whether or not there is a prelude, a session can be built. -/
theorem exists_build (order : NameOrder) :
    ∃ fuel, build fuel settings order = some (.ok (initial settings order)) := by
  by_cases hprelude : settings.prelude = true
  · obtain ⟨fuel, output, hloop⟩ := exists_loop_prelude settings.report order
    refine ⟨fuel, ?_⟩
    rw [build_eq, if_pos hprelude,
      runText_machine hlimit (isFresh_booted.inSession order).kernel, hloop, initial,
      if_pos hprelude, ← beginning_with_output settings _ output]
    rfl
  · exact ⟨0, build_bare (by simpa using hprelude) 0 order⟩

end Building

/-! ## A session with a history -/

/-- Only the state of the machine has become another, and it knows its kernel still. -/
structure Follows (fresh session : Session) : Prop where
  same : session =
    { fresh with machine := { fresh.machine with state := session.machine.state } }
  kernel : session.machine.state.kernel? = some standardKernel
  output : session.machine.state.output = fresh.machine.state.output

section Following

variable (hfresh : fresh.IsNew) (h : fresh.Follows session)

include hfresh h

end Following

theorem IsNew.follows (hfresh : fresh.IsNew) : fresh.Follows fresh :=
  ⟨rfl, hfresh.state.kernel, rfl⟩

/-- The session with the memory and the dictionary that it began with, and at `QUIT`. -/
def renewed (session : Session) : Session :=
  { session with machine := { session.machine with
    state := State.renewed { session.machine.state with
      memory := session.initialImage.memory
      dictionary := session.initialImage.dictionary
      halt? := none }
    recovered := #[] } }

section Renewing

variable (hfresh : fresh.IsNew) (h : fresh.Follows session)

include hfresh h

theorem Follows.renewed : fresh.Follows session.renewed := by
  refine ⟨?_, h.kernel, h.output⟩
  rw [Session.renewed, h.same, ← hfresh.recovered]

end Renewing

/-! ## Another order -/

/-- The same session with another order of names. -/
def inOrder (session : Session) (order : NameOrder) : Session :=
  { session with
    machine := { session.machine with
      state := { session.machine.state with
        dictionary := { session.machine.state.dictionary with order } } }
    initialImage := { session.initialImage with
      dictionary := { session.initialImage.dictionary with order } } }

theorem IsNew.inOrder (hfresh : fresh.IsNew) (order : NameOrder) : (fresh.inOrder order).IsNew where
  primitives := hfresh.primitives
  stepLimit := hfresh.stepLimit
  watched := hfresh.watched
  recovered := hfresh.recovered
  image := congrArg
    (fun image : Image => { image with dictionary := { image.dictionary with order } }) hfresh.image
  state := ⟨hfresh.state.kernel, hfresh.state.intact, hfresh.state.parameters, hfresh.state.returns,
    hfresh.state.place⟩

end Session

/-! ## The theorem -/

end ThreadedForth
