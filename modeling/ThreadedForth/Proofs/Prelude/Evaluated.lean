import ThreadedForth.Proofs.Machine.Mirroring
import ThreadedForth.Proofs.Prelude.ControlWords

/-!
# The prelude evaluated

The prelude is one fixed text, and what a machine that was just set up makes of it is found by
running the machine.  `IsPrepared` lists what is to be found; it is all that has to be known of the
prelude: that it fails nowhere, where its words of control are, and what their cells are.  The run
is watched, too: while the prelude is evaluated, nothing is written where it should not be.

The run is made with a sink that takes nothing.  Since it does not fail, nothing was printed, and so
the prelude is evaluated in the same way wherever the machine lives.
-/

namespace ThreadedForth

open Effect

instance Memory.decidableHolds (memory : Memory) :
    (address : Address) → (cells : List Cell) → Decidable (memory.Holds address cells)
  | _, [] => isTrue trivial
  | address, cell :: cells =>
    have := memory.decidableHolds (address + 1) cells
    inferInstanceAs (Decidable (memory.get address = cell ∧ memory.Holds (address + 1) cells))

/-- There is room behind `HERE`; if the next word writes to any address, it writes below `HERE` but
not to the cell of `HERE`; and if it reserves cells, it gives none back. -/
def State.isTame (s : State) : Bool :=
  match s.memory.get Variable.here.address with
  | .literal (.int here) =>
    decide (here < Int64.maxValue - 3) &&
      match s.memory.get s.ip, s.topInt with
      | .native id, .ok n =>
        if id = 15 ∨ id = 70 then decide (1 ≤ n ∧ n < here)
        else if id = 18 then decide (0 ≤ n)
        else true
      | _, _ => true
  | _ => false

namespace Machine

/-! ## The run -/

/-- The machine at the end of a run that came to the end of its input. -/
def finished? : Option (Except Cause Halt × Machine) → Option Machine
  | some (.ok .endOfInput, m) => some m
  | _ => none

/-- The machine waits in the outer loop, and the prelude is where it should be. -/
def IsPrepared (m : Machine) : Prop :=
  m.recovered.size = 0 ∧
  (m.state.depth = 1 ∧ m.state.ip = standardKernel.interpret ∧
    m.state.nip = standardKernel.outerLoop + 1 ∧ m.state.kernel? = some standardKernel) ∧
  (m.state.memory.get Variable.here.address = .literal (.int 317) ∧
    m.state.memory.get Variable.state.address = .literal (.int 0) ∧
    m.state.memory.get Variable.base.address = .literal (.int 10)) ∧
  (∀ position < vocabulary.length,
    m.state.memory.get (primitiveAddress position) = .native position ∧
      m.state.memory.get (primitiveAddress position + 1) = .native 0) ∧
  m.state.memory.Holds standardKernel.outerLoop
    [.reference standardKernel.interpret, .reference standardKernel.branch,
      .literal (.int (-2))] ∧
  (∀ word ∈ ControlWord.all, m.state.memory.Holds word.address word.body.definition ∧
    m.state.dictionary.findVisible? word.name = some ⟨word.name, word.address, true, false⟩) ∧
  ∀ position (h : position < vocabulary.length), vocabulary[position].hidden = false →
    m.state.dictionary.findVisible? vocabulary[position].name =
      some ⟨vocabulary[position].name, primitiveAddress position,
        vocabulary[position].immediate, false⟩

set_option maxRecDepth 4000 in
/-- The run itself.  The characters of the prelude are written out for it, since taking a text apart
takes longer than evaluating it. -/
theorem exists_prepared : ∃ chars, ThreadedForth.prelude = String.ofList chars ∧
    ∃ outcome ∈ loopWhile State.isTame true 500
      ({ booted.state with
        input := .text ⟨chars, false⟩, output := ⟨"", some 0⟩, halt? := none }, #[]),
      outcome.1 = .endOfInput ∧
      IsPrepared { booted with state := outcome.2.1, recovered := outcome.2.2 } ∧
      outcome.2.1.parameters = {} ∧ outcome.2.1.returns = {} := by
  refine ⟨_, rfl, ?_⟩
  unfold IsPrepared
  decide +kernel

/-- The machine that was just set up and has evaluated the prelude. -/
def furnished : Machine := (finished? (booted.runSource 500 ThreadedForth.prelude)).getD {}

theorem isStandard_booted : booted.IsStandard := isStandard_of_bootstrap rfl bootstrap_booted

/-- The prelude is evaluated in the same way wherever the machine lives. -/
theorem exists_outcome_prelude : ∃ state : State,
    (∀ output order, ∃ output', loopWhile State.isTame true 500
      ((booted.started ThreadedForth.prelude).within
        ⟨.ofString ThreadedForth.prelude, output, order⟩, #[]) =
        some (.endOfInput, state.within ⟨state.input, output', order⟩, #[])) ∧
    IsPrepared { booted with state, recovered := #[] } ∧
    state.parameters = {} ∧ state.returns = {} := by
  obtain ⟨chars, hchars, ⟨halt, state, recovered⟩, houtcome, hhalt, hprepared, hstacks⟩ :=
    exists_prepared
  obtain rfl : recovered = #[] := Array.eq_empty_of_size_eq_zero hprepared.1
  obtain rfl : halt = .endOfInput := hhalt
  refine ⟨state, fun output order => ?_, hprepared, hstacks⟩
  have hinput : Input.text ⟨chars, false⟩ = .ofString ThreadedForth.prelude := by
    rw [Input.ofString, TextInput.ofString, hchars, String.toList_ofList]
  rw [hinput] at houtcome
  let other : Surroundings := ⟨.ofString ThreadedForth.prelude, output, order⟩
  have hkept : Surroundings.IsKept (Surroundings.Refusing order) (· = .io "sink closed") :=
    Surroundings.isKept_refusing
  obtain ⟨⟨input, output', order'⟩, ⟨-, rfl, rfl⟩, hother⟩ :=
    loopWhile_mirrors hkept (by decide) (fun _ _ => rfl) houtcome
      (fun _ h => absurd h List.not_mem_nil)
      (show Surroundings.Refusing order _ other from ⟨rfl, rfl, rfl⟩)
  exact ⟨output', hother⟩

/-- Nothing else of the machine is changed. -/
theorem furnished_spec :
    booted.runSource 500 ThreadedForth.prelude = some (.ok .endOfInput, furnished) ∧
    (∀ output order, ∃ output', loopWhile State.isTame true 500
      ((booted.started ThreadedForth.prelude).within
        ⟨.ofString ThreadedForth.prelude, output, order⟩, #[]) =
        some (.endOfInput, furnished.state.within ⟨furnished.state.input, output', order⟩, #[])) ∧
    furnished = { booted with state := furnished.state } ∧
    furnished.IsPrepared ∧ furnished.state.parameters = {} ∧ furnished.state.returns = {} := by
  obtain ⟨state, hanywhere, hprepared, hstacks⟩ := exists_outcome_prelude
  obtain ⟨output, houtcome⟩ := hanywhere {} default
  have hhere : (booted.started ThreadedForth.prelude).surroundings =
      ⟨.ofString ThreadedForth.prelude, {}, default⟩ :=
    congrArg (fun around : Surroundings =>
      { around with input := .ofString ThreadedForth.prelude }) surroundings_booted
  rw [← hhere, State.within_surroundings] at houtcome
  let ended := state.within ⟨state.input, output, default⟩
  have hreport : booted.report = true := by rw [booted_eq]
  have hlimit : booted.stepLimit = none := by rw [booted_eq]
  have hwatched : booted.watched = false := by rw [booted_eq]
  have hnone : booted.recovered = #[] := by rw [booted_eq]
  have hsame : { booted with state := ended, recovered := #[] } = { booted with state := ended } :=
    congrArg (fun recovered => { booted with state := ended, recovered }) hnone.symm
  have hrun : booted.runSource 500 ThreadedForth.prelude =
      some (.ok .endOfInput, { booted with state := ended }) := by
    refine (runSource_eq_some_iff isStandard_booted.kernel).mpr ⟨ended, #[], ?_, ?_⟩
    · rw [isStandard_booted.primitives, hreport, hlimit, hnone]
      exact loop_of_loopWhile houtcome
    · rw [hsame, tell, if_neg (by simp [hwatched])]
  have hfurnished : furnished = { booted with state := ended } := by
    rw [furnished, hrun]
    rfl
  rw [hfurnished]
  refine ⟨hrun, hanywhere, rfl, ?_, hstacks⟩
  rw [← hsame]
  exact hprepared

/-- Wherever the machine lives, it gets to the end of the prelude without a failure. -/
theorem exists_reaches_prelude (output : Output) (order : NameOrder) :
    ∃ output' t,
      Reaches standardTable ((booted.started ThreadedForth.prelude).within
        ⟨.ofString ThreadedForth.prelude, output, order⟩) t ∧
      step standardTable t = .ok (some .endOfInput)
        (furnished.state.within ⟨furnished.state.input, output', order⟩) := by
  obtain ⟨-, hanywhere, -⟩ := furnished_spec
  obtain ⟨output', houtcome⟩ := hanywhere output order
  obtain ⟨t, hcomes, hhalt⟩ := comes_of_loop (loop_of_loopWhile houtcome)
  exact ⟨output', t, reaches_of_comes hcomes rfl, hhalt⟩

theorem isPrepared_furnished : furnished.IsPrepared := by
  obtain ⟨-, -, -, hprepared, -⟩ := furnished_spec
  exact hprepared

theorem isStandard_furnished : furnished.IsStandard := by
  obtain ⟨-, -, heq, ⟨-, ⟨-, -, -, hkernel⟩, -⟩, -⟩ := furnished_spec
  refine ⟨?_, hkernel⟩
  rw [heq]
  exact isStandard_booted.primitives

theorem isIntact_furnished : furnished.state.memory.IsIntact .standard := by
  obtain ⟨-, -, -, hprimitives, houterLoop, -⟩ := isPrepared_furnished
  refine ⟨⟨fun position h => ?_, fun position h => (hprimitives position h).2⟩, houterLoop⟩
  exact (hprimitives position h).1.trans (congrArg Cell.native (Nat.zero_add position).symm)

end Machine

end ThreadedForth
