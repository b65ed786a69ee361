import ThreadedForth.Proofs.Machine.Runs
import ThreadedForth.Proofs.Machine.Standard
import ThreadedForth.Proofs.OuterLoop.Defining

/-!
# Evaluating source

A machine that is ready waits in the outer loop for source, with no definition in progress.  This
module turns what is known of the prompt into what is known of such a machine: if it gets from the
first prompt to one at which there is no token left, then it interprets the source, and if it is
given a definition, then it is ready again afterwards and has the definition.
-/

namespace ThreadedForth

open Effect

/-- The name is that of the word at an address. -/
def Dictionary.Resolves (dictionary : Dictionary) (name : String) (address : Address)
    (immediate : Bool) : Prop :=
  ∃ entry, dictionary.findVisible? name = some entry ∧ entry.address = address ∧
    entry.immediate = immediate

/-- An entry that is hidden does not get in the way. -/
theorem Dictionary.Resolves.define_hidden {dictionary : Dictionary} {word : String}
    {address : Address} {immediate : Bool} (h : dictionary.Resolves word address immediate)
    (name : String) (here : Address) :
    (dictionary.define name here false true).Resolves word address immediate := by
  obtain ⟨entry, hfind, hentry⟩ := h
  exact ⟨entry, (findVisible?_define_hidden ..).trans hfind, hentry⟩

namespace Machine

/-- A machine that waits for source, and where its next cell goes to. -/
structure IsReady (m : Machine) (w : Outfit) (here : Address) : Prop extends m.IsFitted w where
  loop : m.state.InOuterLoop w.kernel
  intact : m.state.memory.IsIntact w
  mode : m.state.mode = .ok .interpret
  next : m.state.memory.get Variable.here.address = .literal (.int here)
  low : w.past ≤ here.toInt

/-- A machine that was set up as `booted` was and waits for source, and where its next cell goes to.
Only the cells of the kernel have to be as setting up left them. -/
structure Waits (m booted : Machine) (kernel : Kernel) (here : Address) : Prop where
  primitives : m.primitives = booted.primitives
  known : booted.state.kernel? = some kernel
  remembered : m.state.kernel? = some kernel
  loop : m.state.InOuterLoop kernel
  owned : ∀ address, kernel.Owns address →
    m.state.memory.get address = booted.state.memory.get address
  mode : m.state.mode = .ok .interpret
  next : m.state.memory.get Variable.here.address = .literal (.int here)
  low : kernel.outerLoop.toInt + 3 ≤ here.toInt

/-- Such a machine is ready, whatever its libraries are. -/
theorem Waits.isReady {fresh booted m : Machine} {libraries : List (List Primitive)}
    {kernel : Kernel} {here : Address} (hm : m.Waits booted kernel here)
    (hbooted : fresh.bootstrap libraries = .ok () booted)
    (hroom : (kernelWords ++ libraries.flatten).length < 2 ^ 61) :
    ∃ w, kernel = w.kernel ∧ booted.state.memory.IsIntact w ∧ m.IsReady w here := by
  have hfitted := isFitted_of_bootstrap hbooted hroom
  have hintact := isIntact_of_bootstrap hbooted hroom
  have hkernel : kernel = (fresh.outfit libraries hroom).kernel :=
    Option.some.inj (hm.known.symm.trans hfitted.kernel)
  subst hkernel
  exact ⟨_, rfl, hintact, ⟨hm.primitives.trans hfitted.primitives, hm.remembered⟩, hm.loop,
    Outfit.isIntact_of_owns rfl hintact hm.owned, hm.mode, hm.next, hm.low⟩

/-- The definition was added, and nothing else happened. -/
structure Defines (before after : Machine) (w : Outfit) (name : String) (here : Address)
    (cells : List Cell) : Prop where
  ready : after.IsReady w (here + Int64.ofNat cells.length)
  memory : before.state.memory.Defines after.state.memory here cells
  dictionary : ∀ other, after.state.dictionary.chain other =
    if Dictionary.fold name = Dictionary.fold other then
      ⟨Dictionary.fold name, here, false, false⟩ :: before.state.dictionary.chain name
    else before.state.dictionary.chain other
  parameters : after.state.parameters = before.state.parameters
  returns : after.state.returns = before.state.returns
  output : after.state.output = before.state.output
  recovered : after.recovered = before.recovered

section Evaluating

variable {w : Outfit} {m : Machine} {here : Address} {source : String} {u : State} {last : Input}

/-! ## The prompt at which a source begins -/

/-- The state at the first prompt. -/
def prompted (m : Machine) (kernel : Kernel) (source : String) : State :=
  (m.started source).prompted kernel

theorem IsReady.reaches_prompted (hm : m.IsReady w here) (source : String) :
    Reaches w.table (m.started source) (m.prompted w.kernel source) := by
  have hs : (m.started source).InCode w := ⟨hm.loop.depth, rfl, hm.intact.toHasPrimitives⟩
  exact reaches_prompted_of_loop hs hm.intact ⟨hm.loop.depth, hm.loop.place⟩

theorem IsReady.atPrompt (hm : m.IsReady w here) (source : String) :
    (m.prompted w.kernel source).AtPrompt w :=
  ⟨⟨rfl, rfl, hm.loop.depth, rfl⟩, hm.intact⟩

/-- The variables lie below. -/
theorem IsReady.four_le (hm : m.IsReady w here) : 4 ≤ here.toInt := w.four_le_of_past_le hm.low

/-- If the machine gets to a prompt at which no token is left, then it interprets the source. -/
theorem IsReady.interprets (hm : m.IsReady w here)
    (hreaches : Reaches w.table (m.prompted w.kernel source) u)
    (hu : u.AtPrompt w) (hread : u.input.readToken = (none, last)) :
    m.Interprets source ({ m with state := { u with input := last } }.tell .endOfInput) :=
  interprets_of_reaches hm.kernel (hm.primitives ▸ (hm.reaches_prompted source).trans hreaches)
    (hm.primitives ▸ step_interpret_end hu hread)

/-- A step that fails on the way from the first prompt is the first one to fail. -/
theorem IsReady.firstFails (hm : m.IsReady w here) {cause : Cause}
    (hreaches : Reaches w.table (m.prompted w.kernel source) u) (hfails : Fails w.table u cause) :
    m.FirstFails source u cause :=
  firstFails_of_reaches (hm.primitives ▸ (hm.reaches_prompted source).trans hreaches)
    (hm.primitives ▸ hfails)

/-- With cells appended the machine is still ready. -/
theorem IsReady.grow (hm : m.IsReady w here) {memory : Memory} {cells : List Cell}
    (hextends : m.state.memory.Extends memory here cells)
    (hroom : here.toInt + cells.length ≤ Int64.maxValue.toInt) :
    IsReady { m with state := { m.state with memory } } w (here + Int64.ofNat cells.length) := by
  have hlow := hm.low
  have hfour := hm.four_le
  have hmemory : memory.IsIntact w := hm.intact.congr fun address hfour hhigh =>
    hextends.same_of_lt (by omega) (by omega)
  refine ⟨⟨hm.primitives, hm.kernel⟩, ⟨hm.loop.depth, hm.loop.place⟩, hmemory, ?_, hextends.next,
    ?_⟩
  · have hstate : memory.get Variable.state.address = m.state.memory.get Variable.state.address :=
      hextends.same_of_lt (by decide) (Int.lt_of_lt_of_le (by decide) hfour)
    exact (mode_congr hstate).trans hm.mode
  · rw [Address.toInt_add_ofNat hroom]
    omega

/-! ## Definitions -/

variable {name : String} {cells : List Cell} {items : List Item} {memory : Memory}

/-- Nothing that the outer loop needs is changed by a definition. -/
theorem isIntact_of_defines (hm : m.IsReady w here)
    (hdefines : m.state.memory.Defines memory here cells) : memory.IsIntact w := by
  have hlow := hm.low
  refine hm.intact.congr fun address hfour hhigh => ?_
  have hne : ∀ other : Address, other.toInt < 4 → address ≠ other := by
    rintro other hother rfl
    omega
  exact hdefines.same address (hne _ (by decide)) (hne _ (by decide)) (hne _ (by decide))
    (.inl (by omega))

/-- With a definition added the machine is ready again. -/
theorem IsReady.after_defines (hm : m.IsReady w here)
    (hdefines : m.state.memory.Defines memory here cells)
    (hroom : here.toInt + cells.length ≤ Int64.maxValue.toInt) (source : String)
    (dictionary : Dictionary) (input : Input) (halt : Halt) :
    IsReady
      ({ m with state := { m.prompted w.kernel source with memory, dictionary, input } }.tell halt)
        w
      (here + Int64.ofNat cells.length) := by
  have hlow := hm.low
  refine ⟨⟨?_, ?_⟩, ?_, ?_, ?_, ?_, ?_⟩
  · rw [primitives_tell]
    exact hm.primitives
  · rw [state_tell]
    exact hm.kernel
  · rw [state_tell]
    exact ⟨hm.loop.depth, .inr (.inr ⟨rfl, rfl⟩)⟩
  · rw [state_tell]
    exact isIntact_of_defines hm hdefines
  · rw [state_tell]
    exact mode_of_get hdefines.state
  · rw [state_tell]
    exact hdefines.next
  · rw [Address.toInt_add_ofNat hroom]
    omega

/-- A definition that is read is added, if what its body spells compiles. -/
theorem IsReady.reaches_definition (hm : m.IsReady w here) {immediate : Bool}
    (hcolon : m.state.dictionary.Resolves ":" (kernelAddress ":") immediate)
    (hsemicolon : m.state.dictionary.Resolves ";" (kernelAddress ";") true)
    (hroom : here.toInt + (cells.length + 2) ≤ Int64.maxValue.toInt) {rest : Input}
    (hsource : (Input.ofString source).Delivers
      (.token ":" :: .token name :: items ++ [.token ";"]) rest)
    (hbody : ∀ memory opened closed, opened.Delivers items closed →
      (m.state.memory.opened here).Extends memory here [.native w.kernel.docol] →
      State.Compiles { m.prompted w.kernel source with
        memory, dictionary := m.state.dictionary.define name here false true, input := opened }
        w.table (here + 1) cells closed) :
    ∃ memory dictionary,
      Reaches w.table (m.prompted w.kernel source)
        { m.prompted w.kernel source with memory, dictionary, input := rest } ∧
      State.AtPrompt { m.prompted w.kernel source with memory, dictionary, input := rest } w ∧
      m.state.memory.Defines memory here
        (.native w.kernel.docol :: cells ++ [.reference w.kernel.exit]) ∧
      dictionary.newestNames[here]? = some (Dictionary.fold name) ∧
      ∀ other, dictionary.chain other =
        if Dictionary.fold name = Dictionary.fold other then
          ⟨Dictionary.fold name, here, false, false⟩ :: m.state.dictionary.chain name
        else m.state.dictionary.chain other := by
  obtain ⟨colon, hcolonFind, hcolonAddress, -⟩ := hcolon
  obtain ⟨semicolon, hsemicolonFind, hsemicolonAddress, himmediate⟩ := hsemicolon
  obtain ⟨_, ⟨hcolonRead⟩, hsource⟩ := Input.delivers_cons hsource
  obtain ⟨opened, ⟨hnameRead⟩, hsource⟩ := Input.delivers_cons hsource
  obtain ⟨closed, hitems, hclosed⟩ := Input.delivers_append hsource
  obtain ⟨_, ⟨hsemicolonRead⟩, ⟨⟩⟩ := Input.delivers_cons hclosed
  obtain ⟨memory, dictionary, hreaches, hdefines, hnames⟩ :=
    reaches_defined (hm.atPrompt source) hm.kernel hm.mode hm.next hm.low hroom hcolonFind
      hcolonAddress hsemicolonFind hsemicolonAddress himmediate hcolonRead hnameRead
      hsemicolonRead (hbody · _ _ hitems)
  exact ⟨memory, dictionary, hreaches,
    ⟨⟨rfl, rfl, hm.loop.depth, rfl⟩, isIntact_of_defines hm hdefines⟩, hdefines, hnames⟩

/-- A definition that is evaluated is added, if what its body spells compiles. -/
theorem IsReady.interprets_definition (hm : m.IsReady w here) {immediate : Bool}
    (hcolon : m.state.dictionary.Resolves ":" (kernelAddress ":") immediate)
    (hsemicolon : m.state.dictionary.Resolves ";" (kernelAddress ";") true)
    (hroom : here.toInt + (cells.length + 2) ≤ Int64.maxValue.toInt)
    (hsource : Spells (.token ":" :: .token name :: items ++ [.token ";"]) source.toList)
    (hbody : ∀ memory opened closed, opened.Delivers items closed →
      (m.state.memory.opened here).Extends memory here [.native w.kernel.docol] →
      State.Compiles { m.prompted w.kernel source with
        memory, dictionary := m.state.dictionary.define name here false true, input := opened }
        w.table (here + 1) cells closed) :
    ∃ after, m.Interprets source after ∧ m.Defines after w name here
      (.native w.kernel.docol :: cells ++ [.reference w.kernel.exit]) := by
  obtain ⟨rest, last, hdelivers, hend⟩ := hsource.delivers false
  obtain ⟨memory, dictionary, hreaches, hprompt, hdefines, -, hchain⟩ :=
    hm.reaches_definition hcolon hsemicolon hroom hdelivers hbody
  refine ⟨_, hm.interprets hreaches hprompt hend, ?_⟩
  have hready := hm.after_defines hdefines (by simp; omega) source dictionary last .endOfInput
  refine ⟨hready, ?_, ?_, ?_, ?_, ?_, recovered_tell _ _⟩
  · rw [state_tell]
    exact hdefines
  · rw [state_tell]
    exact hchain
  all_goals
    rw [state_tell]
    rfl

end Evaluating

/-! ## A machine that is ready -/

/-- Every word that is not hidden is found under its name. -/
theorem findVisible?_booted : ∀ position (h : position < vocabulary.length),
    vocabulary[position].hidden = false →
    booted.state.dictionary.findVisible? vocabulary[position].name =
      some ⟨vocabulary[position].name, primitiveAddress position, vocabulary[position].immediate,
        false⟩ := by
  decide +kernel

theorem variables_booted :
    booted.state.memory.get Variable.here.address = .literal (.int 219) ∧
      booted.state.memory.get Variable.state.address = .literal (.int 0) ∧
      booted.state.memory.get Variable.base.address = .literal (.int 10) := by
  decide +kernel

/-- The machine that was just set up when it waits for source, with some parameters. -/
def waiting (parameters : Stack .parameter) : Machine :=
  { booted with state := { booted.state with
    ip := standardKernel.interpret, nip := standardKernel.outerLoop + 1, depth := 1, parameters } }

theorem isReady_waiting (parameters : Stack .parameter) :
    (waiting parameters).IsReady .standard 219 := by
  have hstandard : booted.IsStandard := isStandard_of_bootstrap rfl bootstrap_booted
  have hintact : booted.state.memory.IsIntact .standard :=
    isIntact_standard_of_bootstrap rfl bootstrap_booted
  obtain ⟨hhere, hstate, -⟩ := variables_booted
  refine ⟨⟨hstandard.primitives, hstandard.kernel⟩, ⟨Nat.one_ne_zero, .inr (.inr ⟨rfl, rfl⟩)⟩,
    hintact, mode_of_get hstate, hhere, by decide⟩

theorem waits_waiting (parameters : Stack .parameter) :
    (waiting parameters).Waits booted standardKernel 219 := by
  have hready := isReady_waiting parameters
  have hstandard : booted.IsStandard := isStandard_of_bootstrap rfl bootstrap_booted
  exact ⟨rfl, hstandard.kernel, hready.kernel, hready.loop, fun _ _ => rfl, hready.mode,
    hready.next, hready.low⟩

theorem base_waiting (parameters : Stack .parameter) :
    (waiting parameters).state.base = .ok 10 := by
  simp only [waiting, State.base, State.readVariable, variables_booted]
  rfl

theorem resolves_waiting (parameters : Stack .parameter) {position : Nat}
    (h : position < vocabulary.length) (hvisible : vocabulary[position].hidden = false) :
    (waiting parameters).state.dictionary.Resolves vocabulary[position].name
      (primitiveAddress position) vocabulary[position].immediate :=
  ⟨_, findVisible?_booted position h hvisible, rfl, rfl⟩

end Machine

end ThreadedForth
