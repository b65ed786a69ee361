import ThreadedForth.Proofs.Prelude.Evaluated
import ThreadedForth.Proofs.Prelude.Programs

/-!
# Machines that have the prelude

A program may go on from where the prelude ends and define more.  `IsFurnished` says of any later
machine that the cells of the primitives and of the prelude are still those, and that the names of
the words of control, `:`, `;` and `RECURSE` have kept their meaning.
-/

namespace ThreadedForth

open Effect

theorem ControlWord.mem_all (word : ControlWord) : word ∈ ControlWord.all := by
  cases word <;> decide

namespace Machine

/-- The machine with other parameters. -/
def withParameters (m : Machine) (parameters : Stack .parameter) : Machine :=
  { m with state := { m.state with parameters } }

@[simp] theorem classify_withParameters (m : Machine) (parameters : Stack .parameter)
    (token : String) :
    (m.withParameters parameters).state.classify token = m.state.classify token :=
  rfl

/-! ## What was found -/

theorem memory_hasControl_furnished : furnished.state.memory.HasControl := by
  intro word
  obtain ⟨-, -, -, -, -, hcontrol, -⟩ := isPrepared_furnished
  exact (hcontrol word word.mem_all).1

theorem dictionary_hasControl_furnished : furnished.state.dictionary.HasControl := by
  intro word
  obtain ⟨-, -, -, -, -, hcontrol, -⟩ := isPrepared_furnished
  exact ⟨_, (hcontrol word word.mem_all).2, rfl, rfl⟩

/-- The prelude hides no word of the vocabulary. -/
theorem findVisible?_furnished {position : Nat} (h : position < vocabulary.length)
    (hvisible : vocabulary[position].hidden = false) :
    furnished.state.dictionary.findVisible? vocabulary[position].name =
      some ⟨vocabulary[position].name, primitiveAddress position, vocabulary[position].immediate,
        false⟩ := by
  obtain ⟨-, -, -, -, -, -, hnames⟩ := isPrepared_furnished
  exact hnames position h hvisible

/-! ## Machines that have the prelude -/

/-- A machine that has evaluated the prelude and waits for source, and where its next cell goes to.
It may have done anything else in the meantime that leaves the cells of the primitives and of the
prelude alone. -/
structure IsFurnished (m : Machine) (here : Address) : Prop extends m.IsStandard where
  loop : m.state.InOuterLoop standardKernel
  mode : m.state.mode = .ok .interpret
  cells : furnished.state.memory.Keeps m.state.memory
  next : m.state.memory.get Variable.here.address = .literal (.int here)
  past : ControlWord.past ≤ here.toInt
  control : ∀ word : ControlWord, m.state.dictionary.findVisible? word.name =
    furnished.state.dictionary.findVisible? word.name
  colon : ∃ immediate, m.state.dictionary.Resolves ":" (kernelAddress ":") immediate
  semicolon : m.state.dictionary.Resolves ";" (kernelAddress ";") true
  recurse : m.state.dictionary.Resolves "RECURSE" (kernelAddress "RECURSE") true

section Furnished

variable {m : Machine} {here : Address}

theorem IsFurnished.isReady (hm : m.IsFurnished here) : m.IsReady .standard here := by
  have hpast := hm.past
  have hvalue : ControlWord.past = 317 := rfl
  exact ⟨hm.isFitted, hm.loop, hm.cells.isIntact isIntact_furnished, hm.mode, hm.next,
    show (219 : Int) ≤ _ by omega⟩

theorem IsFurnished.memory_hasControl (hm : m.IsFurnished here) : m.state.memory.HasControl :=
  hm.cells.hasControl memory_hasControl_furnished

theorem IsFurnished.dictionary_hasControl (hm : m.IsFurnished here) :
    m.state.dictionary.HasControl := by
  intro word
  obtain ⟨entry, hfind, hentry⟩ := dictionary_hasControl_furnished word
  exact ⟨entry, (hm.control word).trans hfind, hentry⟩

/-- It does not matter what lies on the stack. -/
theorem IsFurnished.withParameters (hm : m.IsFurnished here) (parameters : Stack .parameter) :
    (m.withParameters parameters).IsFurnished here :=
  ⟨⟨hm.primitives, hm.kernel⟩, ⟨hm.loop.depth, hm.loop.place⟩, hm.mode, hm.cells, hm.next, hm.past,
    hm.control, hm.colon, hm.semicolon, hm.recurse⟩

theorem isFurnished_furnished : furnished.IsFurnished 317 := by
  obtain ⟨-, ⟨hdepth, hip, hnip, -⟩, ⟨hhere, hstate, -⟩, -⟩ := isPrepared_furnished
  have hresolves : ∀ position (h : position < vocabulary.length),
      vocabulary[position].hidden = false →
      furnished.state.dictionary.Resolves vocabulary[position].name (primitiveAddress position)
        vocabulary[position].immediate :=
    fun position h hvisible => ⟨_, findVisible?_furnished h hvisible, rfl, rfl⟩
  have hloop : furnished.state.InOuterLoop standardKernel :=
    ⟨by rw [hdepth]; exact Nat.one_ne_zero, .inr (.inr ⟨hip, hnip⟩)⟩
  exact ⟨isStandard_furnished, hloop, mode_of_get hstate, Memory.keeps_refl _, hhere, by decide,
    fun _ => rfl,
    ⟨_, hresolves 19 (by decide) rfl⟩, hresolves 20 (by decide) rfl, hresolves 32 (by decide) rfl⟩

end Furnished

end Machine

/-! ## The theorem -/

/-- **Control structures compile to their layout.**  On a machine that has evaluated the prelude,
let there be a program, put together from literals, words that are not immediate, `RECURSE` and
control structures in any way, and let `code` be its code.

Then its definition, under whatever name and on whatever parameters, is evaluated without a failure.
The cells from the old `HERE` to the new one are `DOCOL`, the layout of the code and `EXIT`, the
name means that definition, and the parameters are as they were. -/
theorem control_structures_compile {m : Machine} {here : Address} (hm : m.IsFurnished here)
    {program : Program} {code : Code}
    (htranslates : program.Translates m.state.classify here code)
    (hroom : here.toInt + (code.cells.length + 2) ≤ Int64.maxValue.toInt) {name source : String}
    (hsource : Spells (.token ":" :: .token name :: program.items ++ [.token ";"]) source.toList) :
    ∃ after, m.Interprets source after ∧ m.Defines after .standard name here code.definition := by
  obtain ⟨immediate, hcolon⟩ := hm.colon
  exact interprets_program hm.isReady hm.past hm.memory_hasControl hm.dictionary_hasControl hcolon
    hm.semicolon hm.recurse htranslates hroom hsource

/-- Euclid's algorithm, compiled while there is a parameter. -/
theorem control_structures_compile_euclid :
    ∃ after, (Machine.furnished.withParameters ⟨[.int 7]⟩).Interprets
        ": GCD BEGIN DUP WHILE TUCK MOD REPEAT DROP ; " after ∧
      after.state.memory.Holds 317
        [.native 1, .reference 178, .reference 14, .literal (.int 5), .reference 190,
          .reference 128, .reference 12, .literal (.int (-6)), .reference 176, .reference 8] ∧
      after.state.memory.get Variable.here.address = .literal (.int 327) ∧
      after.state.parameters = ⟨[.int 7]⟩ := by
  have hword : ∀ position (h : position < vocabulary.length), vocabulary[position].hidden = false →
      vocabulary[position].immediate = false →
      Program.Translates (Machine.furnished.withParameters ⟨[.int 7]⟩).state.classify 317
        (.token vocabulary[position].name) (.call (primitiveAddress position)) := by
    intro position h hvisible himmediate
    have hclassify := classify_word (Machine.findVisible?_furnished h hvisible)
    rw [← Machine.classify_withParameters _ ⟨[.int 7]⟩] at hclassify
    exact .word hclassify himmediate
  have hdup := hword 87 (by decide) rfl rfl
  have htuck := hword 93 (by decide) rfl rfl
  have hmod := hword 62 (by decide) rfl rfl
  have hdrop := hword 86 (by decide) rfl rfl
  have hspells : Spells [.token ":", .token "GCD", .token "BEGIN", .token "DUP", .token "WHILE",
      .token "TUCK", .token "MOD", .token "REPEAT", .token "DROP", .token ";"]
      ": GCD BEGIN DUP WHILE TUCK MOD REPEAT DROP ; ".toList := spells_separated (by decide)
  obtain ⟨after, hafter, hdefines⟩ := control_structures_compile
    (Machine.isFurnished_furnished.withParameters ⟨[.int 7]⟩)
    (.seq (.whileLoop hdup (.seq htuck hmod)) hdrop) (by decide) hspells
  exact ⟨after, hafter, hdefines.memory.holds, hdefines.memory.next, hdefines.parameters⟩

end ThreadedForth
