import ThreadedForth.Proofs.Machine.Outfit
import ThreadedForth.Proofs.Machine.Surroundings

/-!
# The standard machine

A machine that was set up with the kernel and the library, and with nothing else, is a standard
machine.  Its outfit is known completely: it has the words of `vocabulary`, in the order of
installation.  Running it does not change that, so `Machine.IsStandard` holds of it in every state.
-/

namespace ThreadedForth

/-! ## The machine with the kernel and the library -/

/-- The words of the kernel and the library, in the order of installation. -/
def vocabulary : List Primitive := kernelWords ++ libraryWords

/-- What the word with a name does.  A name that is not in the vocabulary does nothing. -/
def effectNamed (name : String) : Effect Unit :=
  match vocabulary.find? (·.name == name) with
  | some word => word.effect
  | none => pure ()

/-- What a machine with this vocabulary remembers of its kernel. -/
def standardKernel : Kernel := Kernel.ofLayout 0 (primitiveAddress vocabulary.length)

/-- The primitives of a machine with this vocabulary. -/
def standardTable : PrimitiveTable := vocabulary.toArray

/-- The machine was set up with the kernel and the library. -/
structure Machine.IsStandard (m : Machine) : Prop where
  primitives : m.primitives = standardTable
  kernel : m.state.kernel? = some standardKernel

theorem Machine.IsStandard.withInput {m : Machine} (hm : m.IsStandard) (input : Input) :
    (m.withInput input).IsStandard := ⟨hm.primitives, hm.kernel⟩

theorem Machine.IsStandard.withOutput {m : Machine} (hm : m.IsStandard) (output : Output) :
    (m.withOutput output).IsStandard := ⟨hm.primitives, hm.kernel⟩

theorem length_vocabulary : vocabulary.length = 106 := rfl

theorem vocabulary_eq_cons : vocabulary = trampoline :: vocabulary.tail := rfl

/-- Only the first word is the trampoline. -/
theorem name_ne_trampolineName_of_mem_tail :
    ∀ word ∈ vocabulary.tail, word.name ≠ trampolineName := by
  decide +kernel

theorem lookup_standardTable {position : Nat} {word : Primitive}
    (h : vocabulary[position]? = some word) : standardTable.lookup position = .ok word := by
  rw [standardTable, PrimitiveTable.lookup, List.getElem?_toArray, h]

/-- The outfit of a standard machine. -/
def Outfit.standard : Outfit where
  table := standardTable
  first := 0
  words := vocabulary
  outerLoop := standardKernel.outerLoop
  kernel_prefix := ⟨libraryWords, rfl⟩
  lookup position word hword := by
    rw [Nat.zero_add]
    exact lookup_standardTable hword
  above := by decide
  room := by decide

@[simp] theorem Outfit.standard_past : Outfit.standard.past = 219 := rfl

/-! ## Setting it up -/

section Bootstrapping

variable {fresh m : Machine}

theorem Machine.IsStandard.isFitted (hm : m.IsStandard) : m.IsFitted .standard :=
  ⟨hm.primitives, hm.kernel⟩

theorem flatten_libraryWords : kernelWords ++ [libraryWords].flatten = vocabulary := by
  rw [List.flatten_singleton]
  rfl

/-- What holds of the words of the kernel and the library, and of the other words that a machine is
set up with, holds of all words that it knows. -/
theorem forall_lookup_of_bootstrap {P : Primitive → Prop} {libraries : List (List Primitive)}
    (h : fresh.bootstrap libraries = .ok () m) (hvocabulary : ∀ word ∈ vocabulary, P word)
    (hwords : ∀ word ∈ fresh.primitives.toList ++ libraries.flatten, word ∈ vocabulary ∨ P word) :
    ∀ id word, m.primitives.lookup id = .ok word → P word := by
  intro id word hlookup
  rcases mem_of_lookup_of_bootstrap h hlookup with hkernel | hmore
  · exact hvocabulary word (List.mem_append_left _ hkernel)
  · rcases hwords word hmore with hknown | hword
    · exact hvocabulary word hknown
    · exact hword

/-- Setting up with the kernel and the library makes a standard machine. -/
theorem isStandard_of_bootstrap (hprimitives : fresh.primitives = #[])
    (h : fresh.bootstrap [libraryWords] = .ok () m) : m.IsStandard := by
  refine ⟨?_, ?_⟩
  · have hall : libraryWords.filter (·.name ≠ trampolineName) = libraryWords :=
      List.filter_eq_self.mpr fun word hword => decide_eq_true
        (name_ne_trampolineName_of_mem_tail word (List.mem_append_right kernelWords.tail hword))
    rw [primitives_of_bootstrap h, List.flatten_singleton, hall, hprimitives, standardTable]
    exact Array.empty_append
  · rw [kernel?_of_bootstrap h, Machine.kernelWith, hprimitives, flatten_libraryWords]
    rfl

/-- The cells of a machine that was just set up are intact. -/
theorem isIntact_standard_of_bootstrap (hprimitives : fresh.primitives = #[])
    (h : fresh.bootstrap [libraryWords] = .ok () m) : m.state.memory.IsIntact .standard := by
  refine isIntact_of_append h (by decide) vocabulary.tail [] ?_
    name_ne_trampolineName_of_mem_tail vocabulary_eq_cons ?_ ?_
  · rw [List.append_nil, ← vocabulary_eq_cons, flatten_libraryWords]
  · rw [hprimitives]
    rfl
  · rw [flatten_libraryWords]
    rfl

end Bootstrapping

/-! ## A machine just set up -/

/-- Where a machine lives and how it runs does not matter for setting it up. -/
theorem installAll_with (words : List Primitive) (trampolineId position : Nat) (m : Machine)
    (around : Surroundings) (report : Bool) (stepLimit : Option Nat) (recovered : Array Error)
    (watched : Bool) (told : Array Halt) :
    Machine.installAll trampolineId position words
        { m with state := m.state.within around, report, stepLimit, recovered, watched, told } =
      { Machine.installAll trampolineId position words m with
        state := (Machine.installAll trampolineId position words m).state.within around
        report, stepLimit, recovered, watched, told } := by
  induction words generalizing position m with
  | nil => rfl
  | cons word words ih =>
      rw [Machine.installAll, Machine.installAll, ← ih]
      congr 1

theorem settled_with (libraries : List (List Primitive)) (m : Machine) (around : Surroundings)
    (report : Bool) (stepLimit : Option Nat) (recovered : Array Error) (watched : Bool)
    (told : Array Halt) :
    Machine.settled
        { m with state := m.state.within around, report, stepLimit, recovered, watched, told }
        libraries =
      { m.settled libraries with
        state := (m.settled libraries).state.within around
        report, stepLimit, recovered, watched, told } := by
  have hseeded : Machine.seeded
      { m with state := m.state.within around, report, stepLimit, recovered, watched, told } =
      { m.seeded with
        state := m.seeded.state.within around, report, stepLimit, recovered, watched, told } := by
    simp only [Machine.seeded, Variable.all, List.foldl]
    rfl
  have hkernel : Machine.kernelWith
      { m with state := m.state.within around, report, stepLimit, recovered, watched, told }
      libraries = m.kernelWith libraries := rfl
  simp only [Machine.settled, Machine.stocked, hseeded, hkernel, installAll_with]
  rfl

/-- Setting up changes neither where a machine lives nor how it runs. -/
theorem settled_eq (libraries : List (List Primitive)) (m : Machine) :
    m.settled libraries =
      { m.settled libraries with
        report := m.report, stepLimit := m.stepLimit, recovered := m.recovered
        watched := m.watched, told := m.told } ∧
    (m.settled libraries).state.surroundings = m.state.surroundings := by
  have hwith : m.settled libraries = _ := settled_with libraries m m.state.surroundings m.report
    m.stepLimit m.recovered m.watched m.told
  have hstate : (m.settled libraries).state =
      (m.settled libraries).state.within m.state.surroundings := congrArg Machine.state hwith
  constructor
  · rw [← hstate] at hwith
    exact hwith
  · rw [hstate]
    rfl

/-- A machine that was just set up. -/
@[irreducible] def Machine.booted : Machine := ({} : Machine).settled [libraryWords]

theorem bootstrap_booted : ({} : Machine).bootstrap [libraryWords] = .ok () Machine.booted := by
  unfold Machine.booted
  exact bootstrap_eq_ok rfl (by decide)

/-- Nobody has run the machine yet. -/
theorem booted_eq : Machine.booted =
    { Machine.booted with
      report := true, stepLimit := none, recovered := #[], watched := false, told := #[] } := by
  unfold Machine.booted
  exact (settled_eq [libraryWords] {}).1

/-- The input of a machine that was just set up is replaced, its sink is empty and takes all, and
its dictionary goes through its names as they come. -/
theorem surroundings_booted : Machine.booted.state.surroundings = State.surroundings {} := by
  unfold Machine.booted
  exact (settled_eq [libraryWords] {}).2

end ThreadedForth
