import ThreadedForth.Proofs.Dictionary.Lookups
import ThreadedForth.Proofs.Machine.Outfit
import ThreadedForth.Proofs.Memory.Writing

/-!
# What setting up leaves behind

A machine that was blank before it was set up is known completely afterwards, whatever the libraries
were: which primitive has which number, what every cell holds, which cells were written at all, and
which entries the dictionary has.  `Machine.IsLaidOut` says so, with all addresses in numbers.

The words of a library may have any names but that of the trampoline.  A name that is used again is
found where it was used last, while the machine goes on referring to the words of its kernel, which
it has looked up before.
-/

namespace ThreadedForth

open Dictionary (fold)

/-! ## Addresses in numbers -/

theorem primitiveAddress_eq_ofNat (position : Nat) :
    primitiveAddress position = Int64.ofNat (4 + 2 * position) := by
  rw [primitiveAddress, Int64.ofNat_add, Int64.ofNat_mul]
  rfl

theorem primitiveAddress_add_one_eq_ofNat (position : Nat) :
    primitiveAddress position + 1 = Int64.ofNat (5 + 2 * position) := by
  rw [primitiveAddress_eq_ofNat, show 5 + 2 * position = 4 + 2 * position + 1 by omega]
  exact (Int64.ofNat_add _ 1).symm

/-! ## The words in the dictionary -/

@[simp] theorem Primitive.address_entry (word : Primitive) (position : Nat) :
    (word.entry position).address = primitiveAddress position := rfl

/-- The entries of some words, in the order of installation. -/
def entriesFrom (position : Nat) (words : List Primitive) : List Entry :=
  (words.zipIdx position).map fun (word, position) => word.entry position

theorem entriesFrom_cons (position : Nat) (word : Primitive) (words : List Primitive) :
    entriesFrom position (word :: words) =
      word.entry position :: entriesFrom (position + 1) words := rfl

theorem getElem?_entriesFrom (words : List Primitive) (i : Nat) :
    (entriesFrom 0 words)[i]? = words[i]?.map (·.entry i) := by
  rw [entriesFrom, List.getElem?_map, List.getElem?_zipIdx, Option.map_map, Nat.zero_add]
  rfl

/-- Every word is defined in turn, and that is its history. -/
theorem tracks_installAll {words : List Primitive} {trampolineId position : Nat} {m : Machine}
    {log : List Entry} (h : m.state.dictionary.Tracks ⟨log.map Entry.key, log⟩) :
    (Machine.installAll trampolineId position words m).state.dictionary.Tracks
      ⟨((entriesFrom position words).reverse ++ log).map Entry.key,
        (entriesFrom position words).reverse ++ log⟩ := by
  induction words generalizing position m log with
  | nil => exact h
  | cons word words ih =>
      have hdefine :
          (m.install trampolineId (primitiveAddress position) word).state.dictionary.Tracks
            ⟨(word.entry position :: log).map Entry.key, word.entry position :: log⟩ :=
        h.define word.name (primitiveAddress position) word.immediate word.hidden
      rw [Machine.installAll, entriesFrom_cons, List.reverse_cons, List.append_assoc]
      exact ih hdefine

/-- The words lie one above the other. -/
theorem increasing_entriesFrom {words : List Primitive} (hroom : words.length ≤ 2 ^ 61) :
    (entriesFrom 0 words).Pairwise fun older newer => older.address < newer.address := by
  have haddresses : (entriesFrom 0 words).map Entry.address =
      (List.range' 0 words.length).map primitiveAddress := by
    rw [entriesFrom, List.map_map, ← List.zipIdx_map_snd 0 words, List.map_map]
    rfl
  rw [← List.pairwise_map (f := Entry.address) (R := (· < ·)), haddresses, List.pairwise_map]
  refine (List.pairwise_lt_range' _).imp_of_mem fun {i j} hi hj hlt => ?_
  rw [List.mem_range'_1] at hi hj
  rw [Int64.lt_iff_toInt_lt, toInt_primitiveAddress i (by omega),
    toInt_primitiveAddress j (by omega)]
  omega

/-- Words have different addresses. -/
theorem eq_of_mem_entriesFrom {words : List Primitive} (hroom : words.length ≤ 2 ^ 61)
    {entry other : Entry} (hentry : entry ∈ entriesFrom 0 words)
    (hother : other ∈ entriesFrom 0 words) (haddress : other.address = entry.address) :
    other = entry := by
  have hnodup : ((entriesFrom 0 words).map Entry.address).Nodup :=
    List.pairwise_map.mpr ((increasing_entriesFrom hroom).imp Int64.ne_of_lt)
  exact List.inj_on_of_nodup_map hnodup hother hentry haddress

/-! ### Searching -/

/-- The only item that is accepted is found. -/
theorem find?_of_unique {α : Type} {items : List α} {accept : α → Bool} {item : α}
    (hitem : item ∈ items) (haccept : accept item)
    (hunique : ∀ other ∈ items, accept other → other = item) : items.find? accept = some item := by
  rcases hfind : items.find? accept with _ | found
  · exact absurd haccept (List.find?_eq_none.mp hfind item hitem)
  · rw [hunique found (List.mem_of_find?_eq_some hfind) (List.find?_some hfind)]

section Searching

variable {words : List Primitive} {position : Nat} {word : Primitive} {name : String}

/-- Every word has an entry at its address. -/
theorem entryAt?_of_tracks {dictionary : Dictionary} (hroom : words.length ≤ 2 ^ 61)
    (h : dictionary.Tracks
      ⟨(entriesFrom 0 words).reverse.map Entry.key, (entriesFrom 0 words).reverse⟩)
    (hword : words[position]? = some word) :
    dictionary.entryAt? (primitiveAddress position) = some (word.entry position) := by
  have hentry : word.entry position ∈ entriesFrom 0 words :=
    List.mem_of_getElem? (by rw [getElem?_entriesFrom, hword]; rfl)
  have hfirst : ((entriesFrom 0 words).map Entry.key).find?
      (·.2 == primitiveAddress position) = some (word.entry position).key := by
    refine find?_of_unique (List.mem_map_of_mem hentry) (beq_self_eq_true _) ?_
    rintro key hkey haddress
    obtain ⟨other, hother, rfl⟩ := List.mem_map.mp hkey
    rw [eq_of_mem_entriesFrom hroom hentry hother (eq_of_beq haddress)]
  rw [h.entryAt?_eq, History.firstName?, ← List.map_reverse, List.reverse_reverse, hfirst,
    Option.map_some, Option.map_some]
  have hfound : (entriesFrom 0 words).reverse.find? (fun entry =>
      entry.name == (word.entry position).name && entry.address == primitiveAddress position) =
        some (word.entry position) := by
    refine find?_of_unique (List.mem_reverse.mpr hentry) (by simp) fun other hother haccept => ?_
    obtain ⟨-, haddress⟩ := Bool.and_eq_true_iff.mp haccept
    exact eq_of_mem_entriesFrom hroom hentry (List.mem_reverse.mp hother) (eq_of_beq haddress)
  exact congrArg some (congrArg (Option.getD · _) hfound)

variable (hnone : ∀ word ∈ words, fold word.name ≠ fold name)
include hnone

theorem find?_table_eq_none : PrimitiveTable.find? words.toArray name = none := by
  refine List.find?_eq_none.mpr fun id hid => ?_
  rcases hword : words[id]? with _ | word
  · simp [hword]
  · simpa [hword] using hnone word (List.mem_of_getElem? hword)

end Searching

/-! ## The written cells -/

theorem mem_cells_installAll {words : List Primitive} {trampolineId position : Nat} {m : Machine}
    {address : Address} :
    address ∈ (Machine.installAll trampolineId position words m).state.memory.cells ↔
      (∃ n, 4 + 2 * position ≤ n ∧ n < 4 + 2 * (position + words.length) ∧
        address = Int64.ofNat n) ∨ address ∈ m.state.memory.cells := by
  induction words generalizing position m with
  | nil => simp [Machine.installAll]; omega
  | cons word words ih =>
      rw [Machine.installAll, ih]
      simp only [Machine.install, Memory.mem_set_iff, primitiveAddress_add_one_eq_ofNat]
      rw [primitiveAddress_eq_ofNat, List.length_cons]
      constructor
      · rintro (⟨n, hlow, hhigh, rfl⟩ | rfl | rfl | hbefore)
        · exact .inl ⟨n, by omega, by omega, rfl⟩
        · exact .inl ⟨5 + 2 * position, by omega, by omega, rfl⟩
        · exact .inl ⟨4 + 2 * position, by omega, by omega, rfl⟩
        · exact .inr hbefore
      · rintro (⟨n, hlow, hhigh, rfl⟩ | hbefore)
        · obtain rfl | rfl | hrest : n = 4 + 2 * position ∨ n = 5 + 2 * position ∨
              4 + 2 * (position + 1) ≤ n := by omega
          · exact .inr (.inr (.inl rfl))
          · exact .inr (.inl rfl)
          · exact .inl ⟨n, hrest, by omega, rfl⟩
        · exact .inr (.inr (.inr hbefore))

/-! ## The layout -/

/-- The words whose addresses a machine remembers. -/
def Kernel.addresses (kernel : Kernel) : List (String × Address) :=
  [("LIT", kernel.lit), ("EXIT", kernel.exit), ("BRANCH", kernel.branch),
    ("0BRANCH", kernel.zeroBranch), ("TYPE", kernel.type), ("INTERPRET", kernel.interpret),
    ("QUIT", kernel.quit)]

/-- The words whose numbers a machine remembers. -/
def Kernel.numbers (kernel : Kernel) : List (String × Nat) :=
  [("DOCOL", kernel.docol), ("(DOVAR)", kernel.dovar), ("(DOCON)", kernel.docon)]

/-- Nothing was put into the machine yet. -/
structure Machine.IsBlank (m : Machine) : Prop where
  memory : m.state.memory = {}
  dictionary : m.state.dictionary = { order := m.state.dictionary.order }
  primitives : m.primitives = #[]
  kernel : m.state.kernel? = none

/-- The machine has these words and no others. -/
structure Machine.HasWords (m : Machine) (words : List Primitive) : Prop where
  primitives : m.primitives = words.toArray
  trampoline : words[0]? = some trampoline
  /-- The number of a word stands at its address, and that of the trampoline stands behind it. -/
  native : ∀ i < words.length,
    m.state.memory.get (Int64.ofNat (4 + 2 * i)) = .native i ∧
      m.state.memory.get (Int64.ofNat (5 + 2 * i)) = .native 0
  /-- Every word has an entry at its address, whether its name was used again or not. -/
  entry : ∀ i word, words[i]? = some word →
    m.state.dictionary.entryAt? (Int64.ofNat (4 + 2 * i)) =
      some ⟨fold word.name, Int64.ofNat (4 + 2 * i), word.immediate, word.hidden⟩
  /-- A name is found where it was used last, in the dictionary and in the table. -/
  found : ∀ i word, IsLast words i word → ∀ name, fold name = fold word.name →
    m.state.dictionary.find? name =
        some ⟨fold word.name, Int64.ofNat (4 + 2 * i), word.immediate, word.hidden⟩ ∧
      m.primitives.find? name = some i
  unknown : ∀ name, (∀ word ∈ words, fold word.name ≠ fold name) →
    m.state.dictionary.find? name = none ∧ m.primitives.find? name = none

/-- What the machine remembers are words of the kernel. -/
structure Machine.Remembers (m : Machine) (kernel : Kernel) : Prop where
  remembered : m.state.kernel? = some kernel
  addresses : ∀ name address, (name, address) ∈ kernel.addresses →
    ∃ i word, kernelWords[i]? = some word ∧ word.name = name ∧
      address = Int64.ofNat (4 + 2 * i) ∧ m.state.memory.get address = .native i ∧
      m.primitives[i]? = some word
  numbers : ∀ name id, (name, id) ∈ kernel.numbers →
    ∃ word, kernelWords[id]? = some word ∧ word.name = name ∧ m.primitives[id]? = some word

/-- The machine has these words and remembers this kernel, and besides them it has only the outer
loop and the variables. -/
structure Machine.IsLaidOut (m : Machine) (kernel : Kernel) (words : List Primitive) : Prop
    extends m.HasWords words, m.Remembers kernel where
  outerLoop : kernel.outerLoop = Int64.ofNat (4 + 2 * words.length) ∧
    m.state.memory.Holds kernel.outerLoop
      [.reference kernel.interpret, .reference kernel.branch, .literal (.int (-2))]
  here : m.state.here = .ok (Int64.ofNat (4 + 2 * words.length + 3))
  latest : m.state.latest = .ok (Int64.ofNat (4 + 2 * (words.length - 1)))
  state : m.state.readVariable .state = .ok 0
  base : m.state.readVariable .base = .ok 10
  /-- The cells below `HERE` are written, and no others. -/
  written : ∀ address, address ∈ m.state.memory.cells ↔
    ∃ n < 4 + 2 * words.length + 3, address = Int64.ofNat n

/-! ### Where the kernel is -/

/-- The machine remembers kernel words by their places. -/
theorem exists_of_mem_addresses {first : Nat} {outerLoop address : Address} {name : String}
    (h : (name, address) ∈ (Kernel.ofLayout first outerLoop).addresses) :
    address = kernelAddress name ∧ ∃ word ∈ kernelWords, word.name = name := by
  have hnames : ∀ name ∈ ["LIT", "EXIT", "BRANCH", "0BRANCH", "TYPE", "INTERPRET", "QUIT"],
      ∃ word ∈ kernelWords, word.name = name := by
    decide +kernel
  simp only [Kernel.addresses, Kernel.ofLayout, List.mem_cons, Prod.mk.injEq, List.not_mem_nil,
    or_false] at h
  rcases h with ⟨rfl, rfl⟩ | ⟨rfl, rfl⟩ | ⟨rfl, rfl⟩ | ⟨rfl, rfl⟩ | ⟨rfl, rfl⟩ | ⟨rfl, rfl⟩ |
    ⟨rfl, rfl⟩
  all_goals exact ⟨rfl, hnames _ (by simp)⟩

theorem exists_of_mem_numbers {first : Nat} {outerLoop : Address} {name : String} {id : Nat}
    (h : (name, id) ∈ (Kernel.ofLayout first outerLoop).numbers) :
    id = first + kernelPosition name ∧ ∃ word ∈ kernelWords, word.name = name := by
  have hnames : ∀ name ∈ ["DOCOL", "(DOVAR)", "(DOCON)"],
      ∃ word ∈ kernelWords, word.name = name := by
    decide +kernel
  simp only [Kernel.numbers, Kernel.ofLayout, List.mem_cons, Prod.mk.injEq, List.not_mem_nil,
    or_false] at h
  rcases h with ⟨rfl, rfl⟩ | ⟨rfl, rfl⟩ | ⟨rfl, rfl⟩
  all_goals exact ⟨rfl, hnames _ (by simp)⟩

/-! ### Setting up a blank machine -/

namespace Machine.IsBlank

variable {fresh : Machine} {more : List Primitive} (hfresh : fresh.IsBlank)
include hfresh

theorem tracks_stocked : (fresh.stocked more).state.dictionary.Tracks
    ⟨(entriesFrom 0 more).reverse.map Entry.key, (entriesFrom 0 more).reverse⟩ := by
  have hseeded : fresh.seeded.state.dictionary = { order := fresh.state.dictionary.order } :=
    hfresh.dictionary
  have hempty : fresh.seeded.state.dictionary.Tracks ⟨([] : List Entry).map Entry.key, []⟩ :=
    hseeded ▸ Dictionary.tracks_empty _
  have htracks : (fresh.stocked more).state.dictionary.Tracks
      ⟨((entriesFrom 0 more).reverse ++ []).map Entry.key, (entriesFrom 0 more).reverse ++ []⟩ :=
    tracks_installAll hempty
  rwa [List.append_nil] at htracks

theorem mem_cells_stocked {address : Address} :
    address ∈ (fresh.stocked more).state.memory.cells ↔
      ∃ n < 4 + 2 * more.length, address = Int64.ofNat n := by
  have hseeded : address ∈ fresh.seeded.state.memory.cells ↔
      ∃ n < 4, address = Int64.ofNat n := by
    simp only [Machine.seeded, Variable.all, List.foldl_cons, List.foldl_nil, State.writeVariable,
      Memory.mem_set_iff, hfresh.memory, Std.TreeMap.not_mem_emptyc, or_false]
    constructor
    · rintro (rfl | rfl | rfl | rfl)
      exacts [⟨3, by omega, rfl⟩, ⟨2, by omega, rfl⟩, ⟨1, by omega, rfl⟩, ⟨0, by omega, rfl⟩]
    · rintro ⟨n, hn, rfl⟩
      obtain rfl | rfl | rfl | rfl : n = 3 ∨ n = 2 ∨ n = 1 ∨ n = 0 := by omega
      exacts [.inl rfl, .inr (.inl rfl), .inr (.inr (.inl rfl)), .inr (.inr (.inr rfl))]
  rw [Machine.stocked, mem_cells_installAll, hseeded, Nat.mul_zero, Nat.zero_add]
  constructor
  · rintro (⟨n, -, hn, rfl⟩ | ⟨n, hn, rfl⟩)
    · exact ⟨n, by omega, rfl⟩
    · exact ⟨n, by omega, rfl⟩
  · rintro ⟨n, hn, rfl⟩
    rcases Nat.lt_or_ge n 4 with hlow | hlow
    · exact .inr ⟨n, hlow, rfl⟩
    · exact .inl ⟨n, hlow, by omega, rfl⟩

end Machine.IsBlank

/-! ### What setting up adds -/

theorem get_seeded (fresh : Machine) (v : Variable) :
    fresh.seeded.state.memory.get v.address = .literal (.int v.initial) := by
  cases v <;>
    simp [Machine.seeded, Variable.all, State.writeVariable, Memory.get_set, Variable.address]

/-- The outer loop and two variables are written at last. -/
theorem mem_cells_finished {memory : Memory} {kernel : Kernel} {latest address : Address} {n : Nat}
    (hwritten : address ∈ memory.cells ↔ ∃ i < 4 + 2 * n, address = Int64.ofNat i) :
    address ∈ (memory.finished kernel (primitiveAddress n) latest).cells ↔
      ∃ i < 4 + 2 * n + 3, address = Int64.ofNat i := by
  have htwo : Int64.ofNat (4 + 2 * n) + 2 = Int64.ofNat (6 + 2 * n) := by
    rw [show 6 + 2 * n = 4 + 2 * n + 2 by omega]
    exact (Int64.ofNat_add _ 2).symm
  simp only [Memory.finished, Memory.mem_set_iff, primitiveAddress_add_one_eq_ofNat, hwritten]
  rw [primitiveAddress_eq_ofNat, htwo]
  constructor
  · rintro (rfl | rfl | rfl | rfl | rfl | ⟨i, hi, rfl⟩)
    · exact ⟨3, by omega, rfl⟩
    · exact ⟨0, by omega, rfl⟩
    · exact ⟨6 + 2 * n, by omega, rfl⟩
    · exact ⟨5 + 2 * n, by omega, rfl⟩
    · exact ⟨4 + 2 * n, by omega, rfl⟩
    · exact ⟨i, by omega, rfl⟩
  · rintro ⟨i, hi, rfl⟩
    obtain hlow | rfl | rfl | rfl :
        i < 4 + 2 * n ∨ i = 4 + 2 * n ∨ i = 5 + 2 * n ∨ i = 6 + 2 * n := by omega
    · exact .inr (.inr (.inr (.inr (.inr ⟨i, hlow, rfl⟩))))
    · exact .inr (.inr (.inr (.inr (.inl rfl))))
    · exact .inr (.inr (.inr (.inl rfl)))
    · exact .inr (.inr (.inl rfl))

/-- The outfit of a blank machine that is set up with libraries without a trampoline. -/
def Outfit.over (libraries : List (List Primitive))
    (hroom : (kernelWords ++ libraries.flatten).length < 2 ^ 32) : Outfit where
  table := (kernelWords ++ libraries.flatten).toArray
  first := 0
  words := kernelWords ++ libraries.flatten
  outerLoop := primitiveAddress (kernelWords ++ libraries.flatten).length
  kernel_prefix := List.prefix_append ..
  lookup position word hword := by
    rw [Nat.zero_add, PrimitiveTable.lookup, List.getElem?_toArray, hword]
  above := by
    rw [toInt_primitiveAddress _ (by omega)]
  room := by
    have hmax : Int64.maxValue.toInt = 9223372036854775807 := rfl
    rw [toInt_primitiveAddress _ (by omega)]
    omega

@[simp] theorem Outfit.first_over (libraries : List (List Primitive))
    (hroom : (kernelWords ++ libraries.flatten).length < 2 ^ 32) :
    (Outfit.over libraries hroom).first = 0 := rfl

section Bootstrapping

variable {fresh m : Machine} {libraries : List (List Primitive)}
variable (h : fresh.bootstrap libraries = .ok () m)
include h

theorem dictionary_of_bootstrap : m.state.dictionary =
    (fresh.stocked (kernelWords ++ libraries.flatten)).state.dictionary := by
  rw [state_of_bootstrap h]

theorem memory_of_bootstrap : m.state.memory =
    (fresh.stocked (kernelWords ++ libraries.flatten)).state.memory.finished
      (fresh.kernelWith libraries) (primitiveAddress (kernelWords ++ libraries.flatten).length)
      (primitiveAddress ((kernelWords ++ libraries.flatten).length - 1)) := by
  rw [eq_settled_of_bootstrap h]
  rfl

variable (hfresh : fresh.IsBlank)
  (hnames : ∀ word ∈ libraries.flatten, word.name ≠ trampolineName)
include hfresh hnames

theorem primitives_of_bootstrap_blank :
    m.primitives = (kernelWords ++ libraries.flatten).toArray := by
  have hall : libraries.flatten.filter (·.name ≠ trampolineName) = libraries.flatten :=
    List.filter_eq_self.mpr fun word hword => decide_eq_true (hnames word hword)
  rw [primitives_of_bootstrap h, hfresh.primitives, hall]
  exact Array.empty_append

variable (hroom : (kernelWords ++ libraries.flatten).length < 2 ^ 32)
include hroom

/-- All words are at their places, since none of them is the trampoline again. -/
theorem isIntact_over_of_bootstrap : m.state.memory.IsIntact (.over libraries hroom) := by
  refine isIntact_of_append h (by omega) (kernelWords.tail ++ libraries.flatten) [] ?_
    (fun word hword => ?_) rfl ?_ rfl
  · rw [List.append_nil]
    rfl
  · rcases List.mem_append.mp hword with hkernel | hmore
    · exact name_ne_trampolineName_of_mem_tail_kernelWords word hkernel
    · exact hnames word hmore
  · rw [hfresh.primitives]
    rfl

theorem hasWords_of_bootstrap : m.HasWords (kernelWords ++ libraries.flatten) := by
  have hintact := isIntact_over_of_bootstrap h hfresh hnames hroom
  have hdictionary := dictionary_of_bootstrap h
  have htracks : m.state.dictionary.Tracks _ := hdictionary ▸ hfresh.tracks_stocked
  have hprimitives := primitives_of_bootstrap_blank h hfresh hnames
  refine ⟨hprimitives, rfl, fun i hi => ?_, fun i word hword => ?_,
    fun i word hlast name hname => ⟨?_, ?_⟩, fun name hnone => ⟨?_, ?_⟩⟩
  · have hnative := hintact.primitive i hi
    have htrampoline := hintact.trampoline i hi
    rw [Outfit.first_over, Nat.zero_add, primitiveAddress_eq_ofNat] at hnative
    rw [Outfit.first_over, primitiveAddress_add_one_eq_ofNat] at htrampoline
    exact ⟨hnative, htrampoline⟩
  · rw [← primitiveAddress_eq_ofNat]
    exact entryAt?_of_tracks (by omega) htracks hword
  · rw [hdictionary, Machine.stocked, find?_installAll hlast hname, Nat.zero_add,
      ← primitiveAddress_eq_ofNat]
    rfl
  · have hfound := hlast.find?_table #[] hname
    rw [Array.empty_append, Array.size_empty, Nat.zero_add] at hfound
    rw [hprimitives, hfound]
  · rw [hdictionary, Machine.stocked, find?_installAll_of_ne hnone]
    exact congrArg (Dictionary.find? · name) hfresh.dictionary
  · rw [hprimitives]
    exact find?_table_eq_none hnone

theorem remembers_of_bootstrap : ∃ kernel, m.Remembers kernel ∧ kernel.outerLoop =
    primitiveAddress (kernelWords ++ libraries.flatten).length := by
  have hwords := hasWords_of_bootstrap h hfresh hnames hroom
  have hkernel := kernel?_of_bootstrap h
  rw [Machine.kernelWith, hfresh.primitives, Array.size_empty] at hkernel
  have hkernelWord : ∀ {i word}, kernelWords[i]? = some word →
      i < (kernelWords ++ libraries.flatten).length ∧ m.primitives[i]? = some word := by
    intro i word hword
    obtain ⟨hi, -⟩ := List.getElem?_eq_some_iff.mp hword
    refine ⟨List.length_append ▸ Nat.lt_add_right _ hi, ?_⟩
    rw [hwords.primitives, List.getElem?_toArray, List.getElem?_append_left hi, hword]
  refine ⟨_, ⟨hkernel, fun name address hmem => ?_, fun name id hmem => ?_⟩, rfl⟩
  · obtain ⟨rfl, hname⟩ := exists_of_mem_addresses hmem
    obtain ⟨word, hword, hname⟩ := exists_of_kernelPosition hname
    obtain ⟨hi, hprimitive⟩ := hkernelWord hword
    have hnative := (hwords.native _ hi).1
    rw [← primitiveAddress_eq_ofNat] at hnative
    exact ⟨_, word, hword, hname, primitiveAddress_eq_ofNat _, hnative, hprimitive⟩
  · obtain ⟨rfl, hname⟩ := exists_of_mem_numbers hmem
    obtain ⟨word, hword, hname⟩ := exists_of_kernelPosition hname
    rw [Nat.zero_add]
    exact ⟨word, hword, hname, (hkernelWord hword).2⟩

theorem isLaidOut_of_bootstrap :
    ∃ kernel, m.IsLaidOut kernel (kernelWords ++ libraries.flatten) := by
  obtain ⟨kernel, hremembers, hplace⟩ := remembers_of_bootstrap h hfresh hnames hroom
  obtain rfl : kernel = fresh.kernelWith libraries :=
    Option.some.inj (hremembers.remembered.symm.trans (kernel?_of_bootstrap h))
  have hmemory := memory_of_bootstrap h
  have hmax : Int64.maxValue.toInt = 9223372036854775807 := rfl
  have houterLoop : (primitiveAddress (kernelWords ++ libraries.flatten).length).toInt =
      4 + 2 * (kernelWords ++ libraries.flatten).length := toInt_primitiveAddress _ (by omega)
  -- two variables are written at last, and two are still as they were at first
  have hhere : m.state.memory.get Variable.here.address =
      .literal (.int (primitiveAddress (kernelWords ++ libraries.flatten).length + 3)) := by
    rw [hmemory, Memory.finished, Memory.get_set_of_ne _ (by decide), Memory.get_set_self]
  have hlatest : m.state.memory.get Variable.latest.address = .literal (.int
      (primitiveAddress ((kernelWords ++ libraries.flatten).length - 1))) := by
    rw [hmemory, Memory.finished, Memory.get_set_self]
  have hinitial : ∀ v : Variable, v.address ≠ Variable.here.address →
      v.address ≠ Variable.latest.address → v.address.toInt < 4 →
      m.state.memory.get v.address = .literal (.int v.initial) := by
    intro v hnotHere hnotLatest hlow
    rw [hmemory, Memory.get_finished_of_ne (by omega) (by omega) hnotHere hnotLatest,
      Machine.stocked, get_installAll_of_lt (by omega) (by omega), get_seeded]
  refine ⟨_, hasWords_of_bootstrap h hfresh hnames hroom, hremembers,
    ⟨hplace.trans (primitiveAddress_eq_ofNat _), ?_⟩, ?_, ?_, ?_, ?_, fun address => ?_⟩
  · rw [hmemory, hplace]
    exact Memory.holds_finished (by omega) (by omega)
  · rw [State.here, State.readVariable, hhere, primitiveAddress_eq_ofNat, Int64.ofNat_add _ 3]
    rfl
  · rw [State.latest, State.readVariable, hlatest, primitiveAddress_eq_ofNat]
    rfl
  · rw [State.readVariable, hinitial .state (by decide) (by decide) (by decide)]
    rfl
  · rw [State.readVariable, hinitial .base (by decide) (by decide) (by decide)]
    rfl
  · rw [hmemory]
    exact mem_cells_finished hfresh.mem_cells_stocked

end Bootstrapping

/-- **Setting up lays out any libraries.**  A blank machine is set up with any libraries, as long as
none of them has a word with the name of the trampoline and the words fit into the table.  All words
are then at their places and are found by their names, the machine knows the words of its own kernel
whatever the libraries call theirs, and nothing else was written but the outer loop and the
variables.  Setting the machine up again fails and leaves it as it is. -/
theorem bootstrap_lays_out {fresh : Machine} (hfresh : fresh.IsBlank)
    (libraries : List (List Primitive))
    (hnames : ∀ library ∈ libraries, ∀ word ∈ library, word.name ≠ trampolineName)
    (hroom : kernelWords.length + (libraries.map List.length).sum < 2 ^ 32) :
    ∃ m kernel, fresh.bootstrap libraries = .ok () m ∧
      m.IsLaidOut kernel (kernelWords ++ libraries.flatten) ∧
      ∀ more, m.bootstrap more = .error (.internal "machine is already bootstrapped") m := by
  have hflat : ∀ word ∈ libraries.flatten, word.name ≠ trampolineName := by
    intro word hword
    obtain ⟨library, hlibrary, hword⟩ := List.mem_flatten.mp hword
    exact hnames library hlibrary word hword
  have hlength : (kernelWords ++ libraries.flatten).length < 2 ^ 32 := by
    rwa [List.length_append, List.length_flatten]
  have hsize : fresh.primitives.size = 0 := by rw [hfresh.primitives, Array.size_empty]
  have hm : fresh.bootstrap libraries = .ok () (fresh.settled libraries) :=
    bootstrap_eq_ok hfresh.kernel (by rwa [hsize, Nat.zero_add])
  obtain ⟨kernel, hlayout⟩ := isLaidOut_of_bootstrap hm hfresh hflat hlength
  exact ⟨_, kernel, hm, hlayout, bootstrap_of_bootstrap hm⟩

/-- The libraries have a word of the kernel's, and one word of their own twice. -/
def shadowingLibraries : List (List Primitive) :=
  [[{ name := "EXIT", effect := pure () }, { name := "TWICE", effect := pure () }], [],
    [{ name := "TWICE", immediate := true, effect := pure () }]]

/-- The last word of a name is found by it, and the machine knows the kernel's own. -/
theorem bootstrap_lays_out_shadowing :
    ∃ (libraries : List (List Primitive)) (m : Machine) (kernel : Kernel),
      libraries.map (·.map Primitive.name) = [["EXIT", "TWICE"], [], ["TWICE"]] ∧
      ({} : Machine).bootstrap libraries = .ok () m ∧
      m.IsLaidOut kernel (kernelWords ++ libraries.flatten) ∧
      m.state.here = .ok 129 ∧ m.primitives.find? "TWICE" = some 60 ∧
      m.state.dictionary.find? "EXIT" = some ⟨"EXIT", 120, false, false⟩ ∧ kernel.exit = 8 := by
  have hfresh : ({} : Machine).IsBlank := ⟨rfl, rfl, rfl, rfl⟩
  obtain ⟨m, kernel, hm, hlayout, -⟩ :=
    bootstrap_lays_out hfresh shadowingLibraries (by decide) (by decide)
  have hlength : (kernelWords ++ shadowingLibraries.flatten).length = 61 := rfl
  have hlast : IsLast (kernelWords ++ shadowingLibraries.flatten) 60
      { name := "TWICE", immediate := true, effect := pure () } := by
    refine ⟨rfl, fun later other hlater hother => ?_⟩
    obtain ⟨hlt, -⟩ := List.getElem?_eq_some_iff.mp hother
    omega
  have hexit : IsLast (kernelWords ++ shadowingLibraries.flatten) 58
      { name := "EXIT", effect := pure () } := by
    refine ⟨rfl, fun later other hlater hother => ?_⟩
    obtain ⟨hlt, rfl⟩ := List.getElem?_eq_some_iff.mp hother
    have hne : fold "TWICE" ≠ fold "EXIT" := by decide +kernel
    obtain rfl | rfl : later = 59 ∨ later = 60 := by omega
    · exact hne
    · exact hne
  have hkernel := hlayout.remembered.symm.trans (kernel?_of_bootstrap hm)
  refine ⟨shadowingLibraries, m, kernel, rfl, hm, hlayout, hlayout.here,
    (hlayout.found 60 _ hlast "TWICE" rfl).2,
    (hlayout.found 58 _ hexit "EXIT" rfl).1.trans (by decide +kernel),
    ?_⟩
  cases hkernel
  rfl

end ThreadedForth
