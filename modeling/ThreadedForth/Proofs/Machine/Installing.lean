import Mathlib.Tactic.Simps.Basic
import Mathlib.Algebra.Group.Nat.Defs
import ThreadedForth.Bootstrap
import ThreadedForth.Proofs.Memory.Layout

/-!
# Installing words

Setting up is a computation that may fail.  As long as the table has room for the words, it comes to
a machine that can be written down: `Machine.settled`.  There every word is at the place that its
position gives it, and what the kernel looks up by names are its own words, since no library is
installed yet.  Without room there is no machine, so `Machine.settled` describes every machine that
was set up.
-/

namespace ThreadedForth

open Dictionary (fold)

/-! ## Places -/

/-- The address of the primitive that is installed as number `position`. -/
def primitiveAddress (position : Nat) : Address := Variable.past + 2 * Int64.ofNat position

/-- The position of a word in the kernel. -/
def kernelPosition (name : String) : Nat := kernelWords.findIdx (·.name == name)

/-- The address of a word in the kernel. -/
def kernelAddress (name : String) : Address := primitiveAddress (kernelPosition name)

/-- The words of a kernel whose first primitive has the number `first`. -/
@[simps] def Kernel.ofLayout (first : Nat) (outerLoop : Address) : Kernel where
  docol := first + kernelPosition "DOCOL"
  dovar := first + kernelPosition "(DOVAR)"
  docon := first + kernelPosition "(DOCON)"
  lit := kernelAddress "LIT"
  exit := kernelAddress "EXIT"
  branch := kernelAddress "BRANCH"
  zeroBranch := kernelAddress "0BRANCH"
  type := kernelAddress "TYPE"
  interpret := kernelAddress "INTERPRET"
  quit := kernelAddress "QUIT"
  outerLoop := outerLoop

theorem toInt_primitiveAddress (position : Nat) (h : position < 2 ^ 62 - 2) :
    (primitiveAddress position).toInt = 4 + 2 * position := by
  have hmax : Int64.maxValue.toInt = 9223372036854775807 := rfl
  have hfour : (4 : Address).toInt = 4 := rfl
  have hdouble : (2 : Address) * Int64.ofNat position = Int64.ofNat (2 * position) := by
    rw [Int64.ofNat_mul]
    rfl
  rw [primitiveAddress, hdouble]
  change ((4 : Address) + Int64.ofNat (2 * position)).toInt = _
  rw [Address.toInt_add_ofNat (by omega), hfour]
  omega

theorem toInt_primitiveAddress_add_one (position : Nat) (h : position < 2 ^ 62 - 2) :
    (primitiveAddress position + 1).toInt = 5 + 2 * position := by
  have hmax : Int64.maxValue.toInt = 9223372036854775807 := rfl
  have haddress := toInt_primitiveAddress position h
  rw [Address.toInt_add_one (by omega), haddress]
  omega

/-- The next word lies two cells above. -/
theorem primitiveAddress_add_two (position : Nat) :
    primitiveAddress position + 2 = primitiveAddress (position + 1) := by
  rw [primitiveAddress, primitiveAddress, Int64.ofNat_add]
  have hone : Int64.ofNat 1 = 1 := rfl
  rw [hone]
  grind

/-- The place of a kernel word is that of a word with its name. -/
theorem exists_of_kernelPosition {name : String} (h : ∃ word ∈ kernelWords, word.name = name) :
    ∃ word, kernelWords[kernelPosition name]? = some word ∧ word.name = name := by
  obtain ⟨word, hword, hname⟩ := h
  have hlt : kernelPosition name < kernelWords.length :=
    List.findIdx_lt_length_of_exists ⟨word, hword, by simp [hname]⟩
  have hfound := List.findIdx_getElem (w := hlt)
  exact ⟨_, List.getElem?_eq_getElem hlt, eq_of_beq hfound⟩

/-! ## The machine that setting up comes to -/

namespace Machine

/-- The machine with one more word. -/
def install (m : Machine) (trampolineId : Nat) (address : Address) (word : Primitive) : Machine :=
  let (id, primitives) :=
    if word.name = trampolineName then (trampolineId, m.primitives)
    else (m.primitives.size, m.primitives.push word)
  { m with
    primitives
    state := { m.state with
      memory := (m.state.memory.set address (.native id)).set (address + 1) (.native trampolineId)
      dictionary := m.state.dictionary.define word.name address word.immediate word.hidden } }

/-- The machine with more words, the first of them as number `position`. -/
def installAll (trampolineId : Nat) : Nat → List Primitive → Machine → Machine
  | _, [], m => m
  | position, word :: words, m =>
    installAll trampolineId (position + 1) words
      (m.install trampolineId (primitiveAddress position) word)

/-- The machine at the moment when the variables are written and the trampoline is added. -/
def seeded (fresh : Machine) : Machine :=
  { fresh with
    state := Variable.all.foldl (fun s v => s.writeVariable v v.initial) fresh.state
    primitives := fresh.primitives.push trampoline }

/-- The machine at the moment when the words are installed. -/
def stocked (fresh : Machine) (words : List Primitive) : Machine :=
  installAll fresh.primitives.size 0 words fresh.seeded

end Machine

/-- Memory once the words are installed and the outer loop and two variables are written. -/
def Memory.finished (memory : Memory) (kernel : Kernel) (outerLoop latest : Address) : Memory :=
  ((((memory.set outerLoop (.reference kernel.interpret)).set (outerLoop + 1)
    (.reference kernel.branch)).set (outerLoop + 2) (.literal (.int (-2)))).set
    Variable.here.address (.literal (.int (outerLoop + 3)))).set
    Variable.latest.address (.literal (.int latest))

/-- What a machine remembers once some libraries are installed. -/
def Machine.kernelWith (fresh : Machine) (libraries : List (List Primitive)) : Kernel :=
  .ofLayout fresh.primitives.size (primitiveAddress (kernelWords ++ libraries.flatten).length)

/-- The machine once it is set up. -/
def Machine.settled (fresh : Machine) (libraries : List (List Primitive)) : Machine :=
  let words := kernelWords ++ libraries.flatten
  let kernel := fresh.kernelWith libraries
  let stocked := fresh.stocked words
  { stocked with
    state := { stocked.state with
      memory := stocked.state.memory.finished kernel kernel.outerLoop
        (primitiveAddress (words.length - 1))
      kernel? := some kernel
      ip := kernel.quit
      nip := 0
      depth := 0 } }

/-! ## What words do to a machine -/

/-- The entry of the word that is installed as number `position`. -/
def Primitive.entry (word : Primitive) (position : Nat) : Entry :=
  ⟨fold word.name, primitiveAddress position, word.immediate, word.hidden⟩

/-- The word has this place among the words, and none behind it has its name, the case of letters
aside. -/
structure IsLast (words : List Primitive) (position : Nat) (word : Primitive) : Prop where
  place : words[position]? = some word
  last : ∀ later other, position < later → words[later]? = some other →
    fold other.name ≠ fold word.name

section Installing

variable {words : List Primitive} {trampolineId position : Nat} {m : Machine}

/-- Every word but the trampoline is added to the table. -/
theorem primitives_installAll :
    (m.installAll trampolineId position words).primitives =
      m.primitives ++ (words.filter (·.name ≠ trampolineName)).toArray := by
  induction words generalizing position m with
  | nil => simp [Machine.installAll]
  | cons word words ih =>
      rw [Machine.installAll, ih, ← Array.toList_inj]
      by_cases hword : word.name = trampolineName <;> simp [Machine.install, hword]

/-- Installing some words and then others is installing them all. -/
theorem installAll_append {more : List Primitive} :
    m.installAll trampolineId position (words ++ more) =
      (m.installAll trampolineId position words).installAll trampolineId
        (position + words.length) more := by
  induction words generalizing position m with
  | nil => rfl
  | cons word words ih =>
      rw [List.cons_append, Machine.installAll, ih, Machine.installAll, List.length_cons,
        Nat.add_right_comm, Nat.add_assoc]

/-- Installing changes memory and dictionary only. -/
theorem state_installAll :
    (m.installAll trampolineId position words).state =
      { m.state with
        memory := (m.installAll trampolineId position words).state.memory
        dictionary := (m.installAll trampolineId position words).state.dictionary } := by
  induction words generalizing position m with
  | nil => rfl
  | cons word words ih =>
      rw [Machine.installAll]
      exact ih

/-- Installing writes to the cells of the words installed only. -/
theorem get_installAll_of_lt {address : Address}
    (hroom : position + words.length ≤ 2 ^ 61)
    (haddress : address.toInt < 4 + 2 * position) :
    (m.installAll trampolineId position words).state.memory.get address =
      m.state.memory.get address := by
  induction words generalizing position m with
  | nil => rfl
  | cons word words ih =>
      rw [List.length_cons] at hroom
      rw [Machine.installAll, ih (by omega) (by omega)]
      have hcell := toInt_primitiveAddress position (by omega)
      have hnext := toInt_primitiveAddress_add_one position (by omega)
      have hne : primitiveAddress position ≠ address := by
        rintro rfl
        omega
      have hne' : primitiveAddress position + 1 ≠ address := by
        rintro rfl
        omega
      simp only [Machine.install, Memory.get_set_of_ne _ hne, Memory.get_set_of_ne _ hne']

/-- A word's cell holds its number, and the cell after it the trampoline's. -/
theorem get_installAll (hwords : ∀ word ∈ words, word.name ≠ trampolineName)
    (hroom : position + words.length ≤ 2 ^ 61) {n : Nat} (hn : n < words.length) :
    (m.installAll trampolineId position words).state.memory.get
        (primitiveAddress (position + n)) = .native (m.primitives.size + n) ∧
      (m.installAll trampolineId position words).state.memory.get
        (primitiveAddress (position + n) + 1) = .native trampolineId := by
  induction words generalizing position m n with
  | nil => simp at hn
  | cons word words ih =>
      rw [List.length_cons] at hroom hn
      have hword : word.name ≠ trampolineName := hwords word (List.mem_cons_self ..)
      cases n with
      | zero =>
          -- the words after this one lie above its two cells
          have hcell := toInt_primitiveAddress position (by omega)
          have hnext := toInt_primitiveAddress_add_one position (by omega)
          have hne : primitiveAddress position + 1 ≠ primitiveAddress position := by
            intro heq
            rw [heq] at hnext
            omega
          simp only [Nat.add_zero]
          rw [Machine.installAll, get_installAll_of_lt (by omega) (by omega),
            get_installAll_of_lt (by omega) (by omega)]
          simp [Machine.install, hword, Memory.get_set_of_ne _ hne]
      | succ n =>
          have hroom' : position + 1 + words.length ≤ 2 ^ 61 := by omega
          have hrest := ih (m := m.install trampolineId (primitiveAddress position) word)
            (fun other hother => hwords other (List.mem_cons_of_mem _ hother)) hroom'
            (Nat.lt_of_succ_lt_succ hn)
          have hsize : (m.install trampolineId (primitiveAddress position) word).primitives.size =
              m.primitives.size + 1 := by
            simp [Machine.install, hword]
          rw [hsize] at hrest
          rw [Machine.installAll, show position + (n + 1) = position + 1 + n by omega,
            show m.primitives.size + (n + 1) = m.primitives.size + 1 + n by omega]
          exact hrest

/-- A name that no word has keeps its meaning. -/
theorem find?_installAll_of_ne {name : String}
    (hnone : ∀ word ∈ words, fold word.name ≠ fold name) :
    (m.installAll trampolineId position words).state.dictionary.find? name =
      m.state.dictionary.find? name := by
  induction words generalizing position m with
  | nil => rfl
  | cons word words ih =>
      rw [Machine.installAll, ih fun other hother => hnone other (List.mem_cons_of_mem _ hother)]
      exact (Dictionary.find?_define ..).trans (if_neg (hnone word List.mem_cons_self))

/-- A name means the last word that has it. -/
theorem find?_installAll {n : Nat} {word : Primitive} {name : String} (h : IsLast words n word)
    (hname : fold name = fold word.name) :
    (m.installAll trampolineId position words).state.dictionary.find? name =
      some (word.entry (position + n)) := by
  induction words generalizing position m n with
  | nil => cases h.place
  | cons first words ih =>
      rw [Machine.installAll]
      cases n with
      | zero =>
          obtain rfl : first = word := Option.some.inj h.place
          rw [find?_installAll_of_ne, Nat.add_zero]
          · exact (Dictionary.find?_define ..).trans (if_pos hname.symm)
          · intro other hother
            obtain ⟨later, hlater⟩ := List.mem_iff_getElem?.mp hother
            rw [hname]
            exact h.last (later + 1) other (Nat.succ_pos _) hlater
      | succ n =>
          have hlast : IsLast words n word :=
            ⟨h.place, fun later other hlt => h.last (later + 1) other (Nat.succ_lt_succ hlt)⟩
          rw [ih hlast, Nat.add_right_comm, Nat.add_assoc]

end Installing

/-! ## Numbers in the table -/

/-- Searching backwards finds an item if nothing behind it is accepted. -/
theorem find?_reverse_of_last {α : Type} {items : List α} {accept : α → Bool} {i : Nat} {item : α}
    (hitem : items[i]? = some item) (haccept : accept item)
    (hlast : ∀ j other, i < j → items[j]? = some other → accept other = false) :
    items.reverse.find? accept = some item := by
  obtain ⟨hi, hget⟩ := List.getElem?_eq_some_iff.mp hitem
  have hsplit : items = items.take i ++ item :: items.drop (i + 1) := by
    rw [← hget, ← List.drop_eq_getElem_cons hi, List.take_append_drop]
  rw [hsplit, List.reverse_append, List.reverse_cons, List.append_assoc, List.find?_append,
    Option.or_eq_some_iff]
  refine .inr ⟨List.find?_eq_none.mpr fun other hother => ?_, by simp [haccept]⟩
  obtain ⟨n, hn⟩ := List.mem_iff_getElem?.mp (List.mem_reverse.mp hother)
  rw [List.getElem?_drop] at hn
  simp [hlast _ other (by omega) hn]

/-- The last word with a name has its number, whatever was in the table before. -/
theorem IsLast.find?_table {words : List Primitive} {position : Nat} {word : Primitive}
    {name : String} (h : IsLast words position word) (before : PrimitiveTable)
    (hname : fold name = fold word.name) :
    PrimitiveTable.find? (before ++ words.toArray) name = some (before.size + position) := by
  obtain ⟨hposition, -⟩ := List.getElem?_eq_some_iff.mp h.place
  have hbehind : ∀ n, (before ++ words.toArray)[before.size + n]? = words[n]? := by
    intro n
    rw [Array.getElem?_append_right (Nat.le_add_right _ _), Nat.add_sub_cancel_left,
      List.getElem?_toArray]
  have hsize : (before ++ words.toArray).size = before.size + words.length := by simp
  rw [PrimitiveTable.find?, hsize]
  refine find?_reverse_of_last (List.getElem?_range (by omega)) ?_ ?_
  · rw [hbehind, h.place]
    simp [hname]
  · intro later id hlater hid
    obtain ⟨hlength, rfl⟩ := List.getElem?_eq_some_iff.mp hid
    rw [List.length_range] at hlength
    obtain ⟨n, rfl⟩ : ∃ n, later = before.size + n := ⟨later - before.size, by omega⟩
    have hn : n < words.length := by omega
    have hother := h.last n words[n] (by omega) (List.getElem?_eq_getElem hn)
    rw [List.getElem_range, hbehind, List.getElem?_eq_getElem hn]
    simpa [hname] using hother

/-! ## The kernel -/

theorem kernelWords_eq_cons : kernelWords = trampoline :: kernelWords.tail := rfl

/-- Only the first word is the trampoline. -/
theorem name_ne_trampolineName_of_mem_tail_kernelWords :
    ∀ word ∈ kernelWords.tail, word.name ≠ trampolineName := by
  decide +kernel

theorem filter_kernelWords :
    kernelWords.filter (·.name ≠ trampolineName) = kernelWords.tail := by
  have hall : kernelWords.tail.filter (·.name ≠ trampolineName) = kernelWords.tail :=
    List.filter_eq_self.mpr fun word hword =>
      decide_eq_true (name_ne_trampolineName_of_mem_tail_kernelWords word hword)
  rw [kernelWords_eq_cons, List.filter_cons_of_neg (by decide), List.tail_cons, hall]

/-- No two kernel words have one name. -/
theorem isLast_kernelWords {position : Nat} {word : Primitive}
    (h : kernelWords[position]? = some word) : IsLast kernelWords position word := by
  have hnodup : (kernelWords.map (fold ·.name)).Nodup := by decide +kernel
  refine ⟨h, fun later other hlater hother => ?_⟩
  obtain ⟨hposition, rfl⟩ := List.getElem?_eq_some_iff.mp h
  obtain ⟨hlength, rfl⟩ := List.getElem?_eq_some_iff.mp hother
  have hne := List.pairwise_iff_getElem.mp hnodup position later (by simpa) (by simpa) hlater
  simpa using hne.symm

section Stocking

variable {fresh : Machine} {more : List Primitive}

/-- The kernel follows the primitives that were there before, and the libraries follow it. -/
theorem primitives_stocked : (fresh.stocked (kernelWords ++ more)).primitives =
    fresh.primitives ++ (kernelWords ++ more.filter (·.name ≠ trampolineName)).toArray := by
  rw [Machine.stocked, primitives_installAll, List.filter_append, filter_kernelWords,
    Machine.seeded, ← Array.toList_inj, kernelWords_eq_cons]
  simp

theorem stocked_append {known : List Primitive} : fresh.stocked (known ++ more) =
    (fresh.stocked known).installAll fresh.primitives.size known.length more := by
  rw [Machine.stocked, installAll_append, Nat.zero_add]
  rfl

/-- The trampoline comes first and is in the table already, so the number of a word is that of its
place. -/
theorem get_stocked {known : List Primitive}
    (hknown : ∀ word ∈ known, word.name ≠ trampolineName)
    (hroom : (trampoline :: known ++ more).length ≤ 2 ^ 61) {n : Nat}
    (hn : n < (trampoline :: known).length) :
    (fresh.stocked (trampoline :: known ++ more)).state.memory.get (primitiveAddress n) =
        .native (fresh.primitives.size + n) ∧
      (fresh.stocked (trampoline :: known ++ more)).state.memory.get (primitiveAddress n + 1) =
        .native fresh.primitives.size := by
  rw [List.length_append] at hroom
  have hcell := toInt_primitiveAddress n (by omega)
  have hnext := toInt_primitiveAddress_add_one n (by omega)
  -- what is installed later lies above
  rw [stocked_append, get_installAll_of_lt (by omega) (by omega),
    get_installAll_of_lt (by omega) (by omega), Machine.stocked, Machine.installAll]
  rw [List.length_cons] at hroom hn
  cases n with
  | zero =>
      have hne : primitiveAddress 0 + 1 ≠ primitiveAddress 0 := by decide
      rw [get_installAll_of_lt (by omega) (by omega), get_installAll_of_lt (by omega) (by omega)]
      simp [Machine.install, trampoline, Memory.get_set_of_ne _ hne]
  | succ n =>
      have hsize : (fresh.seeded.install fresh.primitives.size (primitiveAddress 0)
          trampoline).primitives.size = fresh.primitives.size + 1 := by
        simp [Machine.install, trampoline, Machine.seeded]
      have hroom' : 1 + known.length ≤ 2 ^ 61 := by omega
      obtain ⟨hcell, hnext⟩ := get_installAll hknown hroom' (Nat.lt_of_succ_lt_succ hn)
      rw [hsize, Nat.add_assoc] at hcell
      rw [Nat.add_comm n 1]
      exact ⟨hcell, hnext⟩

end Stocking

/-! ## Running -/

namespace Installation

variable {fresh m m' : Machine} {words : List Primitive} {trampolineId position : Nat}

theorem bind_eq_of_eq {α β : Type} {x : Installation α} {f : α → Installation β} {a : α}
    (h : x m = .ok a m') : (x >>= f) m = f a m' := by
  simp only [bind, EStateM.bind, h]

/-- What follows a step is reached through it. -/
theorem exists_of_bind {α β : Type} {x : Installation α} {f : α → Installation β} {b : β}
    (h : (x >>= f) m = .ok b m') : ∃ a between, x m = .ok a between ∧ f a between = .ok b m' := by
  simp only [bind, EStateM.bind] at h
  split at h
  · exact ⟨_, _, ‹_›, h⟩
  · cases h

theorem register_eq (word : Primitive) (m : Machine) : register word m =
    if m.primitives.size < PrimitiveTable.capacity then
      .ok m.primitives.size { m with primitives := m.primitives.push word }
    else .error (.internal "primitive table overflow") m := by
  have hget : (get : Installation Machine) m = .ok m m := rfl
  rw [register, bind_eq_of_eq hget, PrimitiveTable.register]
  by_cases hroom : m.primitives.size < PrimitiveTable.capacity
  · rw [if_pos hroom, if_pos hroom]
    rfl
  · rw [if_neg hroom, if_neg hroom]
    rfl

theorem install_eq (address : Address) (word : Primitive) :
    install trampolineId address word m =
      if word.name = trampolineName ∨ m.primitives.size < PrimitiveTable.capacity then
        .ok () (m.install trampolineId address word)
      else .error (.internal "primitive table overflow") m := by
  by_cases hname : word.name = trampolineName
  · rw [if_pos (.inl hname), install, if_pos hname]
    simp only [Machine.install, hname]
    rfl
  · by_cases hroom : m.primitives.size < PrimitiveTable.capacity
    · have hregister := register_eq word m
      rw [if_pos hroom] at hregister
      rw [if_pos (.inr hroom), install, if_neg hname, bind_eq_of_eq hregister]
      simp only [Machine.install, hname]
      rfl
    · have hregister := register_eq word m
      rw [if_neg hroom] at hregister
      rw [if_neg (by simp [hname, hroom]), install, if_neg hname]
      simp only [bind, EStateM.bind, hregister]

/-- With room in the table, all words are installed. -/
theorem installAll_eq (hroom : m.primitives.size + words.length ≤ PrimitiveTable.capacity) :
    installAll trampolineId (primitiveAddress position) words m =
      .ok (primitiveAddress (position + words.length))
        (m.installAll trampolineId position words) := by
  induction words generalizing position m with
  | nil => rfl
  | cons word words ih =>
      rw [List.length_cons] at hroom
      have hinstall : install trampolineId (primitiveAddress position) word m = _ :=
        install_eq (primitiveAddress position) word
      rw [if_pos (.inr (by omega))] at hinstall
      have hsize : (m.install trampolineId (primitiveAddress position) word).primitives.size ≤
          m.primitives.size + 1 := by
        by_cases hname : word.name = trampolineName <;> simp [Machine.install, hname]
      rw [installAll, bind_eq_of_eq hinstall, primitiveAddress_add_two, ih (by omega),
        List.length_cons, Machine.installAll, Nat.add_right_comm, Nat.add_assoc]

/-- If words could be installed, that is what it came to. -/
theorem eq_of_installAll {next : Address}
    (h : installAll trampolineId (primitiveAddress position) words m = .ok next m') :
    next = primitiveAddress (position + words.length) ∧
      m' = m.installAll trampolineId position words := by
  induction words generalizing position m with
  | nil =>
      cases h
      exact ⟨rfl, rfl⟩
  | cons word words ih =>
      rw [installAll] at h
      obtain ⟨_, between, hinstall, hrest⟩ := exists_of_bind h
      rw [install_eq] at hinstall
      split at hinstall
      · cases hinstall
        rw [primitiveAddress_add_two] at hrest
        obtain ⟨hnext, hm⟩ := ih hrest
        rw [List.length_cons, Nat.add_comm words.length 1, ← Nat.add_assoc]
        exact ⟨hnext, hm⟩
      · cases hinstall

theorem primitiveOf_eq {name : String} {id : Nat}
    (h : PrimitiveTable.find? m.primitives name = some id) : primitiveOf name m = .ok id m := by
  have hget : (get : Installation Machine) m = .ok m m := rfl
  rw [primitiveOf, bind_eq_of_eq hget, h]
  rfl

theorem addressOf_eq {name : String} {entry : Entry}
    (h : m.state.dictionary.find? name = some entry) :
    addressOf name m = .ok entry.address m := by
  have hget : (get : Installation Machine) m = .ok m m := rfl
  rw [addressOf, bind_eq_of_eq hget, h]
  rfl

/-- The look-ups find the words of the kernel if the table ends with them and the dictionary has
them at their places. -/
theorem findKernel_eq {before : PrimitiveTable}
    (htable : m.primitives = before ++ kernelWords.toArray)
    (hplaces : ∀ (position : Nat) (word : Primitive), kernelWords[position]? = some word →
      m.state.dictionary.find? word.name = some (word.entry position)) :
    findKernel m = .ok (Kernel.ofLayout before.size 0) m := by
  have hnumber : ∀ name, (∃ word ∈ kernelWords, word.name = name) →
      primitiveOf name m = .ok (before.size + kernelPosition name) m := by
    intro name hname
    obtain ⟨word, hplace, rfl⟩ := exists_of_kernelPosition hname
    have hfound := (isLast_kernelWords hplace).find?_table before rfl
    rw [← htable] at hfound
    exact primitiveOf_eq hfound
  have haddress : ∀ name, (∃ word ∈ kernelWords, word.name = name) →
      addressOf name m = .ok (kernelAddress name) m := by
    intro name hname
    obtain ⟨word, hplace, rfl⟩ := exists_of_kernelPosition hname
    exact addressOf_eq (hplaces _ word hplace)
  have hnames : ∀ name ∈ ["DOCOL", "(DOVAR)", "(DOCON)", "LIT", "EXIT", "BRANCH", "0BRANCH", "TYPE",
      "INTERPRET", "QUIT"], ∃ word ∈ kernelWords, word.name = name := by
    decide +kernel
  rw [findKernel, bind_eq_of_eq (hnumber "DOCOL" (hnames _ (by simp))),
    bind_eq_of_eq (hnumber "(DOVAR)" (hnames _ (by simp))),
    bind_eq_of_eq (hnumber "(DOCON)" (hnames _ (by simp))),
    bind_eq_of_eq (haddress "LIT" (hnames _ (by simp))),
    bind_eq_of_eq (haddress "EXIT" (hnames _ (by simp))),
    bind_eq_of_eq (haddress "BRANCH" (hnames _ (by simp))),
    bind_eq_of_eq (haddress "0BRANCH" (hnames _ (by simp))),
    bind_eq_of_eq (haddress "TYPE" (hnames _ (by simp))),
    bind_eq_of_eq (haddress "INTERPRET" (hnames _ (by simp))),
    bind_eq_of_eq (haddress "QUIT" (hnames _ (by simp)))]
  rfl

/-- A machine that has a kernel is left as it is; else its variables are written and the trampoline
is added. -/
theorem begin_eq (fresh : Machine) : begin fresh =
    if fresh.state.kernel?.isSome then .error (.internal "machine is already bootstrapped") fresh
    else register trampoline { fresh with
      state := Variable.all.foldl (fun s v => s.writeVariable v v.initial) fresh.state } := by
  have hget : (get : Installation Machine) fresh = .ok fresh fresh := rfl
  have htrampoline : kernelWords.find? (·.name = trampolineName) = some trampoline := rfl
  rw [begin, bind_eq_of_eq hget, htrampoline]
  split <;> rfl

theorem begin_eq_ok (hkernel : fresh.state.kernel? = none)
    (hroom : fresh.primitives.size < PrimitiveTable.capacity) :
    begin fresh = .ok fresh.primitives.size fresh.seeded := by
  rw [begin_eq, if_neg (by simp [hkernel]), register_eq, if_pos hroom]
  rfl

theorem eq_of_begin {id : Nat} (h : begin fresh = .ok id m) :
    id = fresh.primitives.size ∧ m = fresh.seeded := by
  rw [begin_eq, register_eq] at h
  split at h
  · cases h
  · split at h
    · cases h
      exact ⟨rfl, rfl⟩
    · cases h

/-- Writing the outer loop and the variables settles the machine. -/
theorem finish_eq (fresh : Machine) (libraries : List (List Primitive)) :
    finish (Kernel.ofLayout fresh.primitives.size 0)
        (primitiveAddress (kernelWords ++ libraries.flatten).length)
        (fresh.stocked (kernelWords ++ libraries.flatten)) =
      .ok () (fresh.settled libraries) := by
  obtain ⟨n, hn⟩ : ∃ n, (kernelWords ++ libraries.flatten).length = n + 1 :=
    ⟨kernelWords.tail.length + libraries.flatten.length, by
      rw [List.length_append, kernelWords_eq_cons, List.length_cons, List.tail_cons]; omega⟩
  have hlatest : primitiveAddress (n + 1) - 2 = primitiveAddress n := by
    rw [← primitiveAddress_add_two]
    grind
  rw [Machine.settled, Machine.kernelWith, hn, Nat.add_sub_cancel, ← hlatest]
  generalize fresh.stocked (kernelWords ++ libraries.flatten) = m
  rfl

end Installation

section Bootstrapping

open Installation

variable {fresh m : Machine} {libraries : List (List Primitive)}

theorem past_eq : Variable.past = primitiveAddress 0 := rfl

/-- Once the kernel is installed, the look-ups find its words, whatever the machine had before. -/
theorem findKernel_stocked (fresh : Machine) : findKernel (fresh.stocked kernelWords) =
    .ok (Kernel.ofLayout fresh.primitives.size 0) (fresh.stocked kernelWords) := by
  refine findKernel_eq ?_ fun position word hplace => ?_
  · have hprimitives : (fresh.stocked (kernelWords ++ [])).primitives = _ := primitives_stocked
    simpa using hprimitives
  · rw [Machine.stocked, find?_installAll (isLast_kernelWords hplace) rfl, Nat.zero_add]

/-- Setting up a machine without a kernel succeeds if the table has room. -/
theorem bootstrap_eq_ok (hkernel : fresh.state.kernel? = none)
    (hroom : fresh.primitives.size + (kernelWords ++ libraries.flatten).length <
      PrimitiveTable.capacity) :
    fresh.bootstrap libraries = .ok () (fresh.settled libraries) := by
  rw [List.length_append] at hroom
  have hseeded : fresh.seeded.primitives.size = fresh.primitives.size + 1 := Array.size_push ..
  have hstocked : (fresh.stocked kernelWords).primitives.size =
      fresh.primitives.size + kernelWords.length := by
    have hprimitives : (fresh.stocked (kernelWords ++ [])).primitives = _ := primitives_stocked
    simpa using congrArg Array.size hprimitives
  have hkernelWords : installAll fresh.primitives.size Variable.past kernelWords fresh.seeded =
      .ok (primitiveAddress (0 + kernelWords.length)) (fresh.stocked kernelWords) := by
    rw [past_eq]
    exact installAll_eq (by omega)
  have hlibraries : installAll fresh.primitives.size (primitiveAddress (0 + kernelWords.length))
      libraries.flatten (fresh.stocked kernelWords) =
        .ok (primitiveAddress (0 + kernelWords.length + libraries.flatten.length))
          (fresh.stocked (kernelWords ++ libraries.flatten)) := by
    rw [stocked_append, Nat.zero_add]
    exact installAll_eq (by omega)
  rw [Nat.zero_add kernelWords.length, ← List.length_append] at hlibraries
  rw [Machine.bootstrap, setUp, bind_eq_of_eq (begin_eq_ok hkernel (by omega)),
    bind_eq_of_eq hkernelWords, bind_eq_of_eq (findKernel_stocked fresh), Nat.zero_add,
    bind_eq_of_eq hlibraries, finish_eq]

/-- A machine that was set up is settled. -/
theorem eq_settled_of_bootstrap (h : fresh.bootstrap libraries = .ok () m) :
    m = fresh.settled libraries := by
  rw [Machine.bootstrap, setUp] at h
  obtain ⟨_, seeded, hbegin, h⟩ := exists_of_bind h
  obtain ⟨rfl, rfl⟩ := eq_of_begin hbegin
  obtain ⟨next, stocked, hkernelWords, h⟩ := exists_of_bind h
  obtain ⟨rfl, hstocked⟩ := eq_of_installAll (past_eq ▸ hkernelWords)
  obtain rfl : stocked = fresh.stocked kernelWords := hstocked
  rw [bind_eq_of_eq (findKernel_stocked fresh)] at h
  obtain ⟨outerLoop, full, hlibraries, h⟩ := exists_of_bind h
  obtain ⟨rfl, hfull⟩ := eq_of_installAll hlibraries
  rw [Nat.zero_add] at h hfull
  rw [← stocked_append] at hfull
  subst hfull
  rw [← List.length_append, finish_eq] at h
  cases h
  rfl

/-- A machine is set up only once, and trying to do so again changes nothing. -/
theorem bootstrap_eq_error (hkernel : m.state.kernel?.isSome) (more : List (List Primitive)) :
    m.bootstrap more = .error (.internal "machine is already bootstrapped") m := by
  have hbegin := begin_eq m
  rw [if_pos hkernel] at hbegin
  simp only [Machine.bootstrap, setUp, bind, EStateM.bind, hbegin]

end Bootstrapping

end ThreadedForth
