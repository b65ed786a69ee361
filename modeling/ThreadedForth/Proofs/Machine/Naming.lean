import ThreadedForth.Proofs.Machine.Linkage

/-!
# Where names are entered

The first name of an address stays there for good, even if the word is forgotten.  A name is only
ever entered at `HERE`, by a word that defines something.  So if `HERE` never moves back, then the
addresses of names go up, and no address inside a complete definition ever gets a name of its own.
-/

namespace ThreadedForth

open Effect Words

/-! ## Names in the dictionary -/

namespace Dictionary

variable {dictionary dictionary' : Dictionary} {name : String} {address other : Address}
variable {change : Entry → Entry}

theorem firstNames_modifyNamed?
    (h : dictionary.modifyNamed? name address change = some dictionary') :
    dictionary'.firstNames = dictionary.firstNames := by
  rw [modifyNamed?] at h
  obtain ⟨entries, -, h⟩ := Option.bind_eq_some_iff.mp h
  obtain ⟨changed, -, h⟩ := Option.bind_eq_some_iff.mp h
  cases h
  rfl

/-- A change of flags changes no names. -/
theorem nameAt?_modify? (h : dictionary.modify? address change = some dictionary') :
    dictionary'.nameAt? other = dictionary.nameAt? other := by
  have hnamed : ∀ name? : Option String,
      name?.bind (dictionary.modifyNamed? · address change) = some dictionary' →
      dictionary'.firstNames = dictionary.firstNames := by
    intro name? hchanged
    obtain ⟨name, -, hchanged⟩ := Option.bind_eq_some_iff.mp hchanged
    exact firstNames_modifyNamed? hchanged
  rw [modify?, Option.orElse_eq_orElse, Option.orElse_eq_or, Option.or_eq_some_iff] at h
  rw [nameAt?, nameAt?]
  rcases h with hnewest | ⟨-, hfirst⟩
  · rw [hnamed _ hnewest]
  · rw [hnamed _ hfirst]

/-- A name that is removed is still the first name of its addresses. -/
theorem nameAt?_remove? (h : dictionary.remove? name = some dictionary') :
    dictionary'.nameAt? other = dictionary.nameAt? other := by
  rw [remove?] at h
  split at h
  · cases h
    rfl
  · cases h

end Dictionary

/-! ## Names in the state -/

namespace State

variable {able : Ability → Prop} {s t : State} {address : Address} {name : String}

theorem nameAt?_headed (s : State) (here : Address) (name : String) (hidden : Bool)
    (codeword : Cell) (other : Address) :
    (s.headed here name hidden codeword).dictionary.nameAt? other =
      (s.dictionary.define name here false hidden).nameAt? other := by
  rw [headed]
  split <;> rfl

/-- The first name of an address stays. -/
theorem Changes.nameAt?_of_some (h : s.Changes able t)
    (hname : s.dictionary.nameAt? address = some name) :
    t.dictionary.nameAt? address = some name := by
  cases h with
  | elsewhere _ hdictionary => rw [hdictionary, hname]
  | link _ _ hdictionary => rw [hdictionary, hname]
  | name _ _ new hidden codeword =>
      rw [nameAt?_headed, Dictionary.nameAt?_define, if_neg, hname]
      rintro ⟨rfl, hnone⟩
      rw [hname] at hnone
      cases hnone
  | flag _ hmodify => exact (Dictionary.nameAt?_modify? hmodify).trans hname
  | forget hremove => exact (Dictionary.nameAt?_remove? hremove).trans hname
  | halt | mode | compile | patch | retreat => exact hname

/-- Without the ability to enter a name, there are no new ones. -/
theorem Changes.nameAt?_eq (h : s.Changes able t) (hdefine : ¬ able .define) (address : Address) :
    t.dictionary.nameAt? address = s.dictionary.nameAt? address := by
  cases h with
  | elsewhere _ hdictionary => rw [hdictionary]
  | link _ _ hdictionary => rw [hdictionary]
  | name h => exact absurd h hdefine
  | flag _ hmodify => exact Dictionary.nameAt?_modify? hmodify
  | forget hremove => exact Dictionary.nameAt?_remove? hremove
  | halt | mode | compile | patch | retreat => rfl

theorem Becomes.nameAt?_of_some (h : s.Becomes able t)
    (hname : s.dictionary.nameAt? address = some name) :
    t.dictionary.nameAt? address = some name := by
  induction h with
  | refl => exact hname
  | tail _ hchange ih => exact hchange.nameAt?_of_some ih

theorem Becomes.nameAt?_eq (h : s.Becomes able t) (hdefine : ¬ able .define) (address : Address) :
    t.dictionary.nameAt? address = s.dictionary.nameAt? address := by
  induction h with
  | refl => rfl
  | tail _ hchange ih => rw [hchange.nameAt?_eq hdefine, ih]

end State

/-! ## Words enter names at `HERE` -/

namespace Effect

variable {α β : Type} {x : Effect α} {f : α → Effect β}

/-- The effect enters a name at `HERE`, if it enters any. -/
def NamesHere (x : Effect α) : Prop :=
  ∀ s address, (after x s).dictionary.nameAt? address ≠ s.dictionary.nameAt? address →
    s.here = .ok address

/-- The effect changes neither memory nor the dictionary. -/
def OnlyReads (x : Effect α) : Prop :=
  ∀ s, (after x s).memory = s.memory ∧ (after x s).dictionary = s.dictionary

theorem OnlyReads.examine (reading : State → Except Cause α) : OnlyReads (examine reading) := by
  intro s
  rcases h : reading s with cause | a
  · rw [after_error (examine_error h)]
    exact ⟨rfl, rfl⟩
  · rw [after_ok (examine_ok h)]
    exact ⟨rfl, rfl⟩

theorem OnlyReads.readToken : OnlyReads readToken := by
  intro s
  rw [readToken_eq, after, expected]
  rcases s.input.readToken with ⟨_ | token, input⟩ <;> exact ⟨rfl, rfl⟩

theorem OnlyReads.pop : OnlyReads pop := by
  intro s
  rcases h : s.parameters.pop with cause | ⟨v, parameters⟩
  · rw [after_error (by rw [pop_apply, h])]
    exact ⟨rfl, rfl⟩
  · rw [after_ok (by rw [pop_apply, h])]
    exact ⟨rfl, rfl⟩

theorem OnlyReads.discard (hx : OnlyReads x) : OnlyReads (discard x) := by
  intro s
  have hsame := hx s
  rcases h : x s with ⟨a, t⟩ | ⟨error, t⟩
  · rw [after_ok h] at hsame
    rw [after_ok (discard_ok h)]
    exact hsame
  · rw [after_error h] at hsame
    rw [after_error (discard_error h)]
    exact hsame

/-- A name stays, whatever comes next. -/
theorem nameAt?_after_bind {s : State} {address : Address} {name : String}
    (hf : ∀ a, MadeOf (fun _ => False) (f a))
    (hname : (after x s).dictionary.nameAt? address = some name) :
    (after (x >>= f) s).dictionary.nameAt? address = some name := by
  rcases h : x s with ⟨a, t⟩ | ⟨error, t⟩
  · rw [after_ok h] at hname
    rw [after_bind_ok h]
    exact ((hf a).becomes t).nameAt?_of_some hname
  · rw [after_error h] at hname
    rw [after_bind_error h]
    exact hname

/-- Something may be read before the name is entered. -/
theorem NamesHere.after_reading (hx : OnlyReads x) (hf : ∀ a, NamesHere (f a)) :
    NamesHere (x >>= f) := by
  intro s address hnew
  obtain ⟨hmemory, hdictionary⟩ := hx s
  rcases h : x s with ⟨a, t⟩ | ⟨error, t⟩
  · rw [after_ok h] at hmemory hdictionary
    rw [after_bind_ok h, ← hdictionary] at hnew
    rw [← State.here_congr (s := s) (by rw [hmemory])]
    exact hf a t address hnew
  · rw [after_error h] at hdictionary
    rw [after_bind_error h, hdictionary] at hnew
    exact absurd rfl hnew

/-- What comes after the name enters none. -/
theorem NamesHere.bind (hx : NamesHere x) (hf : ∀ a, MadeOf (fun _ => False) (f a)) :
    NamesHere (x >>= f) := by
  intro s address hnew
  have hbefore := hx s address
  rcases h : x s with ⟨a, t⟩ | ⟨error, t⟩
  · rw [after_ok h] at hbefore
    rw [after_bind_ok h, ((hf a).becomes t).nameAt?_eq id] at hnew
    exact hbefore hnew
  · rw [after_error h] at hbefore
    rw [after_bind_error h] at hnew
    exact hbefore hnew

theorem NamesHere.header (name : String) (hidden : Bool) (codeword : Cell) :
    NamesHere (Words.header name hidden codeword) := by
  intro s address hnew
  rcases hhere : s.here with cause | here
  · rw [after_header_error hhere] at hnew
    exact absurd rfl hnew
  · rw [after_header hhere, State.nameAt?_headed, Dictionary.nameAt?_define] at hnew
    by_cases haddress : here = address
    · rw [haddress]
    · rw [if_neg fun h => haddress h.1] at hnew
      exact absurd rfl hnew

end Effect

namespace Words

theorem namesHere_header_bind {β : Type} {name : String} {hidden : Bool} {codeword : Cell}
    {f : Unit → Effect β} (hf : ∀ u, MadeOf (fun _ => False) (f u)) :
    NamesHere (do nameHere name hidden; discard (compile codeword) >>= f) := by
  rw [← bind_assoc]
  exact .bind (.header name hidden codeword) hf

theorem namesHere_colon : NamesHere colon :=
  .after_reading (.examine _) fun _ => .after_reading .readToken fun _ =>
    namesHere_header_bind fun _ => .setMode _

theorem namesHere_create : NamesHere create :=
  .after_reading (.examine _) fun _ => .after_reading .readToken fun _ => .header _ _ _

theorem namesHere_variableWord : NamesHere variableWord :=
  namesHere_create.bind fun _ => .discard (.compile _)

theorem namesHere_constant : NamesHere constant :=
  .after_reading (.examine _) fun _ => .after_reading (.discard (.examine _)) fun _ =>
    .after_reading .readToken fun _ => .after_reading .pop fun _ =>
    namesHere_header_bind fun _ => .discard (.compile _)

end Words

variable {s : State} {word : Primitive} {address : Address} {name : String}

/-- Every word enters names at `HERE` only. -/
theorem namesHere_of_mem_vocabulary (hword : word ∈ vocabulary) : NamesHere word.effect := by
  by_cases hdefine : word.name ∈ Ability.define.words
  · simp only [Ability.words, List.mem_cons, List.not_mem_nil, or_false] at hdefine
    rcases hdefine with hname | hname | hname | hname
    · rw [eq_of_name hword (show vocabulary[19]? = some _ from rfl) hname]
      exact namesHere_colon
    · rw [eq_of_name hword (show vocabulary[26]? = some _ from rfl) hname]
      exact namesHere_create
    · rw [eq_of_name hword (show vocabulary[27]? = some _ from rfl) hname]
      exact namesHere_variableWord
    · rw [eq_of_name hword (show vocabulary[28]? = some _ from rfl) hname]
      exact namesHere_constant
  · intro s address hnew
    exact absurd ((becomes_of_mem_vocabulary hword s).nameAt?_eq hdefine address) hnew

/-- A word that keeps names: what the machine knows of its kernel stays, and so does the first name
of every address. -/
structure Primitive.KeepsNames (word : Primitive) : Prop where
  known : ∀ s, (after word.effect s).kernel? = s.kernel?
  named : ∀ s address name, s.dictionary.nameAt? address = some name →
    (after word.effect s).dictionary.nameAt? address = some name

theorem keepsNames_of_mem_vocabulary (hword : word ∈ vocabulary) : word.KeepsNames :=
  ⟨fun s => (becomes_of_mem_vocabulary hword s).kernel?_eq,
    fun s _ _ => (becomes_of_mem_vocabulary hword s).nameAt?_of_some⟩

/-! ## Machines that were set up -/

section Bootstrapping

variable {fresh m : Machine} {libraries : List (List Primitive)}

/-- Installing enters names at the places of the words. -/
theorem nameAt?_installAll {words : List Primitive} {trampolineId position : ℕ}
    (h : (m.installAll trampolineId position words).state.dictionary.nameAt? address ≠ none) :
    m.state.dictionary.nameAt? address ≠ none ∨
      ∃ n < words.length, address = primitiveAddress (position + n) := by
  induction words generalizing position m with
  | nil => exact .inl h
  | cons word words ih =>
      rw [Machine.installAll] at h
      rcases ih h with hfirst | ⟨n, hn, rfl⟩
      · change (m.state.dictionary.define word.name (primitiveAddress position) word.immediate
          word.hidden).nameAt? address ≠ none at hfirst
        rw [Dictionary.nameAt?_define] at hfirst
        by_cases haddress : primitiveAddress position = address
        · exact .inr ⟨0, Nat.zero_lt_succ _, haddress.symm⟩
        · rw [if_neg fun h => haddress h.1] at hfirst
          exact .inl hfirst
      · exact .inr ⟨n + 1, Nat.succ_lt_succ hn, by rw [Nat.add_assoc, Nat.add_comm 1 n]⟩

variable (hm : fresh.bootstrap libraries = .ok () m)
include hm

/-- All names lie below the outer loop if there were none before. -/
theorem lt_outerLoop_of_nameAt? (hfits : (kernelWords ++ libraries.flatten).length < 2 ^ 61)
    (hfresh : ∀ address, fresh.state.dictionary.nameAt? address = none)
    (hname : m.state.dictionary.nameAt? address ≠ none) :
    address.toInt < (fresh.outfit libraries hfits).outerLoop.toInt := by
  rw [state_of_bootstrap hm] at hname
  rcases nameAt?_installAll hname with hold | ⟨n, hn, rfl⟩
  · exact absurd (hfresh address) hold
  · rw [Machine.outfit, Nat.zero_add, toInt_primitiveAddress _ (by omega),
      toInt_primitiveAddress _ (by omega)]
    omega

theorem here_of_bootstrap (hfits : (kernelWords ++ libraries.flatten).length < 2 ^ 61) :
    m.state.here = .ok ((fresh.outfit libraries hfits).outerLoop + 3) :=
  here_of_get (next_of_bootstrap hm)

/-- If the words of the libraries keep names, then all words do. -/
theorem keepsNames_of_bootstrap
    (hwords : ∀ word ∈ fresh.primitives.toList ++ libraries.flatten,
      word ∈ vocabulary ∨ word.KeepsNames) :
    ∀ id word, m.primitives.lookup id = .ok word → word.KeepsNames :=
  forall_lookup_of_bootstrap hm (fun _ => keepsNames_of_mem_vocabulary) hwords

end Bootstrapping

/-! ## Names of definitions -/

/-- After its codeword is compiled, or if there is no room for it, the name is there. -/
theorem nameAt?_header (hhere : s.here = .ok address) (name : String) (hidden : Bool)
    (codeword : Cell) :
    (after (header name hidden codeword) s).dictionary.nameAt? address ≠ none := by
  rw [after_header hhere, State.nameAt?_headed, Dictionary.nameAt?_define]
  split
  · exact Option.some_ne_none _
  · rename_i hsome
    exact fun hnone => hsome ⟨rfl, hnone⟩

/-- If `:` has not failed, then there is a name where its definition begins. -/
theorem nameAt?_of_colon {t : State} (hcolon : colon s = .ok () t) (hhere : s.here = .ok address) :
    t.dictionary.nameAt? address ≠ none := by
  rw [colon] at hcolon
  rcases hkernel : s.kernel with cause | kernel
  · rw [bind_error (examine_error hkernel)] at hcolon
    cases hcolon
  rw [bind_ok (examine_ok hkernel)] at hcolon
  rcases hread : readToken s with ⟨token, u⟩ | ⟨error, u⟩
  · have hmemory := (OnlyReads.readToken s).1
    rw [after_ok hread] at hmemory
    have hu : u.here = .ok address := (State.here_congr (by rw [hmemory])).trans hhere
    have hnamed := nameAt?_header hu token true (.native kernel.docol)
    obtain ⟨name, hname⟩ := Option.ne_none_iff_exists'.mp hnamed
    -- what comes after the header keeps the name
    have hafter := after_ok hcolon
    rw [after_bind_ok hread, ← bind_assoc] at hafter
    have hlast := nameAt?_after_bind (fun _ => .setMode .compile) hname
    rw [header, hafter] at hlast
    rw [hlast]
    exact Option.some_ne_none name
  · rw [bind_error hread] at hcolon
    cases hcolon

/-! ## Any number of moves -/

section Moving

variable {table : PrimitiveTable} {kernel : Kernel} {report : Bool} {trace : ℕ → State}
variable {inputs : ℕ → Option Input} {n i j : ℕ}

/-- If no word takes away a first name, then no move does. -/
theorem State.nameAt?_move_of_some
    (hwords : ∀ id word, table.lookup id = .ok word → word.KeepsNames) (input? : Option Input)
    (hname : s.dictionary.nameAt? address = some name) :
    (s.move table kernel report input?).dictionary.nameAt? address = some name :=
  move_keeps (P := fun t => t.dictionary.nameAt? address = some name) input?
    (fun id word hword => (hwords id word hword).named s address name hname) hname
    fun _ _ _ _ _ _ h => h

/-- If all words enter names at `HERE` only, then so do moves. -/
theorem State.here_of_nameAt?_move
    (hhere : ∀ id word, table.lookup id = .ok word → NamesHere word.effect) (input? : Option Input)
    (hnew : (s.move table kernel report input?).dictionary.nameAt? address ≠
      s.dictionary.nameAt? address) : s.here = .ok address :=
  move_keeps (P := fun t => t.dictionary.nameAt? address ≠ s.dictionary.nameAt? address →
      s.here = .ok address) input?
    (fun id word hword => hhere id word hword s address) (absurd rfl)
    (fun _ _ _ _ _ _ h => h) hnew

variable (hmoves : ∀ i < n, trace (i + 1) = (trace i).move table kernel report (inputs i))
include hmoves

theorem nameAt?_of_moves (hwords : ∀ id word, table.lookup id = .ok word → word.KeepsNames)
    (hij : i ≤ j) (hj : j ≤ n) (hname : (trace i).dictionary.nameAt? address = some name) :
    (trace j).dictionary.nameAt? address = some name := by
  induction j, hij using Nat.le_induction with
  | base => exact hname
  | succ j _ ih =>
      rw [hmoves j hj]
      exact State.nameAt?_move_of_some hwords (inputs j) (ih (Nat.le_of_lt hj))

/-- Every name was there from the beginning, or else it was entered at `HERE` at some time. -/
theorem exists_entered
    (hhere : ∀ id word, table.lookup id = .ok word → NamesHere word.effect) (hj : j ≤ n)
    (hname : (trace j).dictionary.nameAt? address ≠ none) :
    (trace 0).dictionary.nameAt? address ≠ none ∨ ∃ i < j,
      (trace (i + 1)).dictionary.nameAt? address ≠ (trace i).dictionary.nameAt? address ∧
      (trace i).here = .ok address := by
  induction j with
  | zero => exact .inl hname
  | succ j ih =>
      by_cases hold :
          (trace (j + 1)).dictionary.nameAt? address = (trace j).dictionary.nameAt? address
      · rw [hold] at hname
        rcases ih (Nat.le_of_succ_le hj) hname with hfirst | ⟨i, hi, hentered⟩
        · exact .inl hfirst
        · exact .inr ⟨i, Nat.lt_succ_of_lt hi, hentered⟩
      · refine .inr ⟨j, Nat.lt_succ_self j, hold, ?_⟩
        rw [hmoves j hj] at hold
        exact State.here_of_nameAt?_move hhere (inputs j) hold

end Moving

/-! ## Complete definitions -/

/-- `HERE` never moves back, as far as it can be read. -/
def NeverRetreats (trace : ℕ → State) (n : ℕ) : Prop :=
  ∀ i j, i ≤ j → j ≤ n → ∀ here here', (trace i).here = .ok here → (trace j).here = .ok here' →
    here ≤ here'

/-- Between two moments a definition is made: `:` begins it, `;` ends it, and no name is entered
meanwhile. -/
structure IsMade (table : PrimitiveTable) (trace : ℕ → State) (inputs : ℕ → Option Input)
    (start past : Address) (begun ended : ℕ) : Prop where
  begins : inputs begun = none ∧ (trace begun).here = .ok start ∧ ∃ word t,
    (trace begun).Executes table word ∧ word.effect = colon ∧ colon (trace begun) = .ok () t
  later : begun < ended
  ends : inputs ended = none ∧ (trace (ended + 1)).here = .ok past ∧ ∃ word t,
    (trace ended).Executes table word ∧ word.effect = semicolon ∧
      semicolon (trace ended) = .ok () t
  alone : ∀ i, begun < i → i < ended → ∀ address,
    (trace (i + 1)).dictionary.nameAt? address = (trace i).dictionary.nameAt? address

section Making

variable {table : PrimitiveTable} {kernel : Kernel} {report : Bool} {trace : ℕ → State}
variable {inputs : ℕ → Option Input} {n i begun ended : ℕ} {start past : Address}
variable (hmoves : ∀ i < n, trace (i + 1) = (trace i).move table kernel report (inputs i))
variable (hmade : IsMade table trace inputs start past begun ended) (hended : ended < n)
include hmoves hmade hended

/-- A definition has a name from its beginning on. -/
theorem IsMade.nameAt?_start
    (hwords : ∀ id word, table.lookup id = .ok word → word.KeepsNames) (hi : begun < i)
    (hn : i ≤ n) : (trace i).dictionary.nameAt? start ≠ none := by
  obtain ⟨hinput, hhere, word, t, hword, heffect, hcolon⟩ := hmade.begins
  obtain ⟨ip, input, output, halt?, hmove⟩ := State.move_of_executes kernel report hword
  have hnamed := nameAt?_of_colon hcolon hhere
  obtain ⟨first, hfirst⟩ := Option.ne_none_iff_exists'.mp hnamed
  have hbegun : (trace (begun + 1)).dictionary.nameAt? start = some first := by
    rw [hmoves begun (by have := hmade.later; omega), hinput, hmove, heffect, after_ok hcolon]
    exact hfirst
  rw [nameAt?_of_moves hmoves hwords hi hn hbegun]
  exact Option.some_ne_none first

/-- The end of a definition enters no name. -/
theorem IsMade.nameAt?_ended (address : Address) :
    (trace (ended + 1)).dictionary.nameAt? address = (trace ended).dictionary.nameAt? address := by
  obtain ⟨hinput, -, word, -, hword, heffect, -⟩ := hmade.ends
  obtain ⟨ip, input, output, halt?, hmove⟩ := State.move_of_executes kernel report hword
  have hmade : MadeOf (fun _ => False) semicolon := madeOf_semicolon
  rw [hmoves ended hended, hinput, hmove, heffect]
  exact (hmade.becomes (trace ended)).nameAt?_eq id address

/-- No address inside a complete definition has a name of its own. -/
theorem IsMade.nameAt?_inside
    (hnames : ∀ id word, table.lookup id = .ok word → NamesHere word.effect)
    (hretreats : NeverRetreats trace n)
    (hfirst : ∀ address, (trace 0).dictionary.nameAt? address ≠ none → address < start)
    (hinside : start < address ∧ address < past) (hi : ended < i) (hn : i ≤ n) :
    (trace i).dictionary.nameAt? address = none := by
  obtain ⟨-, hstart, -⟩ := hmade.begins
  obtain ⟨-, hpast, -⟩ := hmade.ends
  have hlater := hmade.later
  by_contra hnamed
  rcases exists_entered hmoves hnames hn hnamed with hold | ⟨k, hk, hentered, hhere⟩
  · exact absurd (hfirst address hold) (Int64.not_lt.mpr (Int64.le_of_lt hinside.1))
  · -- a name is entered below the definition, where it begins, or above it
    rcases Nat.lt_trichotomy k ended with hbefore | rfl | hafter
    · rcases Nat.lt_or_ge begun k with hduring | hle
      · exact hentered (hmade.alone k hduring hbefore address)
      · have hbelow := hretreats k begun hle (by omega) _ _ hhere hstart
        exact absurd hinside.1 (Int64.not_lt.mpr hbelow)
    · exact hentered (hmade.nameAt?_ended hmoves hended address)
    · have habove := hretreats (ended + 1) k hafter (by omega) _ _ hpast hhere
      exact absurd hinside.2 (Int64.not_lt.mpr habove)

end Making

end ThreadedForth
