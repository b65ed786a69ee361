import ThreadedForth.Proofs.Dictionary.Log
import ThreadedForth.Proofs.Machine.Executing
import ThreadedForth.Proofs.Memory.Writing

/-!
# Memory that is only appended to

Cells are compiled at `HERE`, and names are entered there.  As long as nothing else writes to memory
and nothing moves `HERE` back, newer definitions lie above older ones, whatever programs do.
`State.IsOrdered` says so of a state, and `State.Appends` says how one such state becomes another.
What keeps the order is shown for the changes that words are made of; `!`, `+!` and `ALLOT` are the
only words that are able to break it, and they do not if they are used with care.
-/

namespace ThreadedForth

open Effect Words

/-! ## Order -/

/-- The next cell goes to an address above all that was written, and the entries of the dictionary,
newest first, lie below it in order. -/
structure State.IsOrdered (s : State) (here : Address) (log : List Entry) : Prop where
  next : s.memory.get Variable.here.address = .literal (.int here)
  past : Variable.past ≤ here
  written : ∀ address ∈ s.memory.cells, 0 ≤ address ∧ address < here
  logged : s.dictionary.IsLoggedAs log
  below : ∀ entry ∈ log, entry.address < here
  decreasing : log.Pairwise fun newer older => older.address < newer.address

/-- One state becomes another by appending cells from the old `HERE` to the new one.  Cells below
stay the same, but for three variables of the compiler and some that are `excepted`.  Entries keep
their order, `new` ones come in front, and some may be gone. -/
structure State.Appends (excepted : Address → Prop) (new : List (String × Address)) (s : State)
    (here : Address) (log : List Entry) (t : State) (here' : Address) (log' : List Entry) :
    Prop where
  ordered : t.IsOrdered here' log'
  le : here ≤ here'
  same : ∀ address, ¬ (here ≤ address ∧ address < here') → address ≠ Variable.here.address →
    address ≠ Variable.state.address → address ≠ Variable.latest.address → ¬ excepted address →
    t.memory.cells[address]? = s.memory.cells[address]?
  fresh : ∀ key ∈ new, here ≤ key.2
  keys : (log'.map Entry.key).Sublist (new ++ log.map Entry.key)

section Appending

variable {able : Ability → Prop} {excepted : Address → Prop} {new new' : List (String × Address)}
variable {s t u : State} {here here' here'' : Address} {log log' log'' : List Entry}

theorem State.IsOrdered.here_eq (hs : s.IsOrdered here log) : s.here = .ok here :=
  here_of_get hs.next

/-- Order is a matter of memory and dictionary. -/
theorem State.IsOrdered.congr (hs : s.IsOrdered here log) (hmemory : t.memory = s.memory)
    (hdictionary : t.dictionary = s.dictionary) : t.IsOrdered here log := by
  refine ⟨?_, hs.past, ?_, ?_, hs.below, hs.decreasing⟩
  · rw [hmemory]
    exact hs.next
  · rw [hmemory]
    exact hs.written
  · rw [hdictionary]
    exact hs.logged

/-- Nothing is appended if memory and dictionary stay. -/
theorem State.appends_of_eq (hs : s.IsOrdered here log) (hmemory : t.memory = s.memory)
    (hdictionary : t.dictionary = s.dictionary) : s.Appends excepted [] here log t here log :=
  ⟨hs.congr hmemory hdictionary, Int64.le_refl _, fun _ _ _ _ _ _ => by rw [hmemory],
    (fun _ h => by cases h), .refl _⟩

theorem State.Appends.congr (h : s.Appends excepted new here log t here' log')
    (hmemory : u.memory = t.memory) (hdictionary : u.dictionary = t.dictionary) :
    s.Appends excepted new here log u here' log' := by
  refine ⟨h.ordered.congr hmemory hdictionary, h.le, ?_, h.fresh, h.keys⟩
  rw [hmemory]
  exact h.same

theorem State.Appends.mono {excepted' : Address → Prop}
    (h : s.Appends excepted new here log t here' log')
    (hmore : ∀ address, excepted address → excepted' address) :
    s.Appends excepted' new here log t here' log' :=
  ⟨h.ordered, h.le, fun address houtside hhere hstate hlatest hexcepted =>
    h.same address houtside hhere hstate hlatest fun hless => hexcepted (hmore address hless),
    h.fresh, h.keys⟩

theorem State.Appends.trans (h : s.Appends excepted new here log t here' log')
    (h' : t.Appends excepted new' here' log' u here'' log'') :
    s.Appends excepted (new' ++ new) here log u here'' log'' := by
  refine ⟨h'.ordered, Int64.le_trans h.le h'.le, fun address houtside hhere hstate hlatest hexcepted
    => ?_, fun key hkey => ?_, ?_⟩
  · have hle := h.le
    have hle' := h'.le
    simp only [Int64.le_iff_toInt_le, Int64.lt_iff_toInt_lt] at houtside hle hle'
    rw [h'.same address ?_ hhere hstate hlatest hexcepted,
      h.same address ?_ hhere hstate hlatest hexcepted]
    · simp only [Int64.le_iff_toInt_le, Int64.lt_iff_toInt_lt]
      omega
    · simp only [Int64.le_iff_toInt_le, Int64.lt_iff_toInt_lt]
      omega
  · rcases List.mem_append.mp hkey with hkey | hkey
    · exact Int64.le_trans h.le (h'.fresh key hkey)
    · exact h.fresh key hkey
  · rw [List.append_assoc]
    exact h'.keys.trans (h.keys.append_left new')

/-- Where the entries are is a matter of their keys. -/
theorem below_of_keys (hkeys : (log'.map Entry.key).Sublist (log.map Entry.key))
    (h : ∀ entry ∈ log, entry.address < here) : ∀ entry ∈ log', entry.address < here := by
  intro entry hentry
  obtain ⟨old, hold, hkey⟩ := List.mem_map.mp (hkeys.subset (List.mem_map_of_mem hentry))
  rw [← show old.address = entry.address from congrArg Prod.snd hkey]
  exact h old hold

theorem decreasing_of_keys (hkeys : (log'.map Entry.key).Sublist (log.map Entry.key))
    (h : log.Pairwise fun newer older => older.address < newer.address) :
    log'.Pairwise fun newer older => older.address < newer.address := by
  have hmap : (log.map Entry.key).Pairwise fun newer older => older.2 < newer.2 :=
    List.pairwise_map.mpr h
  exact List.pairwise_map.mp (hmap.sublist hkeys)

/-- The dictionary may lose entries, and entries may change but for their keys. -/
theorem State.IsOrdered.edit (hs : s.IsOrdered here log) {dictionary : Dictionary}
    (hlogged : dictionary.IsLoggedAs log')
    (hkeys : (log'.map Entry.key).Sublist (log.map Entry.key)) :
    s.Appends excepted [] here log { s with dictionary } here log' :=
  ⟨⟨hs.next, hs.past, hs.written, hlogged, below_of_keys hkeys hs.below,
    decreasing_of_keys hkeys hs.decreasing⟩, Int64.le_refl _, fun _ _ _ _ _ _ => rfl,
    (fun _ h => by cases h), hkeys⟩

/-- A cell below `HERE` may be written if it is an exception. -/
theorem State.IsOrdered.write (hs : s.IsOrdered here log) {address : Address}
    (hpositive : 1 ≤ address) (hbelow : address < here) (cell : Cell)
    (hexcepted : address = Variable.state.address ∨ address = Variable.latest.address ∨
      excepted address) :
    s.Appends excepted [] here log { s with memory := s.memory.set address cell } here log := by
  have hne : address ≠ Variable.here.address := by
    rintro rfl
    exact absurd hpositive (by decide)
  refine ⟨⟨?_, hs.past, fun other hother => ?_, hs.logged, hs.below, hs.decreasing⟩,
    Int64.le_refl _, fun other _ _ hstate hlatest hother => ?_, (fun _ h => by cases h), .refl _⟩
  · exact (Memory.get_set_of_ne _ hne _).trans hs.next
  · rcases (Memory.mem_set_iff ..).mp hother with rfl | hold
    · refine ⟨?_, hbelow⟩
      simp only [Int64.le_iff_toInt_le] at hpositive ⊢
      exact Int.le_trans (by decide) hpositive
    · exact hs.written other hold
  · refine Memory.getElem?_set_of_ne _ ?_ _
    rintro rfl
    rcases hexcepted with h | h | h
    · exact hstate h
    · exact hlatest h
    · exact hother h

theorem State.IsOrdered.compile (hs : s.IsOrdered here log) (hmax : here ≠ Int64.maxValue)
    (cell : Cell) :
    s.Appends excepted [] here log { s with memory := s.memory.compiled here cell } (here + 1)
      log := by
  have hlt : here < here + 1 := Address.lt_add_one hmax
  have hle : here ≤ here + 1 := Int64.le_of_lt hlt
  refine ⟨⟨Memory.get_compiled_here .., Int64.le_trans hs.past hle, fun address haddress => ?_,
    hs.logged, fun entry hentry => Int64.lt_trans (hs.below entry hentry) hlt, hs.decreasing⟩, hle,
    fun address houtside hhere _ _ _ => ?_, (fun _ h => by cases h), .refl _⟩
  · rw [Memory.compiled, Memory.mem_set_iff, Memory.mem_set_iff] at haddress
    rcases haddress with rfl | rfl | hold
    · exact ⟨Int64.le_refl _, Int64.lt_of_lt_of_le (by decide) (Int64.le_trans hs.past hle)⟩
    · exact ⟨Int64.le_trans (by decide) hs.past, hlt⟩
    · exact ⟨(hs.written address hold).1, Int64.lt_trans (hs.written address hold).2 hlt⟩
  · have hne : here ≠ address := by
      rintro rfl
      exact houtside ⟨Int64.le_refl _, hlt⟩
    change ((s.memory.compiled here cell).cells)[address]? = _
    rw [Memory.compiled, Memory.getElem?_set_of_ne _ (Ne.symm hhere),
      Memory.getElem?_set_of_ne _ hne]

/-! ## What is not able to break the order -/

/-- At the end of the address space `HERE` stays where it is. -/
theorem State.Changes.here_of_max (h : s.Changes able t) (hretreat : ¬ able .retreat)
    (hpatch : ¬ able .patch) (hs : s.here = .ok Int64.maxValue) :
    t.here = .ok Int64.maxValue := by
  rw [← hs]
  cases h with
  | elsewhere hmemory => exact State.here_congr (by rw [hmemory])
  | link _ hmemory => exact State.here_congr (by rw [hmemory])
  | halt => rfl
  | mode mode => exact State.here_writeVariable (by decide) _
  | compile hhere hmax _ =>
      rw [hs] at hhere
      cases hhere
      exact absurd rfl hmax
  | name _ hhere =>
      rw [hs] at hhere
      cases hhere
      rw [State.headed, if_pos rfl]
      exact State.here_writeVariable (by decide) _
  | flag => rfl
  | forget => rfl
  | patch h => exact absurd h hpatch
  | retreat h => exact absurd h hretreat

/-- A change that is no privilege appends to what there is. -/
theorem State.Changes.appends (h : s.Changes able t) (hretreat : ¬ able .retreat)
    (hpatch : ¬ able .patch) (hdefine : ¬ able .define) (hs : s.IsOrdered here log) :
    ∃ here' log', s.Appends excepted [] here log t here' log' := by
  cases h with
  | elsewhere hmemory hdictionary => exact ⟨here, log, appends_of_eq hs hmemory hdictionary⟩
  | link _ hmemory hdictionary => exact ⟨here, log, appends_of_eq hs hmemory hdictionary⟩
  | halt => exact ⟨here, log, appends_of_eq hs rfl rfl⟩
  | mode mode =>
      exact ⟨here, log, hs.write (by decide)
        (Int64.lt_of_lt_of_le (by decide) hs.past) _ (.inl rfl)⟩
  | compile hhere hmax cell =>
      rw [hs.here_eq] at hhere
      cases hhere
      exact ⟨_, log, hs.compile hmax cell⟩
  | name h => exact absurd h hdefine
  | flag hchange hmodify =>
      obtain ⟨log', hlogged, hkeys⟩ := hs.logged.modify hchange hmodify
      exact ⟨here, log', hs.edit hlogged (by rw [hkeys])⟩
  | forget hremove =>
      exact ⟨here, _, hs.edit (hs.logged.remove hremove) (List.filter_sublist.map _)⟩
  | patch h => exact absurd h hpatch
  | retreat h => exact absurd h hretreat

theorem State.Becomes.here_of_max (h : s.Becomes able t) (hretreat : ¬ able .retreat)
    (hpatch : ¬ able .patch) (hs : s.here = .ok Int64.maxValue) :
    t.here = .ok Int64.maxValue := by
  induction h with
  | refl => exact hs
  | tail _ hchange ih => exact hchange.here_of_max hretreat hpatch ih

theorem State.Becomes.appends (h : s.Becomes able t) (hretreat : ¬ able .retreat)
    (hpatch : ¬ able .patch) (hdefine : ¬ able .define) (hs : s.IsOrdered here log) :
    ∃ here' log', s.Appends excepted [] here log t here' log' := by
  induction h with
  | refl => exact ⟨here, log, appends_of_eq hs rfl rfl⟩
  | tail _ hchange ih =>
      obtain ⟨here', log', hbefore⟩ := ih
      obtain ⟨here'', log'', hafter⟩ := hchange.appends hretreat hpatch hdefine hbefore.ordered
      exact ⟨here'', log'', hbefore.trans hafter⟩

/-- Entering a name appends its codeword and puts its entry in front. -/
theorem State.IsOrdered.headed (hs : s.IsOrdered here log) (hmax : here ≠ Int64.maxValue)
    (name : String) (hidden : Bool) (codeword : Cell) :
    s.Appends excepted [(Dictionary.fold name, here)] here log
      (s.headed here name hidden codeword) (here + 1)
      (⟨Dictionary.fold name, here, false, hidden⟩ :: log) := by
  have hlt : here < here + 1 := Address.lt_add_one hmax
  have hlatest : s.Appends excepted [] here log (s.writeVariable .latest here) here log :=
    hs.write (by decide) (Int64.lt_of_lt_of_le (by decide) hs.past) _ (.inr (.inl rfl))
  have hcompiled := hlatest.trans (hlatest.ordered.compile hmax codeword)
  rw [State.headed, if_neg hmax]
  refine ⟨⟨hcompiled.ordered.next, hcompiled.ordered.past, hcompiled.ordered.written,
    hs.logged.define .., fun entry hentry => ?_, List.pairwise_cons.mpr ⟨hs.below, hs.decreasing⟩⟩,
    hcompiled.le, hcompiled.same, fun key hkey => ?_, .refl _⟩
  · rcases List.mem_cons.mp hentry with rfl | hold
    · exact hlt
    · exact Int64.lt_trans (hs.below entry hold) hlt
  · rw [List.mem_singleton.mp hkey]
    exact Int64.le_refl _

/-! ## The words that are able to -/

theorem State.appends_of_namesOnce {x : Effect Unit} (hx : NamesOnce x)
    (hs : s.IsOrdered here log) (hmax : (after x s).here ≠ .ok Int64.maxValue) :
    ∃ new here' log', new.length ≤ 1 ∧ s.Appends excepted new here log (after x s) here' log' := by
  rcases hx s with hnone | ⟨t, middle, name, hidden, codeword, hbefore, hmiddle, hafter⟩
  · obtain ⟨here', log', happends⟩ := hnone.appends id id id hs
    exact ⟨[], here', log', Nat.zero_le 1, happends⟩
  · obtain ⟨here₁, log₁, hfirst⟩ : ∃ here₁ log₁, s.Appends excepted [] here log t here₁ log₁ :=
      hbefore.appends id id id hs
    obtain rfl : here₁ = middle := by
      rw [hfirst.ordered.here_eq] at hmiddle
      exact Except.ok.inj hmiddle
    -- without room for the codeword, `HERE` would be stuck at the end of the address space
    have hroom : here₁ ≠ Int64.maxValue := by
      rintro rfl
      refine hmax (hafter.here_of_max id id ?_)
      rw [State.headed, if_pos rfl, ← hmiddle]
      exact State.here_writeVariable (by decide) _
    have hname := hfirst.trans (hfirst.ordered.headed hroom name hidden codeword)
    obtain ⟨here', log', hlast⟩ := hafter.appends id id id hname.ordered
    exact ⟨[(Dictionary.fold name, here₁)], here', log', Nat.le_refl 1, hname.trans hlast⟩

end Appending

/-! ## Steps -/

namespace State

/-- The next step writes to an address that a program has chosen. -/
def Stores (s : State) (address : Address) : Prop :=
  ∃ word t, s.Executes standardTable word ∧ (word.name = "!" ∨ word.name = "+!") ∧
    word.effect s = .ok () t ∧
    s.topInt = .ok address

/-- The next step reserves a number of cells. -/
def Allots (s : State) (n : Int64) : Prop :=
  ∃ word t, s.Executes standardTable word ∧ word.name = "ALLOT" ∧ word.effect s = .ok () t ∧
    s.topInt = .ok n

/-- The next step writes below `HERE` only, where it writes to an address that a program has chosen,
and does not move `HERE` back. -/
structure IsTame (s : State) : Prop where
  stores : ∀ address, s.Stores address → 1 ≤ address ∧ ∀ here, s.here = .ok here → address < here
  allots : ∀ n, s.Allots n → 0 ≤ n

variable {s : State} {here : Address} {log : List Entry} {word : Primitive}

/-- Every word appends to what there is, if it is used with care and if there is room. -/
theorem IsOrdered.appends_word (hs : s.IsOrdered here log) (htame : s.IsTame)
    (hword : s.Executes standardTable word)
    (hroom : (after word.effect s).here ≠ .ok Int64.maxValue) :
    ∃ new here' log', new.length ≤ 1 ∧
      s.Appends s.Stores new here log (after word.effect s) here' log' := by
  by_cases hdefine : word.name ∈ Ability.define.words
  · exact appends_of_namesOnce (namesOnce_of_mem_vocabulary word hword.mem hdefine) hs hroom
  by_cases hpatch : word.name ∈ Ability.patch.words
  · have hname : word.name = "!" ∨ word.name = "+!" := by simpa [Ability.words] using hpatch
    rcases patches_of_mem_vocabulary word hword.mem hpatch s with
      ⟨parameters, hafter⟩ | ⟨address, v, parameters, htop, heffect⟩
    · rw [hafter]
      exact ⟨[], here, log, Nat.zero_le 1, appends_of_eq hs rfl rfl⟩
    · have hstores : s.Stores address := ⟨word, _, hword, hname, heffect, htop⟩
      obtain ⟨hpositive, hbelow⟩ := htame.stores address hstores
      have hwrite := hs.write hpositive (hbelow here hs.here_eq) (.literal v)
        (.inr (.inr hstores))
      rw [after_ok heffect]
      exact ⟨[], here, log, Nat.zero_le 1, hwrite.congr rfl rfl⟩
  have hother : ∃ able, s.Becomes able (after word.effect s) ∧ ¬ able .retreat ∧ ¬ able .patch ∧
      ¬ able .define := by
    by_cases hretreat : word.name = "ALLOT"
    · have heffect := effect_of_name_allot word hword.mem hretreat
      rcases becomes_allot s with ⟨n, t, hallot, htop, hnegative⟩ | hbecomes
      · have hallots : s.Allots n := ⟨word, t, hword, hretreat, heffect ▸ hallot, htop⟩
        exact absurd (htame.allots n hallots) (Int64.not_le.mpr hnegative)
      · exact ⟨_, heffect ▸ hbecomes, id, id, id⟩
    · exact ⟨_, becomes_of_mem_vocabulary hword.mem s, by simpa [Ability.words] using hretreat,
        hpatch, hdefine⟩
  obtain ⟨able, hbecomes, hretreat, hpatch, hdefine⟩ := hother
  obtain ⟨here', log', happends⟩ := hbecomes.appends hretreat hpatch hdefine hs
  exact ⟨[], here', log', Nat.zero_le 1, happends⟩

/-! ## Moves -/

/-- A step of a run, after which a failure has been recovered from, or else a new source. -/
def move (table : PrimitiveTable) (kernel : Kernel) (report : Bool) (s : State) :
    Option Input → State
  | none => (Machine.advance table report kernel.quit s #[]).2.1
  | some input => { s with input, halt? := none }

section Moving

variable {table : PrimitiveTable} {kernel : Kernel} {report : Bool}

/-- A step does what the word does that it executes; apart from that, it changes `ip`, the input,
the output and the request to halt only. -/
theorem move_of_executes (kernel : Kernel) (report : Bool) (hword : s.Executes table word) :
    ∃ ip input output halt?,
      s.move table kernel report none = { after word.effect s with ip, input, output, halt? } := by
  have hstep := step_of_executes hword
  rcases heffect : word.effect s with ⟨⟨⟩, t⟩ | ⟨error, t⟩
  · obtain ⟨ip, hsettle⟩ := settle_ok word.control s.ip t
    rw [heffect, hsettle] at hstep
    rw [move, Machine.advance, hstep, after_ok heffect]
    exact ⟨ip, t.input, t.output, none, rfl⟩
  · rw [heffect] at hstep
    simp only [settle] at hstep
    obtain ⟨output, hrecover⟩ := exists_recover report kernel.quit
      (error.locate ({ t with ip := s.ip }.contextAt s.ip)) { t with ip := s.ip }
    rw [move, Machine.advance, hstep, after_error heffect]
    exact ⟨_, _, output, _, hrecover t.input⟩

/-- A step that executes no word changes nothing else but `nip`. -/
theorem move_none (table : PrimitiveTable) (kernel : Kernel) (report : Bool) (s : State) :
    (∃ word, s.Executes table word) ∨
    ∃ ip nip input output halt?,
      s.move table kernel report none = { s with ip, nip, input, output, halt? } := by
  rcases step_cases table s with hword | ⟨ip, nip, hstep⟩ | ⟨error, hstep⟩
  · exact .inl hword
  · refine .inr ⟨ip, nip, s.input, s.output, none, ?_⟩
    rw [move, Machine.advance, hstep]
  · obtain ⟨output, hrecover⟩ := exists_recover report kernel.quit error s
    refine .inr ⟨kernel.quit, s.nip, s.input.dropLine, output, s.halt?, ?_⟩
    rw [move, Machine.advance, hstep]
    exact hrecover s.input

/-- If what each word does has a property that a change of registers, streams and the request to
halt does not spoil, then every move has it. -/
theorem move_keeps {P : State → Prop} (input? : Option Input)
    (hword : ∀ id word, table.lookup id = .ok word → P (after word.effect s)) (hs : P s)
    (hP : ∀ t ip nip input output halt?, P t → P { t with ip, nip, input, output, halt? }) :
    P (s.move table kernel report input?) := by
  cases input? with
  | some input => exact hP s s.ip s.nip input s.output none hs
  | none =>
      rcases move_none table kernel report s with ⟨word, hexecutes⟩ |
        ⟨ip, nip, input, output, halt?, hmove⟩
      · obtain ⟨ip, input, output, halt?, hmove⟩ := move_of_executes kernel report hexecutes
        obtain ⟨id, -, hlookup⟩ := hexecutes
        rw [hmove]
        exact hP _ ip _ input output halt? (hword id word hlookup)
      · rw [hmove]
        exact hP s ip nip input output halt? hs

/-- Every move of the machine appends to what there is, and it excepts the target of the store that
it executes only. -/
theorem IsOrdered.appends_move (hs : s.IsOrdered here log) (input? : Option Input)
    (htame : input? = none → s.IsTame)
    (hroom : (s.move standardTable kernel report input?).here ≠ .ok Int64.maxValue) :
    ∃ new here' log', new.length ≤ 1 ∧
      s.Appends (fun address => input? = none ∧ s.Stores address) new here log
        (s.move standardTable kernel report input?) here' log' := by
  rcases input? with _ | input
  · rcases move_none standardTable kernel report s with
      ⟨word, hword⟩ | ⟨ip, nip, input, output, halt?, hmove⟩
    · obtain ⟨ip, input, output, halt?, hmove⟩ := move_of_executes kernel report hword
      have hmemory : (s.move standardTable kernel report none).memory =
          (after word.effect s).memory := by rw [hmove]
      have hdictionary : (s.move standardTable kernel report none).dictionary =
          (after word.effect s).dictionary := by rw [hmove]
      have hsame : (after word.effect s).here = (s.move standardTable kernel report none).here :=
        State.here_congr (by rw [hmemory])
      obtain ⟨new, here', log', hnew, happends⟩ :=
        hs.appends_word (htame rfl) hword (by rwa [hsame])
      exact ⟨new, here', log', hnew,
        (happends.congr hmemory hdictionary).mono fun _ hstores => ⟨rfl, hstores⟩⟩
    · exact ⟨[], here, log, Nat.zero_le 1, appends_of_eq hs (by rw [hmove]) (by rw [hmove])⟩
  · exact ⟨[], here, log, Nat.zero_le 1, appends_of_eq hs rfl rfl⟩

end Moving

end State

end ThreadedForth
