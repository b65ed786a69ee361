import ThreadedForth.Proofs.Dictionary.History
import ThreadedForth.Proofs.Effect.Laws
import ThreadedForth.Proofs.Machine.Standard

/-!
# Hiding a word

`HIDE` finds the newest entry of a name, and then changes the flag at the address of that entry.
The way back from the address leads through the name that was defined there last, or else through
the one that was defined there first.  If another name was defined at the address since, then the
way back leads to that name, and the named word stays as it is.
-/

namespace ThreadedForth

namespace Dictionary

variable {dictionary dictionary' : Dictionary} {name other : String} {address : Address}
variable {change : Entry → Entry} {entry : Entry} {older : List Entry}

/-- One of the entries of a folded name is at the address. -/
def HasAt (dictionary : Dictionary) (name : String) (address : Address) : Prop :=
  ∃ entry ∈ dictionary.chains.getD name [], entry.address = address

instance : Decidable (dictionary.HasAt name address) :=
  inferInstanceAs (Decidable (∃ entry ∈ dictionary.chains.getD name [], entry.address = address))

/-- The folded name among whose entries a change of flags at an address is made: the first one that
has an entry there of the name defined there last and the name defined there first. -/
def targetName? (dictionary : Dictionary) (address : Address) : Option String :=
  (dictionary.newestNames[address]?.toList ++ dictionary.firstNames[address]?.toList).find?
    (dictionary.HasAt · address)

/-! ## Changing the entries of one name -/

theorem modifyAt?_eq_none_iff {entries : List Entry} :
    modifyAt? address change entries = none ↔ ∀ entry ∈ entries, entry.address ≠ address := by
  induction entries with
  | nil => simp [modifyAt?]
  | cons entry entries ih =>
      rw [modifyAt?, List.forall_mem_cons]
      split
      · rename_i haddress
        simp [haddress]
      · rename_i haddress
        rw [Option.map_eq_none_iff, ih]
        exact (and_iff_right haddress).symm

theorem modifyNamed?_eq_none_iff :
    dictionary.modifyNamed? name address change = none ↔ ¬ dictionary.HasAt name address := by
  rw [modifyNamed?, HasAt, Std.TreeMap.getD_eq_getD_getElem?]
  rcases dictionary.chains[name]? with _ | entries
  · simp
  · have hnone : modifyAt? address change entries = none ↔ _ := modifyAt?_eq_none_iff
    rcases hchanged : modifyAt? address change entries with _ | changed
    · simpa [hchanged] using hnone
    · simpa [hchanged] using hnone

theorem HasAt.exists_modifyNamed? (h : dictionary.HasAt name address) (change : Entry → Entry) :
    ∃ changed, dictionary.modifyNamed? name address change = some changed :=
  Option.ne_none_iff_exists'.mp (mt modifyNamed?_eq_none_iff.mp (not_not_intro h))

/-- A change of flags is one among the entries of its target. -/
theorem modify?_eq_bind : dictionary.modify? address change =
    (dictionary.targetName? address).bind (dictionary.modifyNamed? · address change) := by
  have hfind : ∀ (name? : Option String) (names : List String),
      ((name?.toList ++ names).find? (dictionary.HasAt · address)).bind
          (dictionary.modifyNamed? · address change) =
        (name?.bind (dictionary.modifyNamed? · address change)).or
          ((names.find? (dictionary.HasAt · address)).bind
            (dictionary.modifyNamed? · address change)) := by
    intro name? names
    cases name? with
    | none => rfl
    | some name =>
        rw [Option.toList_some, List.singleton_append, List.find?_cons, Option.bind_some]
        by_cases hname : dictionary.HasAt name address
        · obtain ⟨changed, hchanged⟩ := hname.exists_modifyNamed? change
          simp only [hname, decide_true, Option.bind_some, hchanged, Option.some_or]
        · simp only [hname, decide_false, modifyNamed?_eq_none_iff.mpr hname, Option.none_or]
  have hlast := hfind dictionary.firstNames[address]? []
  rw [List.append_nil, List.find?_nil, Option.bind_none, Option.or_none] at hlast
  rw [targetName?, hfind, hlast, modify?, Option.orElse_eq_orElse, Option.orElse_eq_or]

/-- The entries of one name are changed, and those of the others stay. -/
theorem chain_of_modifyNamed?
    (h : dictionary.modifyNamed? name address change = some dictionary') :
    ∃ changed, modifyAt? address change (dictionary.chains.getD name []) = some changed ∧
      ∀ other, dictionary'.chain other =
        if name = fold other then changed else dictionary.chain other := by
  obtain ⟨entries, hentries, h⟩ := Option.bind_eq_some_iff.mp h
  obtain ⟨changed, hchanged, h⟩ := Option.bind_eq_some_iff.mp h
  cases h
  refine ⟨changed, ?_, fun other => ?_⟩
  · rw [Std.TreeMap.getD_eq_getD_getElem?, hentries, Option.getD_some, hchanged]
  · simp only [chain, Std.TreeMap.getD_insert, Std.LawfulEqCmp.compare_eq_iff_eq]

/-! ## Toggling the entry of a name -/

/-- The newest entry of a name is hidden or revealed, and nothing else is changed. -/
def Toggles (dictionary : Dictionary) (name : String) (toggled : Dictionary) : Prop :=
  (∃ entry older, dictionary.chain name = entry :: older ∧
    toggled.chain name = { entry with hidden := !entry.hidden } :: older) ∧
  ∀ other, fold other ≠ fold name → toggled.chain other = dictionary.chain other

/-- The newest entry of a name is toggled by way of its address exactly if the way back leads to
that name. -/
theorem toggles_iff (hfind : dictionary.find? name = some entry) :
    dictionary.Toggles name ((dictionary.toggleHidden? entry.address).getD dictionary) ↔
      dictionary.targetName? entry.address = some (fold name) := by
  obtain ⟨older, hchain⟩ := List.head?_eq_some_iff.mp hfind
  have hstays : ∀ toggled : Dictionary, toggled.chain name = dictionary.chain name →
      ¬ dictionary.Toggles name toggled := by
    rintro toggled hsame ⟨⟨entry', older', hentry, htoggled⟩, -⟩
    rw [hsame, hentry] at htoggled
    have hhidden := congrArg Entry.hidden (List.cons.inj htoggled).1
    simp at hhidden
  rw [toggleHidden?, modify?_eq_bind]
  rcases htarget : dictionary.targetName? entry.address with _ | target
  · exact iff_of_false (hstays _ rfl) (by simp)
  · have hhas : dictionary.HasAt target entry.address := by
      simpa using List.find?_some htarget
    obtain ⟨toggled, htoggled⟩ := hhas.exists_modifyNamed? fun entry : Entry =>
      { entry with hidden := !entry.hidden }
    rw [Option.bind_some, htoggled, Option.getD_some, Option.some.injEq]
    obtain ⟨changed, hchanged, hchains⟩ := chain_of_modifyNamed? htoggled
    constructor
    · intro htoggles
      refine Decidable.byContradiction fun hne => ?_
      exact hstays toggled (by rw [hchains, if_neg hne]) htoggles
    · rintro rfl
      rw [show dictionary.chains.getD (fold name) [] = entry :: older from hchain, modifyAt?,
        if_pos rfl] at hchanged
      cases hchanged
      refine ⟨⟨entry, older, hchain, by rw [hchains, if_pos rfl]⟩, fun other hother => ?_⟩
      rw [hchains, if_neg (Ne.symm hother)]

/-- The way back leads to a name if that was defined last at the address, or else if it was defined
there first and the name defined last has no entry there any more. -/
theorem targetName?_eq_some_iff (hhas : dictionary.HasAt name address) :
    dictionary.targetName? address = some name ↔
      dictionary.newestNames[address]? = some name ∨
        dictionary.firstNames[address]? = some name ∧
          ∀ newest ∈ dictionary.newestNames[address]?, ¬ dictionary.HasAt newest address := by
  have hfirst : dictionary.firstNames[address]?.toList.find? (dictionary.HasAt · address) =
      some name ↔ dictionary.firstNames[address]? = some name := by
    rcases dictionary.firstNames[address]? with _ | first
    · simp
    · simp only [Option.toList_some, List.find?_singleton, Option.some.injEq]
      constructor
      · intro h
        split at h
        · exact Option.some.inj h
        · cases h
      · rintro rfl
        simp [hhas]
  rw [targetName?, List.find?_append, Option.or_eq_some_iff, hfirst]
  rcases dictionary.newestNames[address]? with _ | newest
  · simp
  · by_cases hnewest : dictionary.HasAt newest address
    · simp [hnewest]
    · have hne : newest ≠ name := by
        rintro rfl
        exact hnewest hhas
      simp [hnewest, hne]

end Dictionary

open Effect Words

/-- **A word is hidden by its name unless another name has taken its address.**  In any state,
`HIDE` with the name of a word succeeds.  It hides or reveals the newest entry of the name, and
changes nothing else in the dictionary, exactly if no other name was defined at the address of that
entry since, or if the name that was defined there last has no entry there any more and the given
name was the first one to be defined there. -/
theorem hide_toggles_iff {s : State} {name : String} {entry : Entry}
    (hread : s.input.readToken.1 = some name) (hfind : s.dictionary.find? name = some entry) :
    ∃ dictionary, hide s = .ok () { s with input := s.input.readToken.2, dictionary } ∧
      (s.dictionary.Toggles name dictionary ↔
        s.dictionary.newestNames[entry.address]? = some (Dictionary.fold name) ∨
          s.dictionary.firstNames[entry.address]? = some (Dictionary.fold name) ∧
            ∀ newest ∈ s.dictionary.newestNames[entry.address]?,
              ¬ s.dictionary.HasAt newest entry.address) := by
  have hhas : s.dictionary.HasAt (Dictionary.fold name) entry.address :=
    ⟨entry, List.mem_of_head? hfind, rfl⟩
  refine ⟨(s.dictionary.toggleHidden? entry.address).getD s.dictionary, ?_, ?_⟩
  · rw [hide, bind_ok (readToken_ok (Prod.ext hread rfl)), get_bind]
    simp only [hfind]
    rfl
  · rw [Dictionary.toggles_iff hfind, Dictionary.targetName?_eq_some_iff hhas]

/-- The word that took the address of another one was forgotten, so the other one can be hidden. -/
theorem hide_toggles_iff_forgotten :
    ∃ (s : State) (hidden : Dictionary), s.input = .ofString "OLD" ∧
      s.dictionary = .after
        [.define "OLD" 5 false false, .define "NEW" 5 false false, .remove "NEW"] ∧
      s.input.readToken.1 = some "OLD" ∧
      s.dictionary.find? "OLD" = some ⟨"OLD", 5, false, false⟩ ∧
      hide s = .ok () { s with input := s.input.readToken.2, dictionary := hidden } ∧
      s.dictionary.Toggles "OLD" hidden := by
  obtain ⟨dictionary, hafter⟩ : ∃ dictionary, dictionary = Dictionary.after
      [.define "OLD" 5 false false, .define "NEW" 5 false false, .remove "NEW"] := ⟨_, rfl⟩
  obtain ⟨s, hinput, hdictionary⟩ : ∃ s : State, s.input = .ofString "OLD" ∧
      s.dictionary = dictionary := ⟨{ input := .ofString "OLD", dictionary }, rfl, rfl⟩
  rw [hafter] at hdictionary
  have hread : s.input.readToken.1 = some "OLD" := by
    rw [hinput]
    decide +kernel
  have hfind : s.dictionary.find? "OLD" = some ⟨"OLD", 5, false, false⟩ := by
    rw [hdictionary]
    decide +kernel
  obtain ⟨hidden, hhide, htoggles⟩ := hide_toggles_iff hread hfind
  refine ⟨s, hidden, hinput, hdictionary, hread, hfind, hhide, htoggles.mpr ?_⟩
  rw [hdictionary]
  decide +kernel

/-- A word is defined at the address of another one, and then it is hidden instead of it. -/
theorem hide_hides_other_word :
    ∃ outcome ∈ Machine.booted.runSource 300 "HERE @ : OLD 1 ; HERE ! : NEW 2 ; HIDE OLD",
      (outcome.2.state.dictionary.find? "OLD").map Entry.hidden = some false ∧
      (outcome.2.state.dictionary.find? "NEW").map Entry.hidden = some true := by
  decide +kernel

end ThreadedForth
