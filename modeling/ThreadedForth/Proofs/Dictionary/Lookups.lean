import ThreadedForth.Proofs.Dictionary.History

/-!
# Looking up in the history

Every look-up in a dictionary is a look-up in its history.  The chains are parts of the list of
surviving entries, the maps from addresses to names remember the first and the last definition at an
address, and the nearest address is the last one at or below that is a key.
-/

namespace ThreadedForth

namespace Dictionary

/-! ## The nearest address -/

/-- If the addresses descend, then the first one that is not above an address is the nearest. -/
theorem find?_eq_some_iff_nearest {pairs : List (Address × String)}
    (hsorted : pairs.Pairwise fun pair pair' => pair'.1 < pair.1) {address nearest : Address}
    {name : String} :
    pairs.find? (fun pair => decide (pair.1 ≤ address)) = some (nearest, name) ↔
      (nearest, name) ∈ pairs ∧ nearest ≤ address ∧
        ∀ pair ∈ pairs, pair.1 ≤ address → pair.1 ≤ nearest := by
  induction pairs with
  | nil => simp
  | cons first pairs ih =>
      obtain ⟨hfirst, hsorted⟩ := List.pairwise_cons.mp hsorted
      rw [List.find?_cons, List.forall_mem_cons, List.mem_cons]
      by_cases hle : first.1 ≤ address
      · simp only [hle, decide_true, Option.some.injEq]
        constructor
        · rintro rfl
          exact ⟨.inl rfl, hle, fun _ => Int64.le_refl _,
            fun pair hpair _ => Int64.le_of_lt (hfirst pair hpair)⟩
        · rintro ⟨heq | hmem, -, hback, -⟩
          · exact heq.symm
          · exact absurd (hfirst _ hmem) (Int64.not_lt.mpr (hback trivial))
      · simp only [hle, decide_false, ih hsorted, false_implies, true_and]
        refine and_congr_left fun hnearest => ⟨.inr, ?_⟩
        rintro (rfl | hmem)
        · exact absurd hnearest.1 hle
        · exact hmem

/-- The entry at or below an address is the first one such in the reversed list of entries. -/
theorem getEntryLE?_eq (names : Std.TreeMap Address String) (address : Address) :
    names.getEntryLE? address =
      names.toList.reverse.find? fun pair => decide (pair.1 ≤ address) := by
  show Std.DTreeMap.Internal.Impl.Const.getEntryLE? address names.inner.inner =
    (Std.DTreeMap.Internal.Impl.Const.toList names.inner.inner).reverse.find? _
  rw [Std.DTreeMap.Internal.Impl.Const.getEntryLE?_eq_map,
    Std.DTreeMap.Internal.Impl.getEntryLE?_eq_findRev? names.inner.wf.ordered,
    Std.DTreeMap.Internal.Impl.Const.toList_eq_toListModel_map, List.findRev?_eq_find?_reverse,
    ← List.map_reverse, List.find?_map]
  congr 2
  funext pair
  have hle : (compare pair.1 address).isLE = true ↔ pair.1 ≤ address :=
    Std.LawfulOrderOrd.isLE_compare pair.1 address
  exact Bool.eq_iff_iff.mpr (hle.trans decide_eq_true_iff.symm)

theorem getEntryLE?_eq_some_iff {names : Std.TreeMap Address String} {address nearest : Address}
    {name : String} : names.getEntryLE? address = some (nearest, name) ↔
      names[nearest]? = some name ∧ nearest ≤ address ∧
        ∀ other ≤ address, names[other]? ≠ none → other ≤ nearest := by
  have hsorted : names.toList.reverse.Pairwise fun pair pair' => pair'.1 < pair.1 := by
    refine List.pairwise_reverse.mpr (Std.TreeMap.ordered_keys_toList.imp fun hlt => ?_)
    exact Std.compare_eq_lt.mp hlt
  rw [getEntryLE?_eq, find?_eq_some_iff_nearest hsorted, List.mem_reverse,
    Std.TreeMap.mem_toList_iff_getElem?_eq_some]
  refine and_congr_right fun _ => and_congr_right fun _ => ⟨fun h other hle hsome => ?_, ?_⟩
  · obtain ⟨found, hfound⟩ := Option.ne_none_iff_exists'.mp hsome
    exact h (other, found)
      (List.mem_reverse.mpr (Std.TreeMap.mem_toList_iff_getElem?_eq_some.mpr hfound)) hle
  · rintro h ⟨other, found⟩ hmem hle
    have hfound := Std.TreeMap.mem_toList_iff_getElem?_eq_some.mp (List.mem_reverse.mp hmem)
    exact h other hle (by simp [hfound])

theorem getEntryLE?_eq_none_iff {names : Std.TreeMap Address String} {address : Address} :
    names.getEntryLE? address = none ↔ ∀ other ≤ address, names[other]? = none := by
  rw [getEntryLE?_eq, List.find?_eq_none]
  constructor
  · intro h other hle
    by_contra hsome
    obtain ⟨found, hfound⟩ := Option.ne_none_iff_exists'.mp hsome
    have hmem := Std.TreeMap.mem_toList_iff_getElem?_eq_some.mpr hfound
    exact h _ (List.mem_reverse.mpr hmem) (decide_eq_true hle)
  · rintro h ⟨other, found⟩ hmem hle
    have hfound := Std.TreeMap.mem_toList_iff_getElem?_eq_some.mp (List.mem_reverse.mp hmem)
    rw [h other (of_decide_eq_true hle)] at hfound
    cases hfound

/-! ## What the history says -/

/-- Every look-up in the dictionary is one in its history. -/
structure Reflects (dictionary : Dictionary) (history : History) : Prop where
  /-- Found is the newest surviving entry whose name is the same in capitals. -/
  find? : ∀ name, dictionary.find? name =
    history.surviving.find? fun entry => fold entry.name == fold name
  findVisible? : ∀ name, dictionary.findVisible? name =
    history.surviving.find? fun entry => fold entry.name == fold name && !entry.hidden
  nameAt? : ∀ address, dictionary.nameAt? address = history.firstName? address
  /-- A plain entry stands in for one that did not survive under the first name. -/
  entryAt? : ∀ address, dictionary.entryAt? address = (history.firstName? address).map fun name =>
    (history.surviving.find? fun entry => entry.name == name && entry.address == address).getD
      ⟨name, address, false, false⟩
  containing?_eq_some : ∀ address nearest name,
    dictionary.containing? address = some (nearest, name) ↔
      history.IsNearest address nearest ∧ history.firstName? nearest = some name
  containing?_eq_none : ∀ address, dictionary.containing? address = none ↔
    ∀ other ≤ address, history.firstName? other = none
  /-- A name that is found is listed once. -/
  count_visibleNames : ∀ name, (dictionary.findVisible? name).isSome →
    dictionary.visibleNames.count (fold name) = 1
  /-- A name that is listed is found. -/
  findVisible?_of_mem : ∀ name ∈ dictionary.visibleNames,
    ∃ entry, dictionary.findVisible? name = some entry ∧ entry.name = name
  /-- Names come by the addresses of what is found under them, the highest first. -/
  descending : dictionary.visibleNames.Pairwise fun name name' => ∀ entry entry',
    dictionary.findVisible? name = some entry → dictionary.findVisible? name' = some entry' →
      entry'.address ≤ entry.address
  size : dictionary.size = (history.surviving.map Entry.name).dedup.length

section Reflecting

variable {dictionary : Dictionary} {history : History} {log : List Entry}

/-- A chain is searched as the log is. -/
theorem IsLoggedAs.chain_find? (h : dictionary.IsLoggedAs log) (name : String)
    (accept : Entry → Bool) : (dictionary.chain name).find? accept =
      log.find? fun entry => fold entry.name == fold name && accept entry := by
  rw [Dictionary.chain, h.chain, ← List.head?_filter, List.filter_filter, ← List.head?_filter]
  congr 1
  refine List.filter_congr fun entry hentry => ?_
  rw [h.folded entry hentry, Bool.and_comm]

theorem IsLoggedAs.find?_eq (h : dictionary.IsLoggedAs log) (name : String) :
    dictionary.find? name = log.find? fun entry => fold entry.name == fold name := by
  have hall := h.chain_find? name fun _ => true
  simp only [Bool.and_true] at hall
  rw [Dictionary.find?, ← hall]
  cases dictionary.chain name <;> rfl

theorem Tracks.entryAt?_eq (h : dictionary.Tracks history) (address : Address) :
    dictionary.entryAt? address = (history.firstName? address).map fun name =>
      (history.surviving.find? fun entry => entry.name == name && entry.address == address).getD
        ⟨name, address, false, false⟩ := by
  rw [Dictionary.entryAt?, Dictionary.nameAt?, h.firstNames]
  refine Option.map_congr fun name _ => ?_
  simp only [h.logged.chain, List.find?_filter, Bool.decide_and, Bool.decide_eq_true]

theorem Tracks.containing?_eq_some (h : dictionary.Tracks history) (address nearest : Address)
    (name : String) : dictionary.containing? address = some (nearest, name) ↔
      history.IsNearest address nearest ∧ history.firstName? nearest = some name := by
  rw [Dictionary.containing?, getEntryLE?_eq_some_iff]
  simp only [h.firstNames]
  constructor
  · rintro ⟨hname, hle, hnearest⟩
    exact ⟨⟨hle, by simp [hname], hnearest⟩, hname⟩
  · rintro ⟨⟨hle, -, hnearest⟩, hname⟩
    exact ⟨hname, hle, hnearest⟩

theorem Tracks.containing?_eq_none (h : dictionary.Tracks history) (address : Address) :
    dictionary.containing? address = none ↔ ∀ other ≤ address, history.firstName? other = none := by
  rw [Dictionary.containing?, getEntryLE?_eq_none_iff]
  simp only [h.firstNames]

/-! ## The names in use -/

/-- What is found under a name has that name, and is found under it too. -/
theorem IsLoggedAs.findVisible?_self (h : dictionary.IsLoggedAs log) {name : String} {entry : Entry}
    (hfind : dictionary.findVisible? name = some entry) :
    entry ∈ log ∧ entry.name = fold name ∧ dictionary.findVisible? entry.name = some entry := by
  have hsearch := h.chain_find? name fun entry => !entry.hidden
  rw [← findVisible?, hfind] at hsearch
  have hmem := List.mem_of_find?_eq_some hsearch.symm
  have hname : entry.name = fold name := by
    have hboth : (fold entry.name == fold name && !entry.hidden) = true := by
      simpa using List.find?_some hsearch.symm
    rw [← h.folded entry hmem]
    exact eq_of_beq (Bool.and_eq_true_iff.mp hboth).1
  refine ⟨hmem, hname, ?_⟩
  rw [hname, findVisible?, Dictionary.chain, fold_fold]
  exact hfind

/-- The names in use with their addresses, as they are listed. -/
def listed (dictionary : Dictionary) : List (Address × String) :=
  dictionary.visible.mergeSort fun a b => decide (b.1 ≤ a.1)

theorem visibleNames_eq_listed : dictionary.visibleNames = dictionary.listed.map Prod.snd := rfl

theorem mem_listed {found : Address × String} :
    found ∈ dictionary.listed ↔ found ∈ dictionary.visible := List.mem_mergeSort

theorem listed_descending :
    dictionary.listed.Pairwise fun found found' => found'.1 ≤ found.1 := by
  have hsorted : dictionary.listed.Pairwise fun found found' => decide (found'.1 ≤ found.1) := by
    refine List.pairwise_mergeSort (fun a b c hab hbc => ?_) (fun a b => ?_) _
    · exact decide_eq_true (Int64.le_trans (of_decide_eq_true hbc) (of_decide_eq_true hab))
    · have htotal := Int64.le_total b.1 a.1
      simpa using htotal
  exact hsorted.imp of_decide_eq_true

theorem nodup_visibleNames : dictionary.visibleNames.Nodup :=
  (((List.mergeSort_perm dictionary.visible _).map Prod.snd).nodup_iff).mpr nodup_visible_names

theorem IsLoggedAs.count_visibleNames (h : dictionary.IsLoggedAs log) {name : String}
    (hfind : (dictionary.findVisible? name).isSome) :
    dictionary.visibleNames.count (fold name) = 1 := by
  obtain ⟨entry, hentry⟩ := Option.isSome_iff_exists.mp hfind
  obtain ⟨hmem, hname, hself⟩ := h.findVisible?_self hentry
  have hvisible := h.mem_visible_iff.mpr ⟨entry, hmem, hself, rfl⟩
  refine List.count_eq_one_of_mem nodup_visibleNames ?_
  rw [visibleNames_eq_listed, ← hname]
  exact List.mem_map_of_mem (mem_listed.mpr hvisible)

theorem IsLoggedAs.findVisible?_of_mem (h : dictionary.IsLoggedAs log) {name : String}
    (hname : name ∈ dictionary.visibleNames) :
    ∃ entry, dictionary.findVisible? name = some entry ∧ entry.name = name := by
  rw [visibleNames_eq_listed, List.mem_map] at hname
  obtain ⟨found, hfound, rfl⟩ := hname
  obtain ⟨entry, -, hself, rfl⟩ := h.mem_visible_iff.mp (mem_listed.mp hfound)
  exact ⟨entry, hself, rfl⟩

theorem IsLoggedAs.visibleNames_descending (h : dictionary.IsLoggedAs log) :
    dictionary.visibleNames.Pairwise fun name name' => ∀ entry entry',
      dictionary.findVisible? name = some entry → dictionary.findVisible? name' = some entry' →
        entry'.address ≤ entry.address := by
  rw [visibleNames_eq_listed]
  refine List.pairwise_map.mpr (listed_descending.imp_of_mem fun {a b} ha hb hle => ?_)
  obtain ⟨first, -, hfirst, rfl⟩ := h.mem_visible_iff.mp (mem_listed.mp ha)
  obtain ⟨second, -, hsecond, rfl⟩ := h.mem_visible_iff.mp (mem_listed.mp hb)
  intro entry entry' hentry hentry'
  cases hfirst.symm.trans hentry
  cases hsecond.symm.trans hentry'
  exact hle

theorem Tracks.size_eq (h : dictionary.Tracks history) :
    dictionary.size = (history.surviving.map Entry.name).dedup.length := by
  rw [Dictionary.size, ← Std.TreeMap.length_keys]
  refine ((List.perm_ext_iff_of_nodup Std.TreeMap.nodup_keys (List.nodup_dedup _)).mpr
    fun name => ?_).length_eq
  rw [Std.TreeMap.mem_keys, h.names, List.mem_dedup]

theorem Tracks.reflects (h : dictionary.Tracks history) : dictionary.Reflects history where
  find? := h.logged.find?_eq
  findVisible? name := h.logged.chain_find? name fun entry => !entry.hidden
  nameAt? := h.firstNames
  entryAt? := h.entryAt?_eq
  containing?_eq_some := h.containing?_eq_some
  containing?_eq_none := h.containing?_eq_none
  count_visibleNames _ := h.logged.count_visibleNames
  findVisible?_of_mem _ := h.logged.findVisible?_of_mem
  descending := h.logged.visibleNames_descending
  size := h.size_eq

end Reflecting

end Dictionary

/-! ## Flags in the history -/

namespace History

open Dictionary (place? exists_of_place?)

variable {history : History} {address : Address} {place : Nat}

theorem exists_of_target? (h : history.target? address = some place) :
    ∃ entry, history.surviving[place]? = some entry ∧ entry.address = address := by
  rcases Option.or_eq_some_iff.mp h with hnewest | ⟨-, hfirst⟩
  · obtain ⟨name, -, hplace⟩ := Option.bind_eq_some_iff.mp hnewest
    obtain ⟨entry, hentry, -, haddress⟩ := exists_of_place? hplace
    exact ⟨entry, hentry, haddress⟩
  · obtain ⟨name, -, hplace⟩ := Option.bind_eq_some_iff.mp hfirst
    obtain ⟨entry, hentry, -, haddress⟩ := exists_of_place? hplace
    exact ⟨entry, hentry, haddress⟩

/-- A change of flags finds an entry, or else none survives that it looks for. -/
theorem target?_eq_none_iff : history.target? address = none ↔
    ∀ entry ∈ history.surviving, entry.address = address →
      history.newestName? address ≠ some entry.name ∧
        history.firstName? address ≠ some entry.name := by
  have hplace : ∀ name? : Option String, name?.bind (place? history.surviving · address) = none ↔
      ∀ entry ∈ history.surviving, entry.address = address → name? ≠ some entry.name := by
    intro name?
    cases name? with
    | none => simp
    | some name =>
        simp only [Option.bind_some, place?, List.findIdx?_eq_none_iff, ne_eq, Option.some.injEq]
        refine forall₂_congr fun entry _ => ?_
        rw [Bool.and_eq_false_iff, beq_eq_false_iff_ne, beq_eq_false_iff_ne]
        constructor
        · rintro (hname | haddress) heq rfl
          · exact hname rfl
          · exact haddress heq
        · intro h
          by_cases haddress : entry.address = address
          · exact .inl (Ne.symm (h haddress))
          · exact .inr haddress
  rw [target?, Option.or_eq_none_iff, hplace, hplace]
  exact ⟨fun h entry hentry heq => ⟨h.1 entry hentry heq, h.2 entry hentry heq⟩,
    fun h => ⟨fun entry hentry heq => (h entry hentry heq).1,
      fun entry hentry heq => (h entry hentry heq).2⟩⟩

end History

/-- **A dictionary is its history.**  Whatever the order in which it goes through its names, after
any operations on an empty dictionary every look-up is one in the history of these operations, and
every further operation finds something to do in the dictionary exactly if it does in the history,
after which the look-ups are those of the new history.  A change of flags changes one surviving
entry, which is at the given address, and nothing else; it does nothing only if there is no such
entry under the last or the first name of the address. -/
theorem after_refines_history (operations : List Operation) (order : NameOrder) :
    (Dictionary.after operations order).Reflects (History.after operations) ∧
      (∀ operation, Option.Rel Dictionary.Reflects
        ((Dictionary.after operations order).perform? operation)
        ((History.after operations).perform? operation)) ∧
      ∀ address change,
        (∃ place entry, (History.after operations).surviving[place]? = some entry ∧
          entry.address = address ∧
          (History.after operations).perform? (.flag address change) =
            some ⟨(History.after operations).defined,
              (History.after operations).surviving.set place (change.on entry)⟩) ∨
        (History.after operations).perform? (.flag address change) = none ∧
          ∀ entry ∈ (History.after operations).surviving, entry.address = address →
            (History.after operations).newestName? address ≠ some entry.name ∧
              (History.after operations).firstName? address ≠ some entry.name := by
  have htracks := Dictionary.tracks_after operations order
  refine ⟨htracks.reflects, fun operation => ?_, fun address change => ?_⟩
  · have hstep := htracks.apply operation
    generalize (Dictionary.after operations order).perform? operation = dictionary? at hstep
    generalize (History.after operations).perform? operation = history? at hstep
    cases hstep with
    | some hstep => exact .some hstep.reflects
    | none => exact .none
  · rcases htarget : (History.after operations).target? address with _ | place
    · exact .inr ⟨by rw [History.perform?, htarget]; rfl, History.target?_eq_none_iff.mp htarget⟩
    · obtain ⟨entry, hentry, haddress⟩ := History.exists_of_target? htarget
      refine .inl ⟨place, entry, hentry, haddress, ?_⟩
      have hmodify : (History.after operations).surviving.modify place change.on =
          (History.after operations).surviving.set place (change.on entry) := by
        rw [List.modify_eq_set, hentry]
        rfl
      rw [History.perform?, htarget, Option.map_some, hmodify]

-- the word survives under its second name of three, where a change of flags does not look
example : History.perform? ⟨[("C", 5), ("B", 5), ("A", 5)], [⟨"B", 5, false, false⟩]⟩
    (.flag 5 .toggleHidden) = none := by
  decide

end ThreadedForth
