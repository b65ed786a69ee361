import ThreadedForth.Proofs.Dictionary.Lookups

/-!
# Whose flags are changed

Several names may be defined at one address, and each of them may be removed.  A change of flags is
meant for the newest entry that survives at the address, but it looks under two names only: the one
that was defined there last and the one that was defined there first.

As long as the name defined last survives, its entry is the newest one, and the change finds it.
Once that name was removed, the newest entry is found only if it has the name that was defined
first.  An entry under a name in between is passed over, and an older entry is changed or none.
-/

namespace ThreadedForth

namespace History

open Dictionary (place? exists_of_place? map_key_modify)

variable {history : History} {address : Address} {place : Nat} {entry : Entry}

/-- Where the newest entry is that survives at an address. -/
def latest? (history : History) (address : Address) : Option Nat :=
  history.surviving.findIdx? (·.address == address)

/-- If the name that was defined last at an address survives there, then the newest entry there has
that name. -/
def IsOrdered (history : History) : Prop :=
  ∀ address name, history.newestName? address = some name →
    (name, address) ∈ history.surviving.map Entry.key →
      (history.surviving.map Entry.key).find? (·.2 == address) = some (name, address)

/-! ## The order is kept -/

theorem isOrdered_empty : IsOrdered {} := fun _ _ hname => by cases hname

theorem IsOrdered.define (h : history.IsOrdered) (entry : Entry) :
    IsOrdered ⟨entry.key :: history.defined, entry :: history.surviving⟩ := by
  intro address name hname hmem
  by_cases haddress : entry.address = address
  · simp only [newestName?, Entry.key, haddress, List.find?_cons, beq_self_eq_true,
      Option.map_some, Option.some.injEq] at hname
    simp [Entry.key, haddress, hname]
  · have hother : (entry.key.2 == address) = false := beq_false_of_ne haddress
    have hname' : history.newestName? address = some name := by
      rwa [newestName?, List.find?_cons, hother] at hname
    have hmem' : (name, address) ∈ history.surviving.map Entry.key := by
      rcases List.mem_cons.mp hmem with heq | hmem
      · exact absurd (congrArg Prod.snd heq).symm haddress
      · exact hmem
    rw [List.map_cons, List.find?_cons, hother]
    exact h address name hname' hmem'

theorem IsOrdered.remove (h : history.IsOrdered) (removed : String) :
    IsOrdered { history with surviving := history.surviving.filter (·.name != removed) } := by
  intro address name hname hmem
  have hkeys : (history.surviving.filter (·.name != removed)).map Entry.key =
      (history.surviving.map Entry.key).filter (·.1 != removed) := by
    rw [List.filter_map]
    rfl
  rw [hkeys, List.mem_filter] at hmem
  obtain ⟨hmem, hkept⟩ := hmem
  obtain ⟨haddress, before, after, hsplit, hbefore⟩ :=
    List.find?_eq_some_iff_append.mp (h address name hname hmem)
  rw [hkeys, hsplit, List.filter_append, List.filter_cons, if_pos hkept]
  exact List.find?_eq_some_iff_append.mpr ⟨haddress, _, _, rfl,
    fun key hkey => hbefore key (List.mem_filter.mp hkey).1⟩

theorem IsOrdered.modify (h : history.IsOrdered) (place : Nat) (change : FlagChange) :
    IsOrdered { history with surviving := history.surviving.modify place change.on } := by
  have hkeys : (history.surviving.modify place change.on).map Entry.key =
      history.surviving.map Entry.key := map_key_modify change.on_keeps
  intro address name hname hmem
  rw [hkeys] at hmem ⊢
  exact h address name hname hmem

theorem IsOrdered.perform (h : history.IsOrdered) (operation : Operation) :
    ((history.perform? operation).getD history).IsOrdered := by
  cases operation with
  | define name address immediate hidden =>
      exact h.define ⟨Dictionary.fold name, address, immediate, hidden⟩
  | remove name =>
      rw [perform?]
      split
      · exact h.remove (Dictionary.fold name)
      · exact h
  | flag address change =>
      rw [perform?]
      cases history.target? address with
      | none => exact h
      | some place => exact h.modify place change

theorem isOrdered_after (operations : List Operation) : (after operations).IsOrdered :=
  List.foldlRecOn operations _ isOrdered_empty fun _ h operation _ => h.perform operation

/-! ## What is found -/

/-- Under its own name, the newest entry at an address is found. -/
theorem place?_of_latest? (h : history.latest? address = some place)
    (hentry : history.surviving[place]? = some entry) :
    place? history.surviving entry.name address = some place := by
  obtain ⟨hlt, haddress, hbefore⟩ := List.findIdx?_eq_some_iff_getElem.mp h
  obtain rfl : history.surviving[place] = entry := by
    rwa [List.getElem?_eq_getElem hlt, Option.some.injEq] at hentry
  refine List.findIdx?_eq_some_iff_getElem.mpr ⟨hlt, ?_, fun i hi => ?_⟩
  · rw [haddress, beq_self_eq_true]
    rfl
  · rw [Bool.and_eq_true_iff]
    exact fun hboth => hbefore i hi hboth.2

/-- If the name that was defined last at an address is found there, then the newest entry has that
name. -/
theorem IsOrdered.name_eq_of_place? (h : history.IsOrdered) {name : String} {found : Nat}
    (hname : history.newestName? address = some name)
    (hfound : place? history.surviving name address = some found)
    (hlatest : history.latest? address = some place)
    (hentry : history.surviving[place]? = some entry) : entry.name = name := by
  obtain ⟨hlt, haddress, hbefore⟩ := List.findIdx?_eq_some_iff_getElem.mp hlatest
  rw [List.getElem?_eq_getElem hlt, Option.some.injEq] at hentry
  have hfind : history.surviving.find? (·.address == address) = some entry := by
    refine List.find?_eq_some_iff_getElem.mpr ⟨hentry ▸ haddress, place, hlt, hentry, ?_⟩
    simpa using hbefore
  obtain ⟨other, hother, rfl, hother'⟩ := exists_of_place? hfound
  have hmem : (other.name, address) ∈ history.surviving.map Entry.key :=
    List.mem_map.mpr ⟨other, List.mem_of_getElem? hother, by rw [Entry.key, hother']⟩
  have hfirst := h address other.name hname hmem
  rw [List.find?_map, show ((·.2 == address) ∘ Entry.key) = fun entry : Entry =>
    entry.address == address from rfl, hfind] at hfirst
  exact congrArg Prod.fst (Option.some.inj hfirst)

/-- A change of flags reaches the newest entry exactly if that has the name that was defined last at
the address or the one that was defined first. -/
theorem IsOrdered.target?_eq_latest?_iff (h : history.IsOrdered) :
    history.target? address = history.latest? address ↔
      ∀ place entry, history.latest? address = some place →
        history.surviving[place]? = some entry →
          history.newestName? address = some entry.name ∨
            history.firstName? address = some entry.name := by
  constructor
  · intro htarget place entry hlatest hentry
    rw [hlatest, target?, Option.or_eq_some_iff] at htarget
    have hname : ∀ name? : Option String,
        name?.bind (place? history.surviving · address) = some place → name? = some entry.name := by
      intro name? hplace
      obtain ⟨name, rfl, hplace⟩ := Option.bind_eq_some_iff.mp hplace
      obtain ⟨other, hother, rfl, -⟩ := exists_of_place? hplace
      rw [Option.some.inj (hentry.symm.trans hother)]
    exact htarget.imp (hname _) fun hfirst => hname _ hfirst.2
  · intro hnames
    rcases hlatest : history.latest? address with _ | place
    · -- nothing survives at the address
      refine target?_eq_none_iff.mpr fun entry hentry haddress => ?_
      have hother := List.findIdx?_eq_none_iff.mp hlatest entry hentry
      rw [haddress, beq_self_eq_true] at hother
      cases hother
    · obtain ⟨hlt, -, -⟩ := List.findIdx?_eq_some_iff_getElem.mp hlatest
      have hentry := List.getElem?_eq_getElem hlt
      have hplace := place?_of_latest? hlatest hentry
      rw [target?]
      rcases hnames place _ hlatest hentry with hnewest | hfirst
      · rw [hnewest, Option.bind_some, hplace, Option.some_or]
      · rcases hfound : (history.newestName? address).bind (place? history.surviving · address)
          with _ | found
        · rw [hfirst, Option.none_or, Option.bind_some, hplace]
        · obtain ⟨name, hname, hfound'⟩ := Option.bind_eq_some_iff.mp hfound
          obtain rfl := h.name_eq_of_place? hname hfound' hlatest hentry
          rw [Option.some_or, ← hfound', hplace]

end History

/-- **Flags are changed of the newest word, if it has the right name.**  After any operations on an
empty dictionary, a change of flags at an address changes the entry that `History.target?` says, and
nothing if there is none.  That is the newest entry that survives at the address, and it is none if
and only if no entry survives there, exactly if the newest entry has the name that was defined last
at the address or the one that was defined first. -/
theorem flags_reach_latest_iff (operations : List Operation) (order : NameOrder)
    (address : Address) (change : FlagChange) :
    Option.Rel Dictionary.Reflects
        ((Dictionary.after operations order).perform? (.flag address change))
        (((History.after operations).target? address).map fun place =>
          { History.after operations with
            surviving := (History.after operations).surviving.modify place change.on }) ∧
      ((History.after operations).latest? address = none ↔
        ∀ entry ∈ (History.after operations).surviving, entry.address ≠ address) ∧
      ((History.after operations).target? address = (History.after operations).latest? address ↔
        ∀ place entry, (History.after operations).latest? address = some place →
          (History.after operations).surviving[place]? = some entry →
            (History.after operations).newestName? address = some entry.name ∨
              (History.after operations).firstName? address = some entry.name) := by
  refine ⟨?_, ?_, (History.isOrdered_after operations).target?_eq_latest?_iff⟩
  · have hstep := (Dictionary.tracks_after operations order).apply (.flag address change)
    rw [History.perform?] at hstep
    generalize (Dictionary.after operations order).perform? _ = dictionary? at hstep
    generalize Option.map _ _ = history? at hstep
    cases hstep with
    | some hstep => exact .some hstep.reflects
    | none => exact .none
  · rw [History.latest?, List.findIdx?_eq_none_iff]
    simp only [beq_eq_false_iff_ne]

/-- Three names are defined at one address, and the first and the last of them are removed.  The
second one survives there, and its flags cannot be changed. -/
theorem flags_miss_second_name :
    let dictionary := Dictionary.after
      [.define "A" 5 false false, .define "B" 5 false false, .define "C" 5 false false,
        .remove "A", .remove "C"]
    dictionary.find? "B" = some ⟨"B", 5, false, false⟩ ∧
      ∀ change ∈ [FlagChange.setHidden true, .setImmediate true, .toggleHidden],
        (dictionary.perform? (.flag 5 change)).isNone := by
  decide +kernel

end ThreadedForth
