import ThreadedForth.Proofs.Dictionary.Log

/-!
# The history of a dictionary

A dictionary is three maps, and removing a name leaves two of them as they were.  Its history is
simpler: the list of all definitions that were ever made, which only grows, and the list of the
entries that survive.  Both have the newest in front.  `after_refines_history` shows that after any
operations every look-up is one in these two lists, and that every operation does to the lists what
it should.

A change of flags looks for its entry under two names only, the name that was defined last at the
address and the one that was defined first.  An entry that survives under a name in between is not
found; `History.target?` says exactly which one is.
-/

namespace ThreadedForth

/-! ## Operations -/

/-- How the flags of an entry change. -/
inductive FlagChange where
  | setHidden (hidden : Bool)
  | setImmediate (immediate : Bool)
  | toggleHidden
  deriving DecidableEq

/-- The entry with changed flags. -/
def FlagChange.on : FlagChange → Entry → Entry
  | setHidden hidden, entry => { entry with hidden }
  | setImmediate immediate, entry => { entry with immediate }
  | toggleHidden, entry => { entry with hidden := !entry.hidden }

theorem FlagChange.on_keeps (change : FlagChange) (entry : Entry) :
    (change.on entry).name = entry.name ∧ (change.on entry).address = entry.address := by
  cases change <;> exact ⟨rfl, rfl⟩

/-- What can be done to a dictionary. -/
inductive Operation where
  | define (name : String) (address : Address) (immediate hidden : Bool)
  | remove (name : String)
  | flag (address : Address) (change : FlagChange)
  deriving DecidableEq

namespace Dictionary

/-- Does an operation; `none` if it finds nothing to do. -/
def perform? (dictionary : Dictionary) : Operation → Option Dictionary
  | .define name address immediate hidden =>
    some (dictionary.define name address immediate hidden)
  | .remove name => dictionary.remove? name
  | .flag address (.setHidden hidden) => dictionary.setHidden? address hidden
  | .flag address (.setImmediate immediate) => dictionary.setImmediate? address immediate
  | .flag address .toggleHidden => dictionary.toggleHidden? address

/-- An empty dictionary with some order of names after some operations. -/
def after (operations : List Operation) (order : NameOrder := default) : Dictionary :=
  operations.foldl (fun dictionary operation => (dictionary.perform? operation).getD dictionary)
    { order }

theorem perform?_flag (dictionary : Dictionary) (address : Address) (change : FlagChange) :
    dictionary.perform? (.flag address change) = dictionary.modify? address change.on := by
  cases change <;> rfl

end Dictionary

/-! ## Histories -/

/-- What was done, as far as it still matters. -/
structure History where
  /-- The name and the address of every definition ever made, newest first. -/
  defined : List (String × Address) := []
  /-- The entries that were not removed since they were defined, newest first. -/
  surviving : List Entry := []
  deriving DecidableEq

namespace History

open Dictionary (fold place?)

/-- The name first defined at an address. -/
def firstName? (history : History) (address : Address) : Option String :=
  (history.defined.reverse.find? (·.2 == address)).map Prod.fst

/-- The name defined last at an address. -/
def newestName? (history : History) (address : Address) : Option String :=
  (history.defined.find? (·.2 == address)).map Prod.fst

/-- Where the entry is whose flags are changed: the newest one at the address under the name defined
there last, or else under the name defined there first. -/
def target? (history : History) (address : Address) : Option Nat :=
  ((history.newestName? address).bind (place? history.surviving · address)).or
    ((history.firstName? address).bind (place? history.surviving · address))

/-- Does an operation; `none` if there is nothing to do. -/
def perform? (history : History) : Operation → Option History
  | .define name address immediate hidden =>
    some ⟨(fold name, address) :: history.defined,
      ⟨fold name, address, immediate, hidden⟩ :: history.surviving⟩
  | .remove name =>
    if history.surviving.any (·.name == fold name) then
      some { history with surviving := history.surviving.filter (·.name != fold name) }
    else none
  | .flag address change => (history.target? address).map fun place =>
    { history with surviving := history.surviving.modify place change.on }

/-- The history of some operations. -/
def after (operations : List Operation) : History :=
  operations.foldl (fun history operation => (history.perform? operation).getD history) {}

theorem firstName?_cons (history : History) (name : String) (address other : Address)
    (surviving : List Entry) :
    firstName? ⟨(name, address) :: history.defined, surviving⟩ other =
      (history.firstName? other).or (if address = other then some name else none) := by
  rw [firstName?, List.reverse_cons, List.find?_append, Option.map_or, ← firstName?]
  by_cases h : address = other <;> simp [h]

/-- The address is the nearest one at or below another at which anything was ever defined. -/
structure IsNearest (history : History) (address nearest : Address) : Prop where
  le : nearest ≤ address
  defined : history.firstName? nearest ≠ none
  nearest : ∀ other ≤ address, history.firstName? other ≠ none → other ≤ nearest

end History

/-! ## Following the history -/

/-- Of two pairs of attempts, those that go first agree. -/
theorem rel_or {α β : Type} {r : α → β → Prop} {first second : Option α} {first' second' : Option β}
    (hfirst : Option.Rel r first first') (hsecond : Option.Rel r second second') :
    Option.Rel r (first.or second) (first'.or second') := by
  cases hfirst with
  | some h => exact .some h
  | none => exact hsecond

namespace Dictionary

theorem exists_of_place? {log : List Entry} {name : String} {address : Address} {place : Nat}
    (h : place? log name address = some place) :
    ∃ entry, log[place]? = some entry ∧ entry.name = name ∧ entry.address = address := by
  obtain ⟨hlt, hentry, -⟩ := List.findIdx?_eq_some_iff_getElem.mp h
  obtain ⟨hname, haddress⟩ := Bool.and_eq_true_iff.mp hentry
  exact ⟨_, List.getElem?_eq_getElem hlt, eq_of_beq hname, eq_of_beq haddress⟩

/-- The maps of the dictionary are as its history has it. -/
structure Tracks (dictionary : Dictionary) (history : History) : Prop where
  logged : dictionary.IsLoggedAs history.surviving
  names : ∀ name, name ∈ dictionary.chains ↔ name ∈ history.surviving.map Entry.name
  firstNames : ∀ address, dictionary.firstNames[address]? = history.firstName? address
  newestNames : ∀ address, dictionary.newestNames[address]? = history.newestName? address

section Tracking

variable {dictionary : Dictionary} {history : History}

theorem tracks_empty (order : NameOrder) : Tracks { order } {} :=
  ⟨isLoggedAs_empty order, fun name => by simp [Std.TreeMap.not_mem_emptyc],
    fun address => Std.TreeMap.getElem?_emptyc, fun address => Std.TreeMap.getElem?_emptyc⟩

theorem Tracks.define (h : dictionary.Tracks history) (name : String) (address : Address)
    (immediate hidden : Bool) : (dictionary.define name address immediate hidden).Tracks
      ⟨(fold name, address) :: history.defined,
        ⟨fold name, address, immediate, hidden⟩ :: history.surviving⟩ := by
  refine ⟨h.logged.define name address immediate hidden, fun other => ?_, fun other => ?_,
    fun other => ?_⟩
  · simp only [Dictionary.define, Std.TreeMap.mem_insert, Std.LawfulEqCmp.compare_eq_iff_eq,
      h.names, List.map_cons, List.mem_cons, @eq_comm String other]
  · simp only [Dictionary.define, Std.TreeMap.getElem?_insertIfNew,
      Std.LawfulEqCmp.compare_eq_iff_eq, Std.TreeMap.mem_iff_isSome_getElem?, h.firstNames,
      History.firstName?_cons]
    by_cases haddress : address = other
    · subst haddress
      cases history.firstName? address <;> simp
    · simp [haddress]
  · simp only [Dictionary.define, Std.TreeMap.getElem?_insert, Std.LawfulEqCmp.compare_eq_iff_eq,
      h.newestNames, History.newestName?, List.find?_cons]
    by_cases haddress : address = other
    · simp [haddress]
    · simp [haddress, beq_false_of_ne haddress]

theorem Tracks.remove (h : dictionary.Tracks history) (name : String) :
    Option.Rel Tracks (dictionary.remove? name) (history.perform? (.remove name)) := by
  have hnames : dictionary.chains.contains (fold name) = true ↔
      history.surviving.any (·.name == fold name) = true := by
    rw [Std.TreeMap.contains_iff_mem, h.names]
    simp
  by_cases hsome : dictionary.chains.contains (fold name)
  · have hremove : dictionary.remove? name = _ := if_pos hsome
    rw [hremove, History.perform?, if_pos (hnames.mp hsome)]
    refine .some ⟨h.logged.remove hremove, fun other => ?_, h.firstNames, h.newestNames⟩
    simp only [Std.TreeMap.mem_erase, ne_eq, Std.LawfulEqCmp.compare_eq_iff_eq, h.names,
      List.mem_map, List.mem_filter, bne_iff_ne]
    constructor
    · rintro ⟨hne, entry, hentry, rfl⟩
      exact ⟨entry, ⟨hentry, Ne.symm hne⟩, rfl⟩
    · rintro ⟨entry, ⟨hentry, hne⟩, rfl⟩
      exact ⟨Ne.symm hne, entry, hentry, rfl⟩
  · rw [remove?, if_neg hsome, History.perform?, if_neg fun hany => hsome (hnames.mpr hany)]
    exact .none

theorem Tracks.modifyNamed (h : dictionary.Tracks history) (name : String) (address : Address)
    (change : FlagChange) : Option.Rel Tracks (dictionary.modifyNamed? name address change.on)
      ((place? history.surviving name address).map fun place =>
        { history with surviving := history.surviving.modify place change.on }) := by
  rw [h.logged.modifyNamed?_eq change.on_keeps]
  rcases hplace : place? history.surviving name address with _ | place
  · exact .none
  · refine .some ⟨h.logged.modified change.on_keeps hplace, fun other => ?_, h.firstNames,
      h.newestNames⟩
    have hsame : (history.surviving.modify place change.on).map Entry.name =
        history.surviving.map Entry.name := by
      have hkeys : (history.surviving.modify place change.on).map Entry.key = _ :=
        map_key_modify change.on_keeps
      have hnames := congrArg (List.map Prod.fst) hkeys
      rwa [List.map_map, List.map_map] at hnames
    obtain ⟨entry, hentry, hname, -⟩ := exists_of_place? hplace
    have hmem : name ∈ history.surviving.map Entry.name :=
      List.mem_map.mpr ⟨entry, List.mem_of_getElem? hentry, hname⟩
    simp only [Std.TreeMap.mem_insert, Std.LawfulEqCmp.compare_eq_iff_eq, h.names, hsame]
    constructor
    · rintro (rfl | hother)
      · exact hmem
      · exact hother
    · exact .inr

theorem Tracks.modify (h : dictionary.Tracks history) (address : Address) (change : FlagChange) :
    Option.Rel Tracks (dictionary.modify? address change.on)
      (history.perform? (.flag address change)) := by
  have hnamed : ∀ name? : Option String,
      Option.Rel Tracks (name?.bind (dictionary.modifyNamed? · address change.on))
        ((name?.bind (place? history.surviving · address)).map fun place =>
          { history with surviving := history.surviving.modify place change.on }) := by
    intro name?
    cases name? with
    | none => exact .none
    | some name => exact h.modifyNamed name address change
  rw [modify?, Option.orElse_eq_orElse, Option.orElse_eq_or, h.newestNames, h.firstNames,
    History.perform?, History.target?, Option.map_or]
  exact rel_or (hnamed _) (hnamed _)

/-- Every operation keeps track: either there is nothing to do in both, or both go on. -/
theorem Tracks.apply (h : dictionary.Tracks history) (operation : Operation) :
    Option.Rel Tracks (dictionary.perform? operation) (history.perform? operation) := by
  cases operation with
  | define name address immediate hidden => exact .some (h.define name address immediate hidden)
  | remove name => exact h.remove name
  | flag address change =>
      rw [perform?_flag]
      exact h.modify address change

theorem tracks_after (operations : List Operation) (order : NameOrder) :
    (after operations order).Tracks (History.after operations) := by
  suffices h : ∀ dictionary history, Tracks dictionary history →
      Tracks (operations.foldl (fun dictionary operation =>
          (dictionary.perform? operation).getD dictionary) dictionary)
        (operations.foldl (fun history operation =>
          (history.perform? operation).getD history) history) from
      h { order } {} (tracks_empty order)
  induction operations with
  | nil => exact fun _ _ h => h
  | cons operation operations ih =>
      intro dictionary history h
      rw [List.foldl_cons, List.foldl_cons]
      apply ih
      have hstep := h.apply operation
      generalize dictionary.perform? operation = dictionary'? at hstep
      generalize history.perform? operation = history'? at hstep
      cases hstep with
      | some hstep => exact hstep
      | none => exact h

end Tracking

end Dictionary

end ThreadedForth
