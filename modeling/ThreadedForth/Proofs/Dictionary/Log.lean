import Mathlib
import ThreadedForth.Dictionary

/-!
# The dictionary as a log

The dictionary keeps a chain of entries for each name and forgets in which order words of different
names were defined.  A log is one list of all the entries, newest first, of which every chain is a
part.  Every operation on the dictionary is an operation on its log: defining puts an entry in
front, removing a name takes entries out, and changing a flag changes an entry in its place.
-/

namespace ThreadedForth

/-- What stays of an entry when its flags change. -/
def Entry.key (entry : Entry) : String × Address := (entry.name, entry.address)

namespace Dictionary

/-- A folded name is folded for good. -/
theorem fold_fold (name : String) : fold (fold name) = fold name := by
  rw [fold, fold, String.toUpper, String.toUpper, String.map_map]
  congr 1
  funext c
  exact Char.toUpper_toUpper_eq_toUpper c

/-- The log holds the entries of the dictionary, newest first. -/
structure IsLoggedAs (dictionary : Dictionary) (log : List Entry) : Prop where
  chain : ∀ name, dictionary.chains.getD name [] = log.filter (·.name == name)
  folded : ∀ entry ∈ log, fold entry.name = entry.name

section Logging

variable {dictionary dictionary' : Dictionary} {log : List Entry} {name : String}
variable {address : Address} {change : Entry → Entry}

theorem isLoggedAs_empty (order : NameOrder) : IsLoggedAs { order } [] :=
  ⟨fun _ => Std.TreeMap.getD_emptyc, fun _ h => by cases h⟩

theorem IsLoggedAs.define (h : dictionary.IsLoggedAs log) (name : String) (address : Address)
    (immediate hidden : Bool) : (dictionary.define name address immediate hidden).IsLoggedAs
      (⟨fold name, address, immediate, hidden⟩ :: log) := by
  refine ⟨fun other => ?_, ?_⟩
  · simp only [Dictionary.define, Std.TreeMap.getD_insert, Std.LawfulEqCmp.compare_eq_iff_eq]
    by_cases hname : fold name = other
    · rw [if_pos hname, List.filter_cons_of_pos (by simpa using hname), h.chain, hname]
    · rw [if_neg hname, List.filter_cons_of_neg (by simpa using hname), h.chain]
  · intro entry hentry
    rcases List.mem_cons.mp hentry with rfl | hold
    · exact fold_fold name
    · exact h.folded entry hold

theorem IsLoggedAs.remove (h : dictionary.IsLoggedAs log)
    (hremove : dictionary.remove? name = some dictionary') :
    dictionary'.IsLoggedAs (log.filter (·.name != fold name)) := by
  rw [remove?] at hremove
  split at hremove
  · cases hremove
    refine ⟨fun other => ?_, fun entry hentry => h.folded entry (List.mem_filter.mp hentry).1⟩
    simp only [Std.TreeMap.getD_erase, Std.LawfulEqCmp.compare_eq_iff_eq, List.filter_filter]
    by_cases hname : fold name = other
    · rw [if_pos hname]
      symm
      rw [List.filter_eq_nil_iff]
      intro entry _ hboth
      simp only [Bool.and_eq_true, beq_iff_eq, bne_iff_ne] at hboth
      exact hboth.2 (hboth.1.trans hname.symm)
    · rw [if_neg hname, h.chain]
      refine List.filter_congr fun entry _ => ?_
      by_cases hentry : entry.name = other
      · simp [hentry, Ne.symm hname]
      · simp [hentry]
  · cases hremove

/-- The place of the newest entry with a name and an address. -/
def place? (log : List Entry) (name : String) (address : Address) : Option Nat :=
  log.findIdx? fun entry => entry.name == name && entry.address == address

section Changing

variable {place : Nat}
variable (hchange : ∀ entry, (change entry).name = entry.name ∧
  (change entry).address = entry.address)
include hchange

/-- An entry of one chain is changed in its place. -/
theorem modifyAt?_filter : modifyAt? address change (log.filter (·.name == name)) =
    (place? log name address).map fun place =>
      (log.modify place change).filter (·.name == name) := by
  induction log with
  | nil => rfl
  | cons entry log ih =>
      rw [place?, List.findIdx?_cons, ← place?]
      by_cases hname : entry.name = name
      · have hkept : (change entry).name = name := (hchange entry).1.trans hname
        rw [List.filter_cons_of_pos (by simpa using hname), modifyAt?, ih]
        by_cases haddress : entry.address = address
        · simp [hname, haddress, hkept]
        · simp [hname, haddress, Function.comp_def]
      · rw [List.filter_cons_of_neg (by simpa using hname), ih]
        simp [hname, Function.comp_def]

/-- The other chains stay. -/
theorem filter_modify_of_ne {other : String} (hplace : place? log name address = some place)
    (hother : other ≠ name) :
    (log.modify place change).filter (·.name == other) = log.filter (·.name == other) := by
  induction log generalizing place with
  | nil => cases hplace
  | cons entry log ih =>
      rw [place?, List.findIdx?_cons, ← place?] at hplace
      split at hplace
      · rename_i hentry
        obtain ⟨hname, -⟩ := Bool.and_eq_true_iff.mp hentry
        have hkept : (change entry).name = name := (hchange entry).1.trans (eq_of_beq hname)
        cases hplace
        simp [eq_of_beq hname, hkept, Ne.symm hother]
      · obtain ⟨older, holder, rfl⟩ := Option.map_eq_some_iff.mp hplace
        rw [List.modify_succ_cons, List.filter_cons, List.filter_cons, ih holder]

theorem map_key_modify : (log.modify place change).map Entry.key = log.map Entry.key := by
  refine List.ext_getElem? fun i => ?_
  rw [List.getElem?_map, List.getElem?_modify, List.getElem?_map]
  split
  · rcases log[i]? with _ | entry
    · rfl
    · simp [Entry.key, hchange entry]
  · rw [id_map']

/-- Logs with the same keys have the same names. -/
theorem folded_modify (h : ∀ entry ∈ log, fold entry.name = entry.name) :
    ∀ entry ∈ log.modify place change, fold entry.name = entry.name := by
  intro entry hentry
  have hmem := List.mem_map_of_mem (f := Entry.key) hentry
  rw [map_key_modify hchange, List.mem_map] at hmem
  obtain ⟨old, hold, hkey⟩ := hmem
  have hname : old.name = entry.name := congrArg Prod.fst hkey
  rw [← hname]
  exact h old hold

theorem IsLoggedAs.modifyNamed?_eq (h : dictionary.IsLoggedAs log) :
    dictionary.modifyNamed? name address change = (place? log name address).map fun place =>
      let changed := (log.modify place change).filter (·.name == name)
      { dictionary with chains := dictionary.chains.insert name changed } := by
  have hchain := h.chain name
  have hmodify : modifyAt? address change (log.filter (·.name == name)) = _ :=
    modifyAt?_filter hchange
  rw [← hchain, Std.TreeMap.getD_eq_getD_getElem?] at hmodify
  rw [modifyNamed?]
  rcases hentries : dictionary.chains[name]? with _ | entries
  · rw [hentries] at hmodify
    rw [Option.map_eq_none_iff.mp hmodify.symm]
    rfl
  · rw [hentries, Option.getD_some] at hmodify
    rcases hplace : place? log name address with _ | place
    · simp [hmodify, hplace]
    · simp [hmodify, hplace]

theorem IsLoggedAs.modified (h : dictionary.IsLoggedAs log)
    (hplace : place? log name address = some place) :
    let changed := (log.modify place change).filter (·.name == name)
    IsLoggedAs { dictionary with chains := dictionary.chains.insert name changed }
      (log.modify place change) := by
  refine ⟨fun other => ?_, folded_modify hchange h.folded⟩
  simp only [Std.TreeMap.getD_insert, Std.LawfulEqCmp.compare_eq_iff_eq]
  by_cases hname : name = other
  · rw [if_pos hname, hname]
  · rw [if_neg hname, h.chain, filter_modify_of_ne hchange hplace (Ne.symm hname)]

theorem IsLoggedAs.modifyNamed (h : dictionary.IsLoggedAs log)
    (hmodify : dictionary.modifyNamed? name address change = some dictionary') :
    ∃ log' : List Entry, dictionary'.IsLoggedAs log' ∧ log'.map Entry.key = log.map Entry.key := by
  rw [h.modifyNamed?_eq hchange] at hmodify
  obtain ⟨place, hplace, rfl⟩ := Option.map_eq_some_iff.mp hmodify
  exact ⟨_, h.modified hchange hplace, map_key_modify hchange⟩

theorem IsLoggedAs.modify (h : dictionary.IsLoggedAs log)
    (hmodify : dictionary.modify? address change = some dictionary') :
    ∃ log' : List Entry, dictionary'.IsLoggedAs log' ∧ log'.map Entry.key = log.map Entry.key := by
  rw [modify?, Option.orElse_eq_orElse, Option.orElse_eq_or] at hmodify
  rcases Option.or_eq_some_iff.mp hmodify with hnewest | ⟨-, hfirst⟩
  · obtain ⟨name, -, hmodify⟩ := Option.bind_eq_some_iff.mp hnewest
    exact h.modifyNamed hchange hmodify
  · obtain ⟨name, -, hmodify⟩ := Option.bind_eq_some_iff.mp hfirst
    exact h.modifyNamed hchange hmodify

end Changing

/-! ## The names in use -/

/-- The address and the name of what is found under a name. -/
def visible (dictionary : Dictionary) : List (Address × String) :=
  (dictionary.order.arrange dictionary.chains.keys).filterMap fun name =>
    ((dictionary.chains.getD name []).find? (! ·.hidden)).map fun entry => (entry.address, name)

theorem IsLoggedAs.mem_visible_iff (h : dictionary.IsLoggedAs log) {found : Address × String} :
    found ∈ dictionary.visible ↔ ∃ entry ∈ log, dictionary.findVisible? entry.name = some entry ∧
      (entry.address, entry.name) = found := by
  have hfind : ∀ entry ∈ log, dictionary.findVisible? entry.name =
      (dictionary.chains.getD entry.name []).find? (! ·.hidden) := by
    intro entry hentry
    rw [findVisible?, Dictionary.chain, h.folded entry hentry]
  rw [visible, List.mem_filterMap]
  constructor
  · rintro ⟨name, -, hfound⟩
    obtain ⟨entry, hentry, rfl⟩ := Option.map_eq_some_iff.mp hfound
    have hlog := List.mem_of_find?_eq_some hentry
    rw [h.chain, List.mem_filter, beq_iff_eq] at hlog
    obtain ⟨hlog, rfl⟩ := hlog
    exact ⟨entry, hlog, by rw [hfind entry hlog, hentry], rfl⟩
  · rintro ⟨entry, hlog, hentry, rfl⟩
    rw [hfind entry hlog] at hentry
    have hname : entry.name ∈ dictionary.chains := by
      by_contra hnone
      rw [Std.TreeMap.getD_eq_fallback hnone] at hentry
      cases hentry
    exact ⟨entry.name, (dictionary.order.perm _).mem_iff.mpr (Std.TreeMap.mem_keys.mpr hname),
      by rw [hentry, Option.map_some]⟩

theorem nodup_visible_names : (dictionary.visible.map Prod.snd).Nodup := by
  have hkeys : (dictionary.order.arrange dictionary.chains.keys).Nodup :=
    (dictionary.order.perm _).nodup_iff.mpr Std.TreeMap.nodup_keys
  refine List.pairwise_map.mpr
    (List.Pairwise.filterMap _ (fun a b hne found hfound found' hfound' heq => ?_) hkeys)
  obtain ⟨entry, -, rfl⟩ := Option.map_eq_some_iff.mp hfound
  obtain ⟨entry', -, rfl⟩ := Option.map_eq_some_iff.mp hfound'
  exact hne heq

/-- **Names are listed by the age of their words.**  If newer words have higher addresses, then the
names in use are listed in the order of the log. -/
theorem IsLoggedAs.visibleNames_eq (h : dictionary.IsLoggedAs log)
    (hsorted : log.Pairwise fun newer older => older.address < newer.address) :
    dictionary.visibleNames =
      (log.filter fun entry => decide (dictionary.findVisible? entry.name = some entry)).map
        Entry.name := by
  let inUse :=
    (log.filter fun entry => decide (dictionary.findVisible? entry.name = some entry)).map
      fun entry => (entry.address, entry.name)
  have hdecreasing : inUse.Pairwise fun a b => b.1 < a.1 :=
    List.pairwise_map.mpr (hsorted.sublist List.filter_sublist)
  have haddresses : (inUse.map Prod.fst).Nodup := List.pairwise_map.mpr <| hdecreasing.imp
    fun hlt => (Int64.ne_of_lt hlt).symm
  have hperm : dictionary.visible.Perm inUse := by
    have hnodup : dictionary.visible.Nodup := nodup_visible_names.of_map
    refine (List.perm_ext_iff_of_nodup hnodup haddresses.of_map).mpr fun found => ?_
    rw [h.mem_visible_iff]
    simp only [inUse, List.mem_map, List.mem_filter, decide_eq_true_eq, and_assoc]
  have hsame : dictionary.visible.mergeSort (fun a b => decide (b.1 ≤ a.1)) = inUse := by
    have hmerge :=
      (List.mergeSort_perm dictionary.visible fun a b => decide (b.1 ≤ a.1)).trans hperm
    refine List.Perm.eq_of_pairwise (fun a b ha hb hab hba => ?_)
      (List.pairwise_mergeSort (fun a b c hab hbc => ?_) (fun a b => ?_) _)
      (hdecreasing.imp fun hlt => ?_) hmerge
    · -- words at the same address are the same
      refine List.inj_on_of_nodup_map haddresses (hmerge.mem_iff.mp ha) hb ?_
      exact Int64.le_antisymm (of_decide_eq_true hba) (of_decide_eq_true hab)
    · exact decide_eq_true (Int64.le_trans (of_decide_eq_true hbc) (of_decide_eq_true hab))
    · have htotal := Int64.le_total b.1 a.1
      simpa using htotal
    · exact decide_eq_true (Int64.le_of_lt hlt)
  rw [show dictionary.visibleNames = _ from congrArg (List.map Prod.snd) hsame, List.map_map]
  rfl

end Logging

end Dictionary

end ThreadedForth
