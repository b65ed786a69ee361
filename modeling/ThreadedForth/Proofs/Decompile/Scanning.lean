import ThreadedForth.Decompile
import ThreadedForth.Proofs.Memory.Layout

/-!
# How far a body is scanned

The scan of a body goes from item to item and looks for an end before each.  `Scans` says where it
gets to, and what is proved here of the places is what bounds the scan: they increase, all of them
lie between the entry and `HERE`, and the last item reaches over `HERE` by one cell at most.

The address behind an item is calculated before the scan looks whether there is a next item.  So the
scan has one way to fail, and `exists_scans` says which.
-/

namespace ThreadedForth

namespace State

/-- From a cursor on there are items of the body at those places, one behind the other, and behind
them the scan gets to a last place. -/
inductive Scans (s : State) (kernel : Kernel) (here : Int) : Int → List Int → Int → Prop
  | nil {cursor} : s.Scans kernel here cursor [] cursor
  | cons {cursor items last} (hbelow : cursor < here)
      (hopen : s.closesBody kernel here cursor = false)
      (hmore : s.Scans kernel here (cursor + s.itemSize kernel cursor) items last) :
      s.Scans kernel here cursor (cursor :: items) last

section Scanning

variable {s t : State} {kernel : Kernel} {here cursor last : Int} {items : List Int}

theorem itemSize_le_two (s : State) (kernel : Kernel) (cursor : Int) :
    s.itemSize kernel cursor ≤ 2 := by
  rw [itemSize]
  split
  · split <;> decide
  · decide

/-! ## Where the items are -/

theorem Scans.le_last (h : s.Scans kernel here cursor items last) : cursor ≤ last := by
  induction h with
  | nil => exact Int.le_refl _
  | cons _ _ _ ih => omega

/-- No item begins before the cursor or behind `HERE`. -/
theorem Scans.within (h : s.Scans kernel here cursor items last) :
    ∀ item ∈ items, cursor ≤ item ∧ item < here := by
  induction h with
  | nil => exact fun _ hmem => by cases hmem
  | @cons cursor items last hbelow _ _ ih =>
      refine List.forall_mem_cons.mpr ⟨⟨Int.le_refl _, hbelow⟩, fun item hmem => ?_⟩
      obtain ⟨hle, hlt⟩ := ih item hmem
      exact ⟨by omega, hlt⟩

/-- The scan does not come back to where it was. -/
theorem Scans.increasing (h : s.Scans kernel here cursor items last) :
    items.Pairwise (· < ·) := by
  induction h with
  | nil => exact .nil
  | @cons cursor items last _ _ hmore ih =>
      refine .cons (fun item hmem => ?_) ih
      have hle := (hmore.within item hmem).1
      have hpositive := s.itemSize_pos kernel cursor
      omega

/-- The scan stops at `HERE`, or one cell behind it. -/
theorem Scans.last_le (h : s.Scans kernel here cursor items last) :
    last ≤ max cursor (here + 1) := by
  induction h with
  | nil => exact Int.le_max_left _ _
  | @cons cursor _ _ hbelow _ _ ih =>
      have htwo := s.itemSize_le_two kernel cursor
      omega

/-- The scan stops behind `HERE` exactly if an item with an operand begins right before it. -/
theorem Scans.last_eq_iff (h : s.Scans kernel here cursor items last) (hcursor : cursor ≤ here) :
    last = here + 1 ↔ here - 1 ∈ items ∧ s.itemSize kernel (here - 1) = 2 := by
  induction h with
  | nil => simp; omega
  | @cons cursor items last hbelow _ hmore ih =>
      have htwo := s.itemSize_le_two kernel cursor
      have hpositive := s.itemSize_pos kernel cursor
      rcases Int.lt_or_le here (cursor + s.itemSize kernel cursor) with hbehind | hmiddle
      · -- this item is the last one, and it has an operand
        have hcursor : cursor = here - 1 := by omega
        have hsize : s.itemSize kernel cursor = 2 := by omega
        have hlast := hmore.last_le
        have hle := hmore.le_last
        rw [← hcursor]
        exact ⟨fun _ => ⟨List.mem_cons_self, hsize⟩, fun _ => by omega⟩
      · rw [ih hmiddle, List.mem_cons]
        refine and_congr_left fun hsize => ⟨.inr, fun hmem => hmem.resolve_left ?_⟩
        rintro rfl
        omega

/-! ## The scan -/

/-- The scan gets to `HERE` or to the end of the body, and unless the place behind the last item is
not an address it finds all items on the way. -/
theorem exists_scans (s : State) (kernel : Kernel) {here cursor : Int}
    (hhere : here ≤ Int64.maxValue.toInt) (hcursor : cursor ≤ Int64.maxValue.toInt)
    (found : Array Int) :
    ∃ items last, s.Scans kernel here cursor items last ∧
      (here ≤ last ∨ s.closesBody kernel here last = true) ∧
      s.bodyItems kernel here cursor found =
        if last ≤ Int64.maxValue.toInt then .ok (found ++ items.toArray)
        else .error .addressOverflow := by
  fun_induction State.bodyItems s kernel here cursor found with
  | case1 cursor found hmore hroom ih =>
      obtain ⟨items, last, hscans, hend, hfound⟩ := ih hroom
      refine ⟨cursor :: items, last, .cons hmore.1 hmore.2 hscans, hend, ?_⟩
      rw [hfound]
      simp
  | case2 cursor found hmore hroom =>
      refine ⟨[cursor], _, .cons hmore.1 hmore.2 .nil, .inl (by omega), ?_⟩
      rw [if_neg hroom]
  | case3 cursor found hend =>
      refine ⟨[], cursor, .nil, ?_, ?_⟩
      · rcases Int.lt_or_le cursor here with hlt | hle
        · exact .inr (by simpa [hlt] using hend)
        · exact .inl hle
      · rw [if_pos hcursor]
        simp

/-! ## What the scan looks at -/

theorem closesBody_congr
    (hnames : ∀ address, t.dictionary.nameAt? address = s.dictionary.nameAt? address)
    (hcell : t.memory.get (Int64.ofInt cursor) = s.memory.get (Int64.ofInt cursor)) :
    t.closesBody kernel here cursor = s.closesBody kernel here cursor := by
  rw [closesBody, closesBody, hcell, hnames]

theorem itemSize_congr
    (hcell : t.memory.get (Int64.ofInt cursor) = s.memory.get (Int64.ofInt cursor)) :
    t.itemSize kernel cursor = s.itemSize kernel cursor := by
  rw [itemSize, itemSize, hcell]

/-- The scan looks at the names and at cells before `HERE`. -/
theorem bodyItems_congr
    (hnames : ∀ address, t.dictionary.nameAt? address = s.dictionary.nameAt? address)
    (hcells : ∀ place, cursor ≤ place → place < here →
      t.memory.get (Int64.ofInt place) = s.memory.get (Int64.ofInt place)) (found : Array Int) :
    t.bodyItems kernel here cursor found = s.bodyItems kernel here cursor found := by
  fun_induction State.bodyItems s kernel here cursor found with
  | case1 cursor found hmore hroom ih =>
      have hcell := hcells cursor (Int.le_refl _) hmore.1
      rw [State.bodyItems, closesBody_congr hnames hcell, itemSize_congr hcell, if_pos hmore,
        if_pos hroom]
      exact ih fun place hle => hcells place (by omega)
  | case2 cursor found hmore hroom =>
      have hcell := hcells cursor (Int.le_refl _) hmore.1
      rw [State.bodyItems, closesBody_congr hnames hcell, itemSize_congr hcell, if_pos hmore,
        if_neg hroom]
  | case3 cursor found hend =>
      by_cases hlt : cursor < here
      · rw [State.bodyItems, closesBody_congr hnames (hcells cursor (Int.le_refl _) hlt),
          if_neg hend]
      · rw [State.bodyItems, if_neg fun h => hlt h.1]

/-- An item is shown from the names and from its own cells. -/
theorem itemText_congr {base : Nat}
    (hnames : ∀ address, t.dictionary.nameAt? address = s.dictionary.nameAt? address)
    (hcell : t.memory.get (Int64.ofInt cursor) = s.memory.get (Int64.ofInt cursor))
    (hoperand : t.memory.get (Int64.ofInt (cursor + 1)) = s.memory.get (Int64.ofInt (cursor + 1))) :
    t.itemText kernel base cursor = s.itemText kernel base cursor := by
  simp only [itemText, nameOf, distanceAt, literalAt, hcell, hoperand, hnames]

end Scanning

end State

end ThreadedForth
