import ThreadedForth.Proofs.Decompile.Scanning
import ThreadedForth.Proofs.Effect.Laws
import ThreadedForth.Proofs.Machine.Standard

/-!
# Decompiling stays within bounds

Decompiling a definition reads its codeword and what the scan of its body reads, and the scan reads
no more cells than there are from the codeword to `HERE`.  All other cells can be anything.

It does not always succeed, though.  A literal or a branch that is only half compiled can end at the
last address, and then there is no address behind it.
-/

namespace ThreadedForth

open Effect

/-- Whether two outcomes are the same can be computed. -/
instance decidableEqExcept {ε α : Type} [DecidableEq ε] [DecidableEq α] :
    DecidableEq (Except ε α)
  | .ok a, .ok b => decidable_of_iff (a = b) ⟨congrArg _, Except.ok.inj⟩
  | .error a, .error b => decidable_of_iff (a = b) ⟨congrArg _, Except.error.inj⟩
  | .ok _, .error _ => isFalse nofun
  | .error _, .ok _ => isFalse nofun

/-- There is a next address unless there is not. -/
theorem Address.next_cases (address : Address) :
    address = Int64.maxValue ∧ address.next = .error .addressOverflow ∨
      address.next = .ok (address + 1) ∧ (address + 1).toInt = address.toInt + 1 := by
  by_cases hlast : address = Int64.maxValue
  · exact .inl ⟨hlast, if_pos hlast⟩
  · have hle := address.toInt_le
    have hne : address.toInt ≠ Int64.maxValue.toInt := fun heq => hlast (Int64.toInt_inj.mp heq)
    exact .inr ⟨if_neg hlast, Address.toInt_add_one (by omega)⟩

theorem Address.toInt_ofInt_of_between {address : Address} {place : Int}
    (hlow : address.toInt ≤ place) (hhigh : place ≤ Int64.maxValue.toInt) :
    (Int64.ofInt place).toInt = place := by
  have hmin := address.le_toInt
  have hmax : Int64.maxValue.toInt = 9223372036854775807 := rfl
  exact Int64.toInt_ofInt_of_le (by omega) (by omega)

namespace State

/-- How many cells a scan reads that begins at one place and gets to another: those of the items,
and the return at which it stops if that is before `HERE`. -/
def cellsRead (here first last : Int) : Int :=
  last - first + if last < here then 1 else 0

section Decompiling

variable {s t : State} {entry : Entry} {kernel : Kernel} {base : Nat} {here : Address}
variable {items : List Int} {last : Int}

/-- A scan reads no more cells than there are from the codeword to `HERE`. -/
theorem Scans.cellsRead_le {start : Int}
    (h : s.Scans kernel here.toInt (start + 1) items last) :
    cellsRead here.toInt (start + 1) last ≤ max 0 (here.toInt - start) := by
  have hlast := h.last_le
  have hle := h.le_last
  rw [cellsRead]
  split <;> omega

/-! ## What an entry is shown as -/

/-- A definition is shown as the items that the scan finds. -/
theorem decompile_definition (hkernel : s.kernel = .ok kernel) (hbase : s.base = .ok base)
    (hhere : s.here = .ok here) (hcell : s.memory.get entry.address = .native kernel.docol) :
    s.decompile entry = (do
      let first ← entry.address.next
      let items ← s.bodyItems kernel here.toInt first.toInt #[]
      return s.definitionSource kernel base entry items.toList) := by
  simp only [decompile, hkernel, hbase, hhere, hcell, bind, Except.bind, if_true]

/-- A definition is shown in full unless the scan gets to a place that has no address. -/
theorem exists_decompiled (hkernel : s.kernel = .ok kernel) (hbase : s.base = .ok base)
    (hhere : s.here = .ok here) (hcell : s.memory.get entry.address = .native kernel.docol)
    (hstart : entry.address ≠ Int64.maxValue) :
    ∃ items last, s.Scans kernel here.toInt (entry.address.toInt + 1) items last ∧
      s.decompile entry =
        if last ≤ Int64.maxValue.toInt then .ok (s.definitionSource kernel base entry items)
        else .error .addressOverflow := by
  obtain ⟨hlast, -⟩ | ⟨hnext, hfirst⟩ := entry.address.next_cases
  · exact absurd hlast hstart
  obtain ⟨items, last, hscans, -, hitems⟩ :=
    s.exists_scans kernel here.toInt_le (entry.address + 1).toInt_le #[]
  refine ⟨items, last, hfirst ▸ hscans, ?_⟩
  rw [decompile_definition hkernel hbase hhere hcell, hnext]
  change (s.bodyItems kernel here.toInt (entry.address + 1).toInt #[] >>= _) = _
  rw [hitems]
  split
  · simp [bind, Except.bind, pure, Except.pure]
  · rfl

/-- What is no definition is shown unless it is a constant and the cell behind it has no address. -/
theorem decompile_other_overflows_iff (hkernel : s.kernel = .ok kernel) (hbase : s.base = .ok base)
    (hhere : s.here = .ok here) (hcell : s.memory.get entry.address ≠ .native kernel.docol)
    (hdistinct : kernel.docon ≠ kernel.dovar) :
    s.decompile entry = .error .addressOverflow ↔
      s.memory.get entry.address = .native kernel.docon ∧ entry.address = Int64.maxValue := by
  rcases hget : s.memory.get entry.address with id | target | v | _
  · have hdocol : id ≠ kernel.docol := by
      rintro rfl
      exact hcell hget
    simp only [decompile, hkernel, hbase, hhere, hget, bind, Except.bind, if_neg hdocol]
    by_cases hdovar : id = kernel.dovar
    · have hdocon : id ≠ kernel.docon := fun heq => hdistinct (heq.symm.trans hdovar)
      rw [if_pos hdovar]
      simp [pure, Except.pure, hdocon]
    rw [if_neg hdovar]
    by_cases hdocon : id = kernel.docon
    · rw [if_pos hdocon, Address.next]
      by_cases hlast : entry.address = Int64.maxValue
      · simp [hlast, hdocon]
      · rw [if_neg hlast]
        simp only [literalAt]
        cases (s.memory.get (entry.address + 1)).asLiteral? <;> simp [pure, Except.pure, hlast]
    · rw [if_neg hdocon]
      simp [pure, Except.pure, hdocon]
  all_goals
    simp [decompile, hkernel, hbase, hhere, hget, bind, Except.bind, pure, Except.pure]

/-! ## What is looked at -/

/-- Items are shown from the names and from the cells up to `HERE`. -/
theorem definitionSource_congr {cursor : Int}
    (hscans : s.Scans kernel here.toInt cursor items last)
    (hnames : ∀ address, t.dictionary.nameAt? address = s.dictionary.nameAt? address)
    (hcells : ∀ place, cursor ≤ place → place ≤ here.toInt →
      t.memory.get (Int64.ofInt place) = s.memory.get (Int64.ofInt place)) :
    t.definitionSource kernel base entry items = s.definitionSource kernel base entry items := by
  have htext : items.map (t.itemText kernel base) = items.map (s.itemText kernel base) := by
    refine List.map_congr_left fun item hmem => ?_
    obtain ⟨hlow, hhigh⟩ := hscans.within item hmem
    exact itemText_congr hnames (hcells item hlow (by omega)) (hcells (item + 1) (by omega) hhigh)
  rw [definitionSource, definitionSource, htext]

/-- A definition is shown from the names and from the cells up to `HERE`. -/
theorem bind_bodyItems_congr
    (hnames : ∀ address, t.dictionary.nameAt? address = s.dictionary.nameAt? address)
    {first : Address} (hcells : ∀ place, first.toInt ≤ place → place ≤ here.toInt →
      t.memory.get (Int64.ofInt place) = s.memory.get (Int64.ofInt place)) :
    (t.bodyItems kernel here.toInt first.toInt #[] >>= fun items =>
        pure (t.definitionSource kernel base entry items.toList)) =
      s.bodyItems kernel here.toInt first.toInt #[] >>= fun items =>
        pure (s.definitionSource kernel base entry items.toList) := by
  rw [bodyItems_congr hnames fun place hlow hhigh => hcells place hlow (by omega)]
  obtain ⟨items, last, hscans, -, hitems⟩ :=
    s.exists_scans kernel here.toInt_le first.toInt_le #[]
  rw [hitems]
  split
  · have hsame : t.definitionSource kernel base entry items = _ :=
      definitionSource_congr hscans hnames hcells
    simpa [bind, Except.bind, pure, Except.pure] using hsame
  · rfl

/-- Decompiling depends on nothing but the names, the variables, and the cells from the codeword to
`HERE`, or to the one behind the codeword if that is further. -/
theorem decompile_congr (hkernel : t.kernel? = s.kernel?)
    (hnames : ∀ address, t.dictionary.nameAt? address = s.dictionary.nameAt? address)
    (hvariables : ∀ v : Variable, t.memory.get v.address = s.memory.get v.address)
    (hhere : s.here = .ok here)
    (hcells : ∀ address : Address, entry.address.toInt ≤ address.toInt →
      address.toInt ≤ max (entry.address.toInt + 1) here.toInt →
      t.memory.get address = s.memory.get address) :
    t.decompile entry = s.decompile entry := by
  have hkernel' : t.kernel = s.kernel := by rw [State.kernel, State.kernel, hkernel]
  have hbase : t.base = s.base := base_congr (hvariables .base)
  have hhere' : t.here = .ok here := by
    rw [← hhere]
    simp only [State.here, readVariable, hvariables]
  have hcodeword := hcells entry.address (Int.le_refl _) (by omega)
  -- behind the codeword everything is the same, if there is anything behind it
  have hbehind : ∀ {α : Type} (f g : Address → Except Cause α),
      (∀ first : Address, first.toInt = entry.address.toInt + 1 → f first = g first) →
      entry.address.next >>= f = entry.address.next >>= g := by
    intro α f g hsame
    rcases entry.address.next_cases with ⟨-, hnext⟩ | ⟨hnext, hfirst⟩
    · rw [hnext]
      rfl
    · rw [hnext]
      exact hsame _ hfirst
  have hbody : ∀ kernel base,
      (entry.address.next >>= fun first =>
        t.bodyItems kernel here.toInt first.toInt #[] >>= fun items =>
          pure (t.definitionSource kernel base entry items.toList)) =
        entry.address.next >>= fun first =>
          s.bodyItems kernel here.toInt first.toInt #[] >>= fun items =>
            pure (s.definitionSource kernel base entry items.toList) := by
    refine fun kernel base => hbehind _ _ fun first hfirst => ?_
    refine bind_bodyItems_congr hnames fun place hlow hhigh => ?_
    have hhere := here.toInt_le
    have hplace := Address.toInt_ofInt_of_between hlow (by omega)
    exact hcells _ (by omega) (by omega)
  have hoperand : ∀ f : Value → Except Cause String,
      (entry.address.next >>= fun first => t.literalAt first >>= f) =
        entry.address.next >>= fun first => s.literalAt first >>= f := by
    refine fun f => hbehind _ _ fun first hfirst => ?_
    rw [literalAt, literalAt, hcells first (by omega) (by omega)]
  have hread : ∀ f : Address → Except Cause String, (Except.ok here >>= f) = f here := fun _ => rfl
  simp only [decompile, hkernel', hbase, hhere', hhere, hcodeword, hread, hbody, hoperand]

/-! ## The theorem -/

/-- The entry is shown as the items at those places, if it is a definition, and unless the cell
behind its codeword or behind the last item has no address. -/
structure IsShown (s : State) (kernel : Kernel) (entry : Entry) (base : Nat) (here : Address)
    (items : List Int) (last : Int) : Prop where
  scans : s.Scans kernel here.toInt (entry.address.toInt + 1) items last
  source : s.memory.get entry.address = .native kernel.docol →
    s.decompile entry = .ok (s.definitionSource kernel base entry items) ∨
      s.decompile entry = .error .addressOverflow
  overflows : s.decompile entry = .error .addressOverflow ↔
    entry.address = Int64.maxValue ∧
        (s.memory.get entry.address = .native kernel.docol ∨
          s.memory.get entry.address = .native kernel.docon) ∨
      s.memory.get entry.address = .native kernel.docol ∧ here = Int64.maxValue ∧
        here.toInt - 1 ∈ items ∧ s.itemSize kernel (here.toInt - 1) = 2

theorem exists_isShown (hkernel : s.kernel = .ok kernel) (hdistinct : kernel.docon ≠ kernel.dovar)
    (hbase : s.base = .ok base) (hhere : s.here = .ok here) :
    ∃ items last, s.IsShown kernel entry base here items last := by
  by_cases hcell : s.memory.get entry.address = .native kernel.docol
  · obtain ⟨hlast, hnext⟩ | ⟨hnext, hfirst⟩ := entry.address.next_cases
    · have hoverflow : s.decompile entry = .error .addressOverflow := by
        rw [decompile_definition hkernel hbase hhere hcell, hnext]
        rfl
      exact ⟨[], _, .nil, fun _ => .inr hoverflow,
        fun _ => .inl ⟨hlast, .inl hcell⟩, fun _ => hoverflow⟩
    have hstart : entry.address ≠ Int64.maxValue := by
      intro hlast
      rw [Address.next, if_pos hlast] at hnext
      cases hnext
    obtain ⟨items, last, hscans, hresult⟩ :=
      exists_decompiled hkernel hbase hhere hcell hstart
    have hend := hscans.last_le
    have hlow := hscans.le_last
    have hmax := (entry.address + 1).toInt_le
    have hhigh := here.toInt_le
    refine ⟨items, last, hscans, fun _ => ?_, ?_⟩
    · rw [hresult]
      split
      · exact .inl rfl
      · exact .inr rfl
    rw [hresult]
    constructor
    · intro hoverflow
      split at hoverflow
      · cases hoverflow
      rename_i hbehind
      have hhere : here = Int64.maxValue := Int64.toInt_inj.mp (by omega)
      exact .inr ⟨hcell, hhere, (hscans.last_eq_iff (by omega)).mp (by omega)⟩
    · rintro (⟨hlast, -⟩ | ⟨-, rfl, hitem⟩)
      · exact absurd hlast hstart
      · have hlast := (hscans.last_eq_iff (by omega)).mpr hitem
        exact if_neg (by omega)
  · have hoverflows := decompile_other_overflows_iff hkernel hbase hhere hcell hdistinct
    refine ⟨[], _, .nil, fun h => absurd h hcell, hoverflows.trans ⟨?_, ?_⟩⟩
    · exact fun ⟨hdocon, hlast⟩ => .inl ⟨hlast, .inr hdocon⟩
    · rintro (⟨hlast, hdocol | hdocon⟩ | ⟨hdocol, -⟩)
      · exact absurd hdocol hcell
      · exact ⟨hdocon, hlast⟩
      · exact absurd hdocol hcell

theorem readVariable_ne_overflow (s : State) (v : Variable) :
    s.readVariable v ≠ .error .addressOverflow := by
  rw [readVariable]
  split
  · rename_i held _
    cases held <;> exact fun h => by cases h
  · exact fun h => by cases h

theorem base_ne_overflow (s : State) : s.base ≠ .error .addressOverflow := by
  rw [State.base]
  rcases hread : s.readVariable .base with cause | n
  · intro h
    cases h
    exact s.readVariable_ne_overflow .base hread
  · simp only [bind, Except.bind]
    split <;> simp

/-- **Decompiling is bounded by `HERE`, and it overflows at the end of memory only.**  In any state
of a machine that knows its kernel, one in which variables and constants do not begin with the same
primitive, and for any entry, decompiling either fails since `BASE` or `HERE`
holds nothing of use, or there is a scan of the cells behind the codeword such that
* the items that it finds follow one another, between the codeword and `HERE`;
* it reads no more cells than there are from the codeword to `HERE`;
* no other cells but those, the codeword, the one behind it and the variables have a say;
* a definition is shown as these items unless an address overflows;
* an address overflows exactly if the codeword of a definition or of a constant is the last cell
  that there is, or if `HERE` is the last address and the cell before it holds the beginning of an
  item with an operand, that is, of a literal or a branch that is only half compiled. -/
theorem decompile_is_bounded (hkernel : s.kernel? = some kernel)
    (hdistinct : kernel.docon ≠ kernel.dovar) (entry : Entry) :
    (∃ cause, cause ≠ .addressOverflow ∧ (s.base = .error cause ∨ s.here = .error cause) ∧
      s.decompile entry = .error cause) ∨
    ∃ base here items last, s.base = .ok base ∧ s.here = .ok here ∧
      s.IsShown kernel entry base here items last ∧ items.Pairwise (· < ·) ∧
      (∀ item ∈ items, entry.address.toInt < item ∧ item < here.toInt) ∧
      cellsRead here.toInt (entry.address.toInt + 1) last ≤
        max 0 (here.toInt - entry.address.toInt) ∧
      ∀ t : State, t.kernel? = s.kernel? →
        (∀ address, t.dictionary.nameAt? address = s.dictionary.nameAt? address) →
        (∀ v : Variable, t.memory.get v.address = s.memory.get v.address) →
        (∀ address : Address, entry.address.toInt ≤ address.toInt →
          address.toInt ≤ max (entry.address.toInt + 1) here.toInt →
          t.memory.get address = s.memory.get address) →
        t.decompile entry = s.decompile entry := by
  have hread : s.kernel = .ok kernel := by rw [State.kernel, hkernel]
  rcases hbase : s.base with cause | base
  · refine .inl ⟨cause, ?_, .inl rfl, ?_⟩
    · rintro rfl
      exact s.base_ne_overflow hbase
    · simp only [decompile, hread, hbase]
      rfl
  rcases hhere : s.here with cause | here
  · refine .inl ⟨cause, ?_, .inr rfl, ?_⟩
    · rintro rfl
      exact s.readVariable_ne_overflow .here hhere
    · simp only [decompile, hread, hbase, hhere]
      rfl
  obtain ⟨items, last, hshown⟩ : ∃ items last, s.IsShown kernel entry base here items last :=
    exists_isShown hread hdistinct hbase hhere
  refine .inr ⟨base, here, items, last, rfl, rfl, hshown, hshown.scans.increasing,
    fun item hmem => ?_, hshown.scans.cellsRead_le, fun t hkernel hnames hvariables hcells =>
      decompile_congr hkernel hnames hvariables hhere hcells⟩
  obtain ⟨hlow, hhigh⟩ := hshown.scans.within item hmem
  exact ⟨by omega, hhigh⟩

end Decompiling

end State

/-- After an ordinary definition there are five cells from its codeword to `HERE`, and no address
overflows. -/
theorem decompile_is_bounded_ordinary :
    ∃ outcome ∈ Machine.booted.runSource 300 ": N 5 DUP ;",
      ∃ entry ∈ outcome.2.state.dictionary.find? "N", ∃ base here items last,
        outcome.2.state.IsShown standardKernel entry base here items last ∧ items.Pairwise (· < ·) ∧
        State.cellsRead here.toInt (entry.address.toInt + 1) last ≤ 5 ∧
        outcome.2.state.decompile entry ≠ .error .addressOverflow := by
  obtain ⟨outcome, hrun, entry, hentry, hkernel, hbase, hhere, haddress⟩ :
      ∃ outcome ∈ Machine.booted.runSource 300 ": N 5 DUP ;",
        ∃ entry ∈ outcome.2.state.dictionary.find? "N",
          outcome.2.state.kernel? = some standardKernel ∧ outcome.2.state.base = .ok 10 ∧
          outcome.2.state.here = .ok 224 ∧ entry.address = 219 := by
    decide +kernel
  refine ⟨outcome, hrun, entry, hentry, ?_⟩
  rcases State.decompile_is_bounded hkernel (by decide) entry with
    ⟨cause, -, herror, -⟩ | ⟨base, here, items, last, -, hhere', hshown, hincreasing, -, hread, -⟩
  · rw [hbase, hhere] at herror
    rcases herror with herror | herror <;> cases herror
  · cases hhere.symm.trans hhere'
    have hfive : max 0 (Int64.toInt 224 - entry.address.toInt) ≤ 5 := by
      rw [haddress]
      decide
    refine ⟨base, 224, items, last, hshown, hincreasing, Int.le_trans hread hfive,
      fun hoverflow => ?_⟩
    rcases hshown.overflows.mp hoverflow with ⟨hlast, -⟩ | ⟨-, hlast, -⟩
    · rw [haddress] at hlast
      exact absurd hlast (by decide)
    · exact absurd hlast (by decide)

/-- Memory ends between `LIT` and its operand, and the definition that they are part of cannot be
shown. -/
theorem decompile_overflows_half_compiled :
    ∃ outcome ∈ Machine.booted.runSource 300 "9223372036854775805 HERE ! : X 5",
      ∃ entry ∈ outcome.2.state.dictionary.find? "X",
        outcome.1 = .ok .endOfInput ∧
        outcome.2.state.decompile entry = .error .addressOverflow := by
  decide +kernel

end ThreadedForth
