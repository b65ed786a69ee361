import ThreadedForth.Proofs.OuterLoop.Publishing
import ThreadedForth.Proofs.Storage.Layout
import ThreadedForth.Proofs.Words.Library

/-!
# Words that make room

Four words of the kernel append cells: `CREATE` and `VARIABLE` a codeword that pushes an address,
`CONSTANT` one that pushes a value, and `ALLOT` cells that hold 0.  Here it is said what each of
them appends, and that a memory which reflects an inventory still does when a definition was
appended.
-/

namespace ThreadedForth

open Definition Effect

/-! ## Names -/

/-- A name that is entered means the definition at once. -/
theorem Dictionary.publishes_define (dictionary : Dictionary) (name : String) (here : Address) :
    (dictionary.define name here false false).Publishes dictionary name here := by
  intro other
  rw [findVisible?, chain_define]
  split
  · rfl
  · rfl

/-- Memory when a name was entered at an address. -/
def Memory.named (memory : Memory) (here : Address) : Memory :=
  memory.set Variable.latest.address (.literal (.int here))

/-- What was appended to such a memory is a definition. -/
theorem Memory.Extends.defines {before after : Memory} {here : Address} {cells : List Cell}
    (h : (before.named here).Extends after here cells) (hlow : 219 ≤ here.toInt)
    (hstate : before.get Variable.state.address = .literal (.int 0)) :
    before.Defines after here cells := by
  have hbelow : ∀ address : Address, 0 < address.toInt → address.toInt < 219 →
      after.get address = (before.named here).get address := by
    intro address hpositive hhigh
    exact h.same_of_lt hpositive (by omega)
  refine ⟨h.holds, h.next, ?_, ?_, fun address hhere _ hlatest houtside => ?_⟩
  · rw [hbelow _ (by decide) (by decide), named, get_set_of_ne _ (by decide), hstate]
  · rw [hbelow _ (by decide) (by decide), named, get_set_self]
  · rw [h.same address hhere houtside, named, get_set_of_ne _ hlatest.symm]

/-! ## Effects -/

section Effects

variable {s : State} {here : Address} {input : Input} {name : String} {v : Value}
variable {rest : Stack .parameter}

theorem nameHere_ok (hhere : s.memory.get Variable.here.address = .literal (.int here))
    (hidden : Bool) :
    Words.nameHere name hidden s = .ok () { s with
      memory := s.memory.named here
      dictionary := s.dictionary.define name here false hidden } := by
  rw [Words.nameHere, bind_ok (examine_ok (here_of_get hhere))]
  rfl

/-- Behind a name that was entered the codeword is appended. -/
theorem header_ok (name : String) (codeword : Cell)
    (hhere : s.memory.get Variable.here.address = .literal (.int here)) (hlow : 219 ≤ here.toInt)
    (hroom : here.toInt < Int64.maxValue.toInt) :
    ∃ memory, (s.memory.named here).Extends memory here [codeword] ∧
      compile codeword { s with
          memory := s.memory.named here
          dictionary := s.dictionary.define name here false false } =
        .ok here { s with memory, dictionary := s.dictionary.define name here false false } := by
  have hnamed : (s.memory.named here).get Variable.here.address = .literal (.int here) := by
    rw [Memory.named, Memory.get_set_of_ne _ (by decide)]
    exact hhere
  exact compile_extends (s := { s with
    memory := s.memory.named here
    dictionary := s.dictionary.define name here false false }) codeword hnamed (by omega) hroom

theorem create_ok (hkernel : s.kernel? = some standardKernel)
    (hread : s.input.readToken = (some name, input))
    (hhere : s.memory.get Variable.here.address = .literal (.int here)) (hlow : 219 ≤ here.toInt)
    (hroom : here.toInt < Int64.maxValue.toInt) :
    ∃ memory, (s.memory.named here).Extends memory here [.native standardKernel.dovar] ∧
      Words.create s = .ok () { s with
        input, memory, dictionary := s.dictionary.define name here false false } := by
  have hread' : s.kernel = .ok standardKernel := by rw [State.kernel, hkernel]
  obtain ⟨memory, hextends, hcompile⟩ := header_ok (s := { s with input }) name
    (.native standardKernel.dovar) hhere hlow hroom
  refine ⟨memory, hextends, ?_⟩
  rw [Words.create, bind_ok (examine_ok hread'), bind_ok (readToken_ok hread),
    bind_ok (nameHere_ok (s := { s with input }) hhere false)]
  exact discard_ok hcompile

theorem variableWord_ok (hkernel : s.kernel? = some standardKernel)
    (hread : s.input.readToken = (some name, input))
    (hhere : s.memory.get Variable.here.address = .literal (.int here)) (hlow : 219 ≤ here.toInt)
    (hroom : here.toInt + 2 ≤ Int64.maxValue.toInt) :
    ∃ memory, (s.memory.named here).Extends memory here
        [.native standardKernel.dovar, .literal (.int 0)] ∧
      Words.variableWord s = .ok () { s with
        input, memory, dictionary := s.dictionary.define name here false false } := by
  have hone : (here + 1).toInt = here.toInt + 1 := Address.toInt_add_one (by omega)
  obtain ⟨middle, hfirst, hcreate⟩ := create_ok hkernel hread hhere hlow (by omega)
  have hnext : middle.get Variable.here.address = .literal (.int (here + 1)) := hfirst.next
  obtain ⟨memory, hsecond, hcompile⟩ := compile_extends (s := { s with
    input, memory := middle, dictionary := s.dictionary.define name here false false })
    (.literal (.int 0)) hnext (by omega) (by omega)
  refine ⟨memory, hfirst.trans hsecond (by omega) hroom, ?_⟩
  rw [Words.variableWord, bind_ok hcreate]
  exact discard_ok hcompile

theorem constant_ok (hkernel : s.kernel? = some standardKernel)
    (hparameters : s.parameters = rest.push v) (hread : s.input.readToken = (some name, input))
    (hhere : s.memory.get Variable.here.address = .literal (.int here)) (hlow : 219 ≤ here.toInt)
    (hroom : here.toInt + 2 ≤ Int64.maxValue.toInt) :
    ∃ memory, (s.memory.named here).Extends memory here
        [.native standardKernel.docon, .literal v] ∧
      Words.constant s = .ok () { s with
        input, memory, parameters := rest
        dictionary := s.dictionary.define name here false false } := by
  have hread' : s.kernel = .ok standardKernel := by rw [State.kernel, hkernel]
  have hone : (here + 1).toInt = here.toInt + 1 := Address.toInt_add_one (by omega)
  have hpeek : discard peek s = .ok () s := by
    refine discard_ok (a := v) (examine_ok ?_)
    rw [hparameters]
    rfl
  have hpop : pop { s with input } = .ok v { s with input, parameters := rest } := by
    rw [pop_apply, hparameters, Stack.pop_push]
  obtain ⟨middle, hfirst, hheader⟩ := header_ok (s := { s with input, parameters := rest })
    name (.native standardKernel.docon) hhere hlow (by omega)
  have hnext : middle.get Variable.here.address = .literal (.int (here + 1)) := hfirst.next
  obtain ⟨memory, hsecond, hcompile⟩ := compile_extends (s := { s with
    input, parameters := rest, memory := middle
    dictionary := s.dictionary.define name here false false })
    (.literal v) hnext (by omega) (by omega)
  refine ⟨memory, hfirst.trans hsecond (by omega) hroom, ?_⟩
  rw [Words.constant, bind_ok (examine_ok hread'), bind_ok hpeek, bind_ok (readToken_ok hread),
    bind_ok hpop, bind_ok (nameHere_ok (s := { s with input, parameters := rest }) hhere false),
    bind_ok (discard_ok hheader)]
  exact discard_ok hcompile

/-- A cell is appended as often as it is compiled. -/
theorem compileTimes_ok (cell : Cell) {n : ℕ}
    (hhere : s.memory.get Variable.here.address = .literal (.int here)) (hlow : 0 < here.toInt)
    (hroom : here.toInt + n ≤ Int64.maxValue.toInt) :
    ∃ memory, s.memory.Extends memory here (List.replicate n cell) ∧
      Words.compileTimes cell n s = .ok () { s with memory } := by
  induction n generalizing s here with
  | zero => exact ⟨s.memory, Memory.extends_nil hhere, rfl⟩
  | succ n ih =>
      have hone : (here + 1).toInt = here.toInt + 1 := Address.toInt_add_one (by omega)
      obtain ⟨middle, hfirst, hcompile⟩ := compile_extends cell hhere hlow (by omega)
      have hnext : middle.get Variable.here.address = .literal (.int (here + 1)) := hfirst.next
      obtain ⟨memory, hrest, htimes⟩ := ih (s := { s with memory := middle }) hnext (by omega)
        (by omega)
      refine ⟨memory, hfirst.trans hrest hlow (by simp; omega), ?_⟩
      rw [Words.compileTimes, bind_ok (discard_ok hcompile)]
      exact htimes

theorem allot_ok {n : ℕ} (hparameters : s.parameters = rest.push v) (hv : v = .int (Int64.ofNat n))
    (hlimit : n ≤ 2 ^ 20)
    (hhere : s.memory.get Variable.here.address = .literal (.int here)) (hlow : 0 < here.toInt)
    (hroom : here.toInt + n ≤ Int64.maxValue.toInt) :
    ∃ memory, s.memory.Extends memory here (List.replicate n (.literal (.int 0))) ∧
      Words.allot s = .ok () { s with memory, parameters := rest } := by
  subst hv
  have hn : (Int64.ofNat n).toInt = n := Int64.toInt_ofNat_of_lt (by omega)
  have hwithin : ¬Words.allotLimit.toInt < (Int64.ofNat n).toInt.natAbs := by
    have hallot : Words.allotLimit.toInt = 1048576 := rfl
    omega
  have hpositive : ¬Int64.ofNat n < 0 := by
    rw [Int64.lt_iff_toInt_lt, hn]
    exact Int.not_lt.mpr (Int.natCast_nonneg n)
  have htimes : (Int64.ofNat n).toNatClampNeg = n := Int64.toNatClampNeg_ofNat_of_lt (by omega)
  obtain ⟨memory, hextends, hcompile⟩ := compileTimes_ok (s := { s with parameters := rest })
    (.literal (.int 0)) hhere hlow hroom
  refine ⟨memory, hextends, ?_⟩
  rw [Words.allot, topInt, bind_ok (examine_ok (topInt_of_push hparameters)), if_neg hwithin]
  change (examine State.here >>= fun here => discard pop >>= fun _ =>
    if Int64.ofNat n < 0 then writeVariable .here (Words.clampedAdd here (Int64.ofNat n))
    else Words.compileTimes (.literal (.int 0)) (Int64.ofNat n).toNatClampNeg) s = _
  rw [bind_ok (examine_ok (here_of_get hhere)), bind_ok (Words.discard_pop_ok hparameters),
    if_neg hpositive, htimes]
  exact hcompile

end Effects

/-! ## Inventories -/

section Inventories

variable {definitions : List Definition} {storage : Storage} {memory after : Memory}
variable {name token : String} {shape : Shape}

/-- The slots of other names keep their values when a name is added. -/
theorem values_clear (hname : name ≠ token) :
    (storage.clear token).values name = storage.values name := by
  funext index
  simp [Storage.clear, hname]

/-- All slots of a new variable or buffer hold 0. -/
theorem cells_clear (definitions : List Definition) (storage : Storage) (name : String) (n : ℕ) :
    Definition.cells definitions (storage.clear name).values ⟨name, .storage n⟩ =
      .native standardKernel.dovar :: List.replicate n (.literal (.int 0)) := by
  simp [Definition.cells, Storage.clear]

/-- A token that the program did not define is no name of a definition. -/
theorem notMem_of_isFree (h : isFree definitions token = true) :
    Dictionary.fold token ∉ definitions.map Definition.name := by
  rw [isFree, Option.isNone_iff_eq_none, named?, List.find?_eq_none] at h
  intro hmem
  obtain ⟨definition, hdefinition, hname⟩ := List.mem_map.mp hmem
  exact h definition hdefinition (decide_eq_true hname)

/-- **A definition that is appended is reflected**, and the others still are. -/
theorem Memory.Reflects.define (h : memory.Reflects definitions storage.values)
    (hname : name ∉ definitions.map Definition.name)
    (hroom : (past (⟨name, shape⟩ :: definitions) : ℤ) ≤ Int64.maxValue.toInt)
    (hdefines : memory.Defines after (Int64.ofNat (past definitions))
      (Definition.cells definitions (storage.clear name).values ⟨name, shape⟩)) :
    after.Reflects (⟨name, shape⟩ :: definitions) (storage.clear name).values := by
  have hlow := le_past definitions
  have hplace := toInt_past h.room
  have hbelow : ∀ address : Address, 4 ≤ address.toInt → address.toInt < past definitions →
      after.get address = memory.get address := by
    intro address hfour hhigh
    have hne : ∀ other : Address, other.toInt < 4 → address ≠ other := by
      rintro other hother rfl
      omega
    exact hdefines.same address (hne _ (by decide)) (hne _ (by decide)) (hne _ (by decide))
      (.inl (by omega))
  have holder : memory.Represents (storage.clear name).values definitions := by
    refine h.cells.congr_values fun definition hdefinition => values_clear ?_
    rintro rfl
    exact hname (List.mem_map_of_mem hdefinition)
  constructor
  · refine h.toIsIntact.congr fun address hfour hhigh => hbelow address hfour ?_
    rw [Outfit.standard_past] at hhigh
    omega
  · rw [hdefines.same _ (by decide) (by decide) (by decide) (.inl ?_)]
    · exact h.base
    · rw [hplace]
      exact Int.lt_of_lt_of_le (by decide) (Int.ofNat_le.mpr hlow)
  · exact ⟨hdefines.holds, holder.congr h.room fun address hlow hhigh =>
      hbelow address (by omega) hhigh⟩
  · exact List.nodup_cons.mpr ⟨hname, h.distinct⟩
  · exact hroom

end Inventories

end ThreadedForth
