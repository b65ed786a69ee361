import ThreadedForth.Proofs.Machine.Standard
import ThreadedForth.Proofs.Words.Careful

/-!
# Words for positions

Five words find on top of the parameter stack the position of a value.  `DS-ITEM` and `DSP!` count
from the bottom of the parameter stack and `PICK` from its top, all three without the operand
itself; `RS-ITEM` and `RSP!` count from the bottom of the return stack.

All five check the operand in the same way, and `TakesPosition` says what that means for a word: it
does what it is for exactly if the operand is a position, and otherwise it complains of it and
changes nothing.  What is left to prove for each word is what it does at a position that was
checked: three of them copy a value, and two drop what is above.
-/

namespace ThreadedForth

namespace Stack

variable {kind : StackKind} {stack : Stack kind} {p : Nat}

theorem exists_pick (h : p < stack.size) :
    ∃ v, stack.pick p = .ok v ∧ stack.items[p]? = some v := by
  have hitem : stack.items[p]? = some stack.items[p] := List.getElem?_eq_getElem h
  exact ⟨_, by rw [pick, hitem], hitem⟩

theorem exists_item (h : p < stack.size) :
    ∃ v, stack.item p = .ok v ∧ stack.toList[p]? = some v := by
  have hlt : p < stack.toList.length := by rwa [length_toList]
  have hitem : stack.toList[p]? = some stack.toList[p] := List.getElem?_eq_getElem hlt
  exact ⟨_, item_eq_ok_iff.mpr hitem, hitem⟩

/-- A place counted from the bottom is one counted from the top. -/
theorem getElem?_toList (h : p < stack.size) :
    stack.toList[p]? = stack.items[stack.size - 1 - p]? :=
  List.getElem?_reverse h

/-- If everything above a position is dropped, then that position is the top. -/
theorem pointer_take {kept : Stack kind} (h : p < stack.size)
    (hkept : kept.toList = stack.toList.take (p + 1)) : kept.pointer = .ok p := by
  have hsize : kept.size = p + 1 := by
    rw [← length_toList, hkept, List.length_take, length_toList]
    omega
  rw [pointer, hsize]
  rfl

end Stack

namespace Words

open Effect

variable {s : State} {kind : StackKind} {size : Nat} {u : Int64} {stack : Stack .parameter}
variable {x : Effect Unit} {Q : State → Prop}

/-! ## Checking a position -/

/-- The word takes the integer `u` for a position among `size` values.  If it is one, the word
succeeds and what it leaves is as said; otherwise it complains of `u` and changes nothing. -/
def TakesPosition (x : Effect Unit) (kind : StackKind) (size : Nat) (u : Int64) (s : State)
    (Q : State → Prop) : Prop :=
  if 0 ≤ u.toInt ∧ u.toInt < size then ∃ t, x s = .ok () t ∧ Q t
  else x s = .error { cause := .invalidStackPointer kind u size } s

theorem TakesPosition.exists_ok (h : TakesPosition x kind size u s Q)
    (hinside : 0 ≤ u.toInt ∧ u.toInt < size) : ∃ t, x s = .ok () t ∧ Q t := by
  rwa [TakesPosition, if_pos hinside] at h

/-- More can be said of what a word leaves, given that the operand is a position. -/
theorem TakesPosition.imp {Q' : State → Prop} (h : TakesPosition x kind size u s Q)
    (hQ : 0 ≤ u.toInt → u.toInt < size → ∀ t, Q t → Q' t) :
    TakesPosition x kind size u s Q' := by
  unfold TakesPosition at h ⊢
  split at h
  · rename_i hinside
    obtain ⟨t, hx, ht⟩ := h
    rw [if_pos hinside]
    exact ⟨t, hx, hQ hinside.1 hinside.2 t ht⟩
  · rename_i houtside
    rwa [if_neg houtside]

/-- A word that first has its operand checked needs to be followed for positions only. -/
theorem TakesPosition.of_requested {requested : Effect Nat} {f : Nat → Effect Unit}
    (hrequested : requested s = examine (fun _ => position kind u size) s)
    (h : u.toInt.toNat < size → ∃ t, f u.toInt.toNat s = .ok () t ∧ Q t) :
    TakesPosition (requested >>= f) kind size u s Q := by
  unfold TakesPosition
  split
  · rename_i hinside
    have hposition : position kind u size = .ok u.toInt.toNat :=
      if_pos ⟨Int64.le_iff_toInt_le.mpr hinside.1, hinside.2⟩
    rw [bind_ok (hrequested.trans (examine_ok hposition))]
    exact h (by omega)
  · rename_i houtside
    have hposition : position kind u size = .error (.invalidStackPointer kind u size) := by
      refine if_neg fun hinside => houtside ⟨?_, hinside.2⟩
      exact Int64.le_iff_toInt_le.mp hinside.1
    exact bind_error (hrequested.trans (examine_error hposition))

/-- The operand itself has no position on the parameter stack. -/
theorem requestedParameter_apply (hs : s.parameters = stack.push (.int u)) :
    requestedParameter s = examine (fun _ => position .parameter u stack.size) s := by
  rw [requestedParameter, topInt, bind_ok (examine_ok (topInt_of_push hs)), examine, get_bind, hs]
  rfl

theorem requestedReturn_apply (hs : s.parameters = stack.push (.int u)) :
    requestedReturn s = examine (fun _ => position .returns u s.returns.size) s := by
  rw [requestedReturn, topInt, bind_ok (examine_ok (topInt_of_push hs))]
  rfl

/-! ## Copying a value -/

/-- What was read takes the place of the operand. -/
theorem copy_ok {reading : State → Except Cause Value} {operand v : Value}
    (hs : s.parameters = stack.push operand) (hread : reading s = .ok v) :
    (do let v ← examine reading; discard pop; push v) s =
      .ok () { s with parameters := stack.push v } := by
  rw [bind_ok (examine_ok hread), bind_ok (discard_pop_ok hs)]
  rfl

theorem takesPosition_pickWord (hs : s.parameters = stack.push (.int u)) :
    TakesPosition pickWord .parameter stack.size u s fun t =>
      ∃ v, stack.items[u.toInt.toNat]? = some v ∧ t = { s with parameters := stack.push v } := by
  refine .of_requested (requestedParameter_apply hs) fun hlt => ?_
  obtain ⟨v, hpick, hv⟩ := Stack.exists_pick hlt
  -- the operand is one more value to be skipped
  have hread : s.parameters.pick (u.toInt.toNat + 1) = .ok v := by
    rw [hs]
    exact hpick
  exact ⟨_, copy_ok hs hread, v, hv, rfl⟩

theorem takesPosition_parameterItem (hs : s.parameters = stack.push (.int u)) :
    TakesPosition parameterItem .parameter stack.size u s fun t =>
      ∃ v, stack.toList[u.toInt.toNat]? = some v ∧ t = { s with parameters := stack.push v } := by
  refine .of_requested (requestedParameter_apply hs) fun hlt => ?_
  obtain ⟨v, -, hv⟩ := Stack.exists_item hlt
  -- positions do not change when the operand is pushed
  have hread : s.parameters.item u.toInt.toNat = .ok v := by
    rw [Stack.item_eq_ok_iff, hs, Stack.toList_push, List.getElem?_append_left (by simpa), hv]
  exact ⟨_, copy_ok hs hread, v, hv, rfl⟩

theorem takesPosition_returnItem (hs : s.parameters = stack.push (.int u)) :
    TakesPosition returnItem .returns s.returns.size u s fun t =>
      ∃ v, s.returns.toList[u.toInt.toNat]? = some v ∧
        t = { s with parameters := stack.push v } := by
  refine .of_requested (requestedReturn_apply hs) fun hlt => ?_
  obtain ⟨v, hread, hv⟩ := Stack.exists_item hlt
  exact ⟨_, copy_ok hs hread, v, hv, rfl⟩

/-- The value below `u` others of `n` values is at the position `n - 1 - u`. -/
theorem parameterItem_of_pick {w : Int64} {v : Value} (hs : s.parameters = stack.push (.int w))
    (hlow : 0 ≤ u.toInt) (hhigh : u.toInt < stack.size)
    (hw : w.toInt = stack.size - 1 - u.toInt) (hv : stack.items[u.toInt.toNat]? = some v) :
    parameterItem s = .ok () { s with parameters := stack.push v } := by
  obtain ⟨t, hitem, v', hv', rfl⟩ := (takesPosition_parameterItem hs).exists_ok (by omega)
  have hplace : stack.size - 1 - w.toInt.toNat = u.toInt.toNat := by omega
  rw [Stack.getElem?_toList (by omega), hplace, hv] at hv'
  cases hv'
  exact hitem

/-! ## Dropping what is above -/

theorem takesPosition_setParameterPointer (hs : s.parameters = stack.push (.int u)) :
    TakesPosition setParameterPointer .parameter stack.size u s fun t =>
      ∃ kept : Stack .parameter, kept.toList = stack.toList.take (u.toInt.toNat + 1) ∧
        t = { s with parameters := kept } := by
  refine .of_requested (requestedParameter_apply hs) fun hlt => ?_
  obtain ⟨kept, hkept⟩ := setPointer_ok hlt
  refine ⟨{ s with parameters := kept }, ?_, kept, Stack.toList_setPointer hkept, rfl⟩
  rw [bind_ok (discard_pop_ok hs), bind_ok (examine_ok hkept)]
  rfl

theorem takesPosition_setReturnPointer (hs : s.parameters = stack.push (.int u)) :
    TakesPosition setReturnPointer .returns s.returns.size u s fun t =>
      ∃ kept : Stack .returns, kept.toList = s.returns.toList.take (u.toInt.toNat + 1) ∧
        t = { s with parameters := stack, returns := kept } := by
  refine .of_requested (requestedReturn_apply hs) fun hlt => ?_
  obtain ⟨kept, hkept⟩ := setPointer_ok hlt
  refine ⟨{ s with parameters := stack, returns := kept }, ?_, kept,
    Stack.toList_setPointer hkept, rfl⟩
  rw [bind_ok (discard_pop_ok hs), bind_ok (examine_ok hkept)]
  rfl

/-! ## Reading the pointer back -/

/-- A position that an integer asked for is that integer. -/
theorem count_toNat (h : 0 ≤ u.toInt) : count u.toInt.toNat = .int u := by
  have hle := Int64.toInt_le u
  rw [count, Int.toNat_of_nonneg h, Int.min_eq_left hle, Int64.ofInt_toInt]

theorem parameterPointer_take (h : 0 ≤ u.toInt) (hlt : u.toInt < stack.size)
    (hs : s.parameters.toList = stack.toList.take (u.toInt.toNat + 1)) :
    parameterPointer s = .ok () { s with parameters := s.parameters.push (.int u) } := by
  have hpointer := Stack.pointer_take (by omega) hs
  rw [parameterPointer, bind_ok (examine_ok hpointer), count_toNat h]
  rfl

end Words

open Words

/-- The integer `u` is on the parameter stack, above these values. -/
abbrev State.asking (s : State) (stack : Stack .parameter) (u : Int64) : State :=
  { s with parameters := stack.push (.int u) }

/-- **The words for positions agree and keep to the stack.**  Let an integer `u` be on top of a
parameter stack of `n` values.  `PICK`, `DS-ITEM` and `DSP!` take it for a position among the `n`
values, and `RS-ITEM` and `RSP!` for one on the return stack; where it is none, each of them fails
and changes nothing.  Where it is one, `PICK` copies the value that `DS-ITEM` copies at `n - 1 - u`,
`DSP!` leaves the lowest `u + 1` values, and then `DSP@` pushes `u` again. -/
theorem indexed_words_agree (s : State) (stack : Stack .parameter) (u : Int64) :
    TakesPosition (effectNamed "PICK") .parameter stack.size u (s.asking stack u) (fun t =>
      (∃ v, stack.items[u.toInt.toNat]? = some v ∧ t = { s with parameters := stack.push v }) ∧
      ∀ w : Int64, w.toInt = stack.size - 1 - u.toInt →
        effectNamed "DS-ITEM" (s.asking stack w) = .ok () t) ∧
    TakesPosition (effectNamed "DS-ITEM") .parameter stack.size u (s.asking stack u) (fun t =>
      ∃ v, stack.toList[u.toInt.toNat]? = some v ∧ t = { s with parameters := stack.push v }) ∧
    TakesPosition (effectNamed "DSP!") .parameter stack.size u (s.asking stack u) (fun t =>
      t.parameters.toList = stack.toList.take (u.toInt.toNat + 1) ∧
      t = { s with parameters := t.parameters } ∧
      effectNamed "DSP@" t = .ok () { t with parameters := t.parameters.push (.int u) }) ∧
    TakesPosition (effectNamed "RS-ITEM") .returns s.returns.size u (s.asking stack u) (fun t =>
      ∃ v, s.returns.toList[u.toInt.toNat]? = some v ∧ t = { s with parameters := stack.push v }) ∧
    TakesPosition (effectNamed "RSP!") .returns s.returns.size u (s.asking stack u) (fun t =>
      t.returns.toList = s.returns.toList.take (u.toInt.toNat + 1) ∧
      t = { s with parameters := stack, returns := t.returns }) := by
  have hpick : effectNamed "PICK" = pickWord := rfl
  have hitem : effectNamed "DS-ITEM" = parameterItem := rfl
  have hset : effectNamed "DSP!" = setParameterPointer := rfl
  have hread : effectNamed "DSP@" = parameterPointer := rfl
  have hreturnItem : effectNamed "RS-ITEM" = returnItem := rfl
  have hreturnSet : effectNamed "RSP!" = setReturnPointer := rfl
  have hs : ∀ w, (s.asking stack w).parameters = stack.push (.int w) := fun _ => rfl
  rw [hpick, hitem, hset, hread, hreturnItem, hreturnSet]
  refine ⟨?_, takesPosition_parameterItem (hs u), ?_, takesPosition_returnItem (hs u), ?_⟩
  · refine (takesPosition_pickWord (hs u)).imp fun hlow hhigh t => ?_
    rintro ⟨v, hv, rfl⟩
    refine ⟨⟨v, hv, rfl⟩, fun w hw => ?_⟩
    exact parameterItem_of_pick (hs w) hlow hhigh hw hv
  · refine (takesPosition_setParameterPointer (hs u)).imp fun hlow hhigh t => ?_
    rintro ⟨kept, hkept, rfl⟩
    exact ⟨hkept, rfl, parameterPointer_take hlow hhigh hkept⟩
  · refine (takesPosition_setReturnPointer (hs u)).imp fun _ _ t => ?_
    rintro ⟨kept, hkept, rfl⟩
    exact ⟨hkept, rfl⟩

/-- The lowest of three values is below two others. -/
theorem indexed_words_agree_lowest :
    ∃ (stack : Stack .parameter) (t : State), stack.toList = [.int 10, .int 20, .int 30] ∧
      effectNamed "PICK" (State.asking {} stack 2) = .ok () t ∧
      effectNamed "DS-ITEM" (State.asking {} stack 0) = .ok () t ∧
      t.parameters.toList = [.int 10, .int 20, .int 30, .int 10] := by
  have hpicks := (indexed_words_agree {} ⟨[.int 30, .int 20, .int 10]⟩ 2).1
  obtain ⟨t, hpick, ⟨v, hv, rfl⟩, hitem⟩ := hpicks.exists_ok (by decide)
  cases hv
  exact ⟨_, _, rfl, hpick, hitem 0 (by decide), rfl⟩

end ThreadedForth
