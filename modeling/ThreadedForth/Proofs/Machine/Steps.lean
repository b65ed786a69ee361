import Mathlib.Logic.Relation
import ThreadedForth.Proofs.Effect.Laws
import ThreadedForth.Proofs.Machine.Outfit

/-!
# Steps

What one step does is read off the cell at `ip`, and there is one equation for each kind of cell.
A reference to a primitive takes three steps: to the primitive, to the trampoline after it, and
back.  To those who only want to know what the primitive does this is one move, and `Reaches` takes
moves together.  Which words there are besides those of the kernel does not matter, so the machine
may have any outfit.

A step that is part of a `Reaches` neither fails nor halts.  So the machine makes all of these steps
in a row whatever runs it, be it `stepTimes` or a run with fuel.
-/

namespace ThreadedForth

open Effect

variable {s t : State} {table : PrimitiveTable}

/-! ## One step -/

/-- A reference leads to its target, and threaded code comes back behind it. -/
theorem step_reference {target : Address} (hcell : s.memory.get s.ip = .reference target) :
    step table s = .ok s.halt?
      { s with nip := if s.depth = 0 then s.nip else s.ip + 1, ip := target, halt? := none } := by
  simp only [step, hcell, finish]

/-- After a primitive that leaves it to the machine, the next cell follows. -/
theorem step_advance {id : Nat} {word : Primitive} (hcell : s.memory.get s.ip = .native id)
    (hword : table.lookup id = .ok word) (hcontrol : word.control = .advance)
    (heffect : word.effect s = .ok () t) :
    step table s = .ok t.halt? { t with ip := s.ip + 1, halt? := none } := by
  simp only [step, hcell, hword, heffect, hcontrol, finish]

theorem step_owned {id : Nat} {word : Primitive} (hcell : s.memory.get s.ip = .native id)
    (hword : table.lookup id = .ok word) (hcontrol : word.control = .owned)
    (heffect : word.effect s = .ok () t) :
    step table s = .ok t.halt? { t with halt? := none } := by
  simp only [step, hcell, hword, heffect, hcontrol, finish]

/-- If a primitive fails, so does the step. -/
theorem step_native_error {id : Nat} {word : Primitive} {error : Error}
    (hcell : s.memory.get s.ip = .native id) (hword : table.lookup id = .ok word)
    (heffect : word.effect s = .error error t) :
    ∃ context, step table s = .error (error.locate context) { t with ip := s.ip } := by
  refine ⟨{ t with ip := s.ip }.contextAt s.ip, ?_⟩
  simp only [step, hcell, hword, heffect]

/-! ## Steps in a row -/

/-- A step that neither fails nor halts. -/
def Quiet (table : PrimitiveTable) (s t : State) : Prop := step table s = .ok none t

/-- Some steps that neither fail nor halt. -/
def Reaches (table : PrimitiveTable) : State → State → Prop := Relation.ReflTransGen (Quiet table)

theorem Reaches.refl (s : State) : Reaches table s s := Relation.ReflTransGen.refl

theorem Reaches.trans {u : State} (h : Reaches table s t) (h' : Reaches table t u) :
    Reaches table s u :=
  Relation.ReflTransGen.trans h h'

theorem Reaches.single (h : Quiet table s t) : Reaches table s t := Relation.ReflTransGen.single h

/-- The steps can be counted. -/
theorem Reaches.exists_stepTimes (h : Reaches table s t) :
    ∃ n, ∀ before, stepTimes table before n s = .ok before t := by
  induction h using Relation.ReflTransGen.head_induction_on with
  | refl => exact ⟨0, fun _ => rfl⟩
  | head hstep _ ih =>
      obtain ⟨n, hn⟩ := ih
      refine ⟨n + 1, fun before => ?_⟩
      rw [stepTimes, bind_ok hstep]
      exact hn before

/-- Steps that were counted, and found that none of them halts. -/
theorem Reaches.of_stepTimes {before : Option Halt} {n : Nat}
    (h : stepTimes table before n s = .ok none t) : before = none ∧ Reaches table s t := by
  induction n generalizing before s with
  | zero =>
      cases h
      exact ⟨rfl, .refl _⟩
  | succ n ih =>
      rw [stepTimes] at h
      rcases hstep : step table s with ⟨halt?, u⟩ | ⟨error, u⟩
      · rw [bind_ok hstep] at h
        obtain ⟨hnone, hrest⟩ := ih h
        obtain ⟨rfl, hbefore⟩ : halt? = none ∧ before = none := by simpa using hnone
        exact ⟨hbefore, (Reaches.single hstep).trans hrest⟩
      · rw [bind_error hstep] at h
        cases h

/-- Some quiet steps none of which changes the dictionary. -/
def Steady (table : PrimitiveTable) : State → State → Prop :=
  Relation.ReflTransGen fun s t => Quiet table s t ∧ t.dictionary = s.dictionary

theorem Steady.refl (s : State) : Steady table s s := Relation.ReflTransGen.refl

theorem Steady.trans {u : State} (h : Steady table s t) (h' : Steady table t u) :
    Steady table s u :=
  Relation.ReflTransGen.trans h h'

theorem Steady.single (h : Quiet table s t) (hsame : t.dictionary = s.dictionary) :
    Steady table s t :=
  Relation.ReflTransGen.single ⟨h, hsame⟩

theorem Steady.dictionary (h : Steady table s t) : t.dictionary = s.dictionary := by
  induction h with
  | refl => rfl
  | tail _ hstep ih => rw [hstep.2, ih]

theorem Steady.reaches (h : Steady table s t) : Reaches table s t :=
  Relation.ReflTransGen.mono (fun _ _ => And.left) _ _ h

/-- The next step fails with that cause, and changes nothing. -/
def Fails (table : PrimitiveTable) (s : State) (cause : Cause) : Prop :=
  ∃ context, step table s = .error { cause, context } s

/-! ## Moves -/

variable {w : Outfit}

/-- The machine is executing threaded code, and the primitives are in place. -/
structure State.InCode (s : State) (w : Outfit) : Prop where
  depth : s.depth ≠ 0
  halt : s.halt? = none
  primitives : s.memory.HasPrimitives w

theorem State.with_halt_none (h : s.halt? = none) : { s with halt? := none } = s := by
  rw [← h]

/-- What the cell at `ip` refers to is about to be executed. -/
abbrev State.called (s : State) (target : Address) : State :=
  { s with nip := s.ip + 1, ip := target }

section Calling

variable {position : Nat} {word : Primitive}

/-- A reference is followed. -/
theorem quiet_reference (hs : s.InCode w) {target : Address}
    (hcell : s.memory.get s.ip = .reference target) :
    Quiet w.table s (s.called target) := by
  rw [Quiet, step_reference hcell, if_neg hs.depth, State.called, hs.halt]

/-- A primitive is executed, and the trampoline behind it is next. -/
theorem quiet_advance (hword : w.words[position]? = some word)
    (hcontrol : word.control = .advance) (hip : s.ip = primitiveAddress position)
    (hs : s.memory.HasPrimitives w) (heffect : word.effect s = .ok () t) (hhalt : t.halt? = none) :
    Quiet w.table s { t with ip := s.ip + 1 } := by
  have hcell : s.memory.get s.ip = .native (w.first + position) := by
    rw [hip]
    exact hs.primitive position (w.lt_length hword)
  rw [Quiet, step_advance hcell (w.lookup _ _ hword) hcontrol heffect, hhalt]

/-- The trampoline behind a primitive goes back to the caller. -/
theorem quiet_trampoline (hposition : position < w.words.length)
    (hip : s.ip = primitiveAddress position + 1) (hs : s.memory.HasPrimitives w)
    (hhalt : s.halt? = none) : Quiet w.table s { s with ip := s.nip } := by
  have hcell : s.memory.get s.ip = .native (w.first + 0) := by
    rw [hip]
    exact hs.trampoline position hposition
  have hword : w.words[0]? = some trampoline := w.getElem?_words rfl
  rw [Quiet, step_owned hcell (w.lookup _ _ hword) rfl rfl, hhalt]

/-- A primitive is executed, and after it the trampoline. -/
theorem reaches_advance (hword : w.words[position]? = some word)
    (hcontrol : word.control = .advance) (hip : s.ip = primitiveAddress position)
    (hs : s.memory.HasPrimitives w) (heffect : word.effect s = .ok () t) (hhalt : t.halt? = none)
    (ht : t.memory.HasPrimitives w) : Reaches w.table s { t with ip := t.nip } := by
  have hexecuted := quiet_advance hword hcontrol hip hs heffect hhalt
  have hback := quiet_trampoline (s := { t with ip := s.ip + 1 }) (w.lt_length hword)
    (congrArg (· + 1) hip) ht hhalt
  exact (Reaches.single hexecuted).trans (.single hback)

/-- A primitive is called through a reference and comes back behind it. -/
theorem reaches_call (hs : s.InCode w) (hword : w.words[position]? = some word)
    (hcontrol : word.control = .advance)
    (hcell : s.memory.get s.ip = .reference (primitiveAddress position))
    (heffect : word.effect (s.called (primitiveAddress position)) = .ok () t)
    (hhalt : t.halt? = none) (ht : t.memory.HasPrimitives w) :
    Reaches w.table s { t with ip := t.nip } := by
  have hcalled := reaches_advance (s := s.called (primitiveAddress position)) hword hcontrol rfl
    hs.primitives heffect hhalt ht
  exact (Reaches.single (quiet_reference hs hcell)).trans hcalled

/-- A primitive that is called through a reference and goes on by itself. -/
theorem reaches_call_owned (hs : s.InCode w) (hword : w.words[position]? = some word)
    (hcontrol : word.control = .owned)
    (hcell : s.memory.get s.ip = .reference (primitiveAddress position))
    (heffect : word.effect (s.called (primitiveAddress position)) = .ok () t)
    (hhalt : t.halt? = none) : Reaches w.table s t := by
  have hnative := hs.primitives.primitive position (w.lt_length hword)
  have hexecuted : Quiet w.table (s.called (primitiveAddress position)) t := by
    rw [Quiet, step_owned hnative (w.lookup _ _ hword) hcontrol heffect, hhalt,
      State.with_halt_none hhalt]
  exact (Reaches.single (quiet_reference hs hcell)).trans (.single hexecuted)

/-- A primitive that is called through a reference and fails before it changes anything. -/
theorem reaches_call_error (hs : s.InCode w) (hword : w.words[position]? = some word)
    (hcell : s.memory.get s.ip = .reference (primitiveAddress position)) {cause : Cause}
    (heffect : word.effect (s.called (primitiveAddress position)) =
      .error { cause } (s.called (primitiveAddress position))) :
    Reaches w.table s (s.called (primitiveAddress position)) ∧
      Fails w.table (s.called (primitiveAddress position)) cause := by
  have hnative := hs.primitives.primitive position (w.lt_length hword)
  obtain ⟨context, hstep⟩ := step_native_error (s := s.called (primitiveAddress position)) hnative
    (w.lookup _ _ hword) heffect
  exact ⟨.single (quiet_reference hs hcell), _, hstep⟩

end Calling

/-! ## The words of control -/

theorem reaches_lit (hs : s.InCode w) {v : Value} (hcell : s.memory.get s.ip = .reference 10)
    (hoperand : s.memory.get (s.ip + 1) = .literal v) :
    Reaches w.table s { s with
      ip := s.ip + 1 + 1, nip := s.ip + 1 + 1, parameters := s.parameters.push v } := by
  have hword : w.words[3]? = some { name := "LIT", effect := Words.lit } := w.getElem?_words rfl
  have hread : State.literalAt (s.called (primitiveAddress 3)) (s.ip + 1) =
      .ok v := by
    simp only [State.literalAt, hoperand, Cell.asLiteral?]
  have heffect : Words.lit (s.called (primitiveAddress 3)) =
      .ok () { s with
        nip := s.ip + 1 + 1, ip := primitiveAddress 3, parameters := s.parameters.push v } := by
    rw [Words.lit, get_bind, bind_ok (examine_ok hread)]
    rfl
  exact reaches_call hs hword rfl hcell heffect hs.halt hs.primitives

theorem distanceAt_ok {address : Address} {distance : Int64}
    (h : s.memory.get address = .literal (.int distance)) :
    s.distanceAt address = .ok distance := by
  simp only [State.distanceAt, State.literalAt, h, Cell.asLiteral?]
  rfl

/-- `BRANCH` goes where the cell behind it says. -/
theorem steady_branch (hs : s.InCode w) {distance : Int64}
    (hcell : s.memory.get s.ip = .reference 12)
    (hoperand : s.memory.get (s.ip + 1) = .literal (.int distance)) :
    Steady w.table s { s with ip := s.ip + 1 + distance, nip := s.ip + 1 + distance } := by
  have hword : w.words[4]? =
    some { name := "BRANCH", control := .owned, effect := Words.branch } := w.getElem?_words rfl
  have hnative : s.memory.get 12 = .native (w.first + 4) :=
    hs.primitives.primitive 4 (w.lt_length hword)
  have hread := distanceAt_ok (s := s.called (primitiveAddress 4)) hoperand
  have heffect : Words.branch (s.called (primitiveAddress 4)) =
      .ok () { s with ip := s.ip + 1 + distance, nip := s.ip + 1 + distance } := by
    rw [Words.branch, get_bind, bind_ok (examine_ok hread)]
    rfl
  have hexecuted : Quiet w.table (s.called (primitiveAddress 4))
      { s with ip := s.ip + 1 + distance, nip := s.ip + 1 + distance } := by
    rw [Quiet, step_owned hnative (w.lookup _ _ hword) rfl heffect]
    exact congrArg₂ EStateM.Result.ok hs.halt (State.with_halt_none hs.halt)
  exact (Steady.single (quiet_reference hs hcell) rfl).trans (.single hexecuted rfl)

theorem reaches_branch (hs : s.InCode w) {distance : Int64}
    (hcell : s.memory.get s.ip = .reference 12)
    (hoperand : s.memory.get (s.ip + 1) = .literal (.int distance)) :
    Reaches w.table s { s with ip := s.ip + 1 + distance, nip := s.ip + 1 + distance } :=
  (steady_branch hs hcell hoperand).reaches

theorem reaches_zeroBranch (hs : s.InCode w) {distance : Int64} {flag : Value}
    {rest : Stack .parameter} (hcell : s.memory.get s.ip = .reference 14)
    (hoperand : s.memory.get (s.ip + 1) = .literal (.int distance))
    (hflag : s.parameters = rest.push flag) {target : Address}
    (htarget : target = if flag.isTruthy then s.ip + 1 + 1 else s.ip + 1 + distance) :
    Reaches w.table s { s with ip := target, nip := target, parameters := rest } := by
  have hword : w.words[5]? =
    some { name := "0BRANCH", control := .owned, effect := Words.zeroBranch } :=
      w.getElem?_words rfl
  have hread := distanceAt_ok (s := (s.called (primitiveAddress 5))) hoperand
  have hpop : pop (s.called (primitiveAddress 5)) =
      .ok flag { s with nip := s.ip + 1, ip := primitiveAddress 5, parameters := rest } := by
    rw [pop_apply, hflag, Stack.pop_push]
  have heffect : Words.zeroBranch (s.called (primitiveAddress 5)) =
      .ok () { s with ip := target, nip := target, parameters := rest } := by
    rw [Words.zeroBranch, get_bind, bind_ok (examine_ok hread), bind_ok hpop, htarget]
    rfl
  exact reaches_call_owned hs hword rfl hcell heffect hs.halt

/-- Without a flag a conditional branch fails. -/
theorem fails_zeroBranch (hs : s.InCode w) {distance : Int64} {cause : Cause}
    (hcell : s.memory.get s.ip = .reference 14)
    (hoperand : s.memory.get (s.ip + 1) = .literal (.int distance))
    (hflag : s.parameters.pop = .error cause) :
    Reaches w.table s (s.called (primitiveAddress 5)) ∧
      Fails w.table (s.called (primitiveAddress 5)) cause := by
  have hword : w.words[5]? =
    some { name := "0BRANCH", control := .owned, effect := Words.zeroBranch } :=
      w.getElem?_words rfl
  have hread := distanceAt_ok (s := s.called (primitiveAddress 5)) hoperand
  have hpop : pop (s.called (primitiveAddress 5)) =
      .error { cause } (s.called (primitiveAddress 5)) := by
    rw [pop_apply, hflag]
  have heffect : Words.zeroBranch (s.called (primitiveAddress 5)) =
      .error { cause } (s.called (primitiveAddress 5)) := by
    rw [Words.zeroBranch, get_bind, bind_ok (examine_ok hread), bind_error hpop]
  exact reaches_call_error hs hword hcell heffect

/-- The codeword of a definition saves the way back and goes on with the cell after it. -/
theorem quiet_docol (hs : s.InCode w) (hcell : s.memory.get s.ip = .native w.kernel.docol) :
    Quiet w.table s { s with
      ip := s.ip + 1, returns := s.returns.push (.int s.nip), depth := s.depth + 1 } := by
  have hword : w.words[1]? = some { name := "DOCOL", effect := enter } := w.getElem?_words rfl
  have heffect : enter s = .ok ()
    { s with returns := s.returns.push (.int s.nip), depth := s.depth + 1 } := rfl
  rw [Quiet, step_advance hcell (w.lookup _ _ hword) rfl heffect, hs.halt]

/-- `EXIT` goes back the way that was saved. -/
theorem reaches_exit (hs : s.InCode w) {link : Address} {rest : Stack .returns}
    (hcell : s.memory.get s.ip = .reference 8) (hlink : s.returns = rest.push (.int link)) :
    Reaches w.table s
      { s with ip := link, nip := link, returns := rest, depth := s.depth - 1 } := by
  have hword : w.words[2]? =
    some { name := "EXIT", control := .owned, effect := Effect.exit } := w.getElem?_words rfl
  have heffect : Effect.exit (s.called (primitiveAddress 2)) =
      .ok () { s with ip := link, nip := link, returns := rest, depth := s.depth - 1 } := by
    rw [Effect.exit, get_bind]
    simp only [hlink, Stack.push, if_neg hs.depth]
    rfl
  exact reaches_call_owned hs hword rfl hcell heffect hs.halt

end ThreadedForth
