import ThreadedForth.Proofs.Machine.Standard
import ThreadedForth.Proofs.Machine.Steps
import ThreadedForth.Proofs.Structured.Code
import ThreadedForth.Proofs.Words.Library

/-!
# Structured code on the machine

The machine executes structured code as `Runs` says.  Where code is laid out and how deep in calls
the machine is does not matter, so the induction over a run is about every place and every state;
all that it keeps track of is the desk.

Code that is left early stops at an `EXIT`, and code that comes to its end finds the `EXIT` of its
definition there.  To whoever called the definition the two are the same.
-/

namespace ThreadedForth

open Effect

/-! ## The words that only compute -/

theorem control_of_mem_libraryWords : ∀ word ∈ libraryWords, word.control = .advance := by decide

theorem computes_of_mem_computingWords {word : Primitive} (h : word ∈ computingWords) :
    word.control = .advance ∧ IsLocal word.effect := by
  rcases List.mem_append.mp h with htype | hlibrary
  · have hword : kernelWords.filter (·.name = "TYPE") =
        [{ name := "TYPE", effect := Words.type }] := rfl
    rw [hword, List.mem_singleton] at htype
    rw [htype]
    exact ⟨rfl, Words.isLocal_type⟩
  · obtain ⟨hmem, hname⟩ := List.mem_filter.mp hlibrary
    exact ⟨control_of_mem_libraryWords word hmem,
      Words.isLocal_of_mem_libraryWords word hmem (by simpa using hname)⟩

/-! ## States that execute structured code -/

/-- The state with the registers at a place and a desk to work on. -/
def State.working (s : State) (ip nip : Address) (desk : Desk) : State :=
  { s with ip, nip, parameters := desk.parameters, output := ⟨desk.text, none⟩ }

/-- Definitions are laid out at their addresses, and the primitives are in place. -/
structure Memory.Contains (memory : Memory) (definitions : Address → Option Code) (base : Cell) :
    Prop extends memory.HasPrimitives .standard where
  base : memory.get Variable.base.address = base
  definition : ∀ target body, definitions target = some body →
    memory.Holds target body.definition

theorem Memory.Contains.body {memory : Memory} {definitions : Address → Option Code} {base : Cell}
    (h : memory.Contains definitions base) {target : Address} {body : Code}
    (htarget : definitions target = some body) : memory.Holds (target + 1) body.cells :=
  (Memory.holds_append.mp (h.definition target body htarget).2).1

/-- Where the machine gets to if code ends in that way on that desk. -/
def State.Arrives (start s : State) (past : Address) (outcome : Outcome) (desk : Desk) : Prop :=
  match outcome with
  | .done => ∃ nip, Reaches standardTable start (s.working past nip desk)
  | .left => ∃ leaving nip, s.memory.get leaving = .reference standardKernel.exit ∧
      Reaches standardTable start (s.working leaving nip desk)
  | .failed cause => ∃ t, Reaches standardTable start t ∧ Fails standardTable t cause ∧
      t.parameters = desk.parameters ∧ t.output = ⟨desk.text, none⟩

section Executing

variable {definitions : Address → Option Code} {base : Cell} {s start middle : State}
variable {past : Address} {outcome : Outcome} {desk before after : Desk}

/-- The machine may take a way to where it starts. -/
theorem State.Arrives.of_reaches (hreaches : Reaches standardTable start middle)
    (h : middle.Arrives s past outcome desk) : start.Arrives s past outcome desk := by
  cases outcome with
  | done =>
      obtain ⟨nip, hend⟩ := h
      exact ⟨nip, hreaches.trans hend⟩
  | left =>
      obtain ⟨leaving, nip, hcell, hend⟩ := h
      exact ⟨leaving, nip, hcell, hreaches.trans hend⟩
  | failed cause =>
      obtain ⟨t, hend, hfails⟩ := h
      exact ⟨t, hreaches.trans hend, hfails⟩

/-- Where code stops for good does not depend on what would have come next. -/
theorem State.Arrives.of_stop {other : Address} (hstop : outcome ≠ .done)
    (h : start.Arrives s past outcome desk) : start.Arrives s other outcome desk := by
  cases outcome with
  | done => exact absurd rfl hstop
  | left => exact h
  | failed cause => exact h

/-- What is done may be followed by a move to another place. -/
theorem State.Arrives.move {other : Address} (h : start.Arrives s past outcome desk)
    (hmove : ∀ nip, ∃ nip',
      Reaches standardTable (s.working past nip desk) (s.working other nip' desk)) :
    start.Arrives s other outcome desk := by
  cases outcome with
  | done =>
      obtain ⟨nip, hend⟩ := h
      obtain ⟨nip', hmoved⟩ := hmove nip
      exact ⟨nip', hend.trans hmoved⟩
  | left => exact h
  | failed cause => exact h

/-- The states that code goes through are in code as well. -/
theorem State.InCode.working (hs : s.InCode .standard) (ip nip : Address) (desk : Desk) :
    (s.working ip nip desk).InCode .standard :=
  ⟨hs.depth, hs.halt, hs.primitives⟩

theorem Desk.flag_ok {b : Bool} (h : before.flag = .ok (b, after)) :
    ∃ v, before.parameters = after.parameters.push v ∧ v.isTruthy = b ∧
      before.text = after.text := by
  rw [Desk.flag] at h
  split at h
  · rename_i v rest hpop
    cases h
    exact ⟨v, Stack.pop_eq_ok_iff.mp hpop, rfl, rfl⟩
  · cases h

/-! ## Branches -/

/-- A conditional branch goes where the flag says. -/
theorem reaches_decide (hs : s.InCode .standard) {a nip : Address} {distance : Int64} {b : Bool}
    (hcells : s.memory.Holds a (Code.jump standardKernel.zeroBranch distance))
    (hflag : before.flag = .ok (b, after)) :
    ∃ nip', Reaches standardTable (s.working a nip before)
      (s.working (if b then a + 1 + 1 else a + 1 + distance) nip' after) := by
  obtain ⟨v, hparameters, hv, htext⟩ := Desk.flag_ok hflag
  have hmove := reaches_zeroBranch (hs.working a nip before) hcells.1 hcells.2.1 hparameters rfl
  rw [hv] at hmove
  refine ⟨if b then a + 1 + 1 else a + 1 + distance, ?_⟩
  rw [State.working, State.working, ← htext]
  exact hmove

/-- Without a flag the branch fails. -/
theorem fails_decide (hs : s.InCode .standard) {a nip : Address} {distance : Int64} {cause : Cause}
    (hcells : s.memory.Holds a (Code.jump standardKernel.zeroBranch distance))
    (hflag : desk.flag = .error cause) :
    (s.working a nip desk).Arrives s past (.failed cause) desk := by
  have hpop : desk.parameters.pop = .error cause := by
    rw [Desk.flag] at hflag
    split at hflag
    · cases hflag
    · rename_i hpop
      cases hflag
      exact hpop
  obtain ⟨hreaches, hfails⟩ :=
    fails_zeroBranch (hs.working a nip desk) hcells.1 hcells.2.1 hpop
  exact ⟨_, hreaches, hfails, rfl, rfl⟩

theorem reaches_jump (hs : s.InCode .standard) {a nip : Address} {distance : Int64}
    (hcells : s.memory.Holds a (Code.jump standardKernel.branch distance)) :
    ∃ nip', Reaches standardTable (s.working a nip desk) (s.working (a + 1 + distance) nip' desk) :=
  ⟨_, reaches_branch (hs.working a nip desk) hcells.1 hcells.2.1⟩

/-! ## Calls -/

/-- A word that only computes works on the desk. -/
theorem reaches_computing (hs : s.InCode .standard) {a nip : Address} {position : Nat}
    {word : Primitive}
    (hbase : s.memory.get Variable.base.address = base)
    (hword : vocabulary[position]? = some word) (hcomputing : word ∈ computingWords)
    (hcell : s.memory.get a = .reference (primitiveAddress position))
    {parameters : Stack .parameter} {text : String}
    (halone : word.effect.alone base desk.parameters = .ok (parameters, text)) :
    Reaches standardTable (s.working a nip desk)
      (s.working (a + 1) (a + 1) ⟨parameters, desk.text ++ text⟩) := by
  obtain ⟨hcontrol, hlocal⟩ := computes_of_mem_computingWords hcomputing
  have heffect := hlocal.apply_ok
    (s := (s.working a nip desk).called (primitiveAddress position)) hbase rfl halone
  exact reaches_call (hs.working a nip desk) hword hcontrol hcell heffect hs.halt hs.primitives

theorem fails_computing (hs : s.InCode .standard) {a nip : Address} {position : Nat}
    {word : Primitive}
    (hbase : s.memory.get Variable.base.address = base)
    (hword : vocabulary[position]? = some word) (hcomputing : word ∈ computingWords)
    (hcell : s.memory.get a = .reference (primitiveAddress position)) {cause : Cause}
    (halone : word.effect.alone base desk.parameters = .error cause) :
    (s.working a nip desk).Arrives s past (.failed cause) desk := by
  obtain ⟨-, hlocal⟩ := computes_of_mem_computingWords hcomputing
  have heffect := hlocal.apply_error
    (s := (s.working a nip desk).called (primitiveAddress position)) hbase rfl halone
  obtain ⟨hreaches, hfails⟩ := reaches_call_error (hs.working a nip desk) hword hcell heffect
  exact ⟨_, hreaches, hfails, rfl, rfl⟩

/-- The state in which a definition that was called from a cell begins. -/
def State.entered (s : State) (caller : Address) : State :=
  { s with returns := s.returns.push (.int (caller + 1)), depth := s.depth + 1 }

theorem State.InCode.entered (hs : s.InCode .standard) (caller : Address) :
    (s.entered caller).InCode .standard :=
  ⟨Nat.succ_ne_zero _, hs.halt, hs.primitives⟩

theorem reaches_entered (hs : s.InCode .standard) {a nip target : Address}
    (hcell : s.memory.get a = .reference target)
    (htarget : s.memory.get target = .native standardKernel.docol) :
    Reaches standardTable (s.working a nip desk)
      ((s.entered a).working (target + 1) (a + 1) desk) := by
  have hcalled := quiet_reference (hs.working a nip desk) hcell
  have hdocol := quiet_docol (hs.working target (a + 1) desk) htarget
  exact (Reaches.single hcalled).trans (.single hdocol)

/-- `EXIT` goes back to the caller. -/
theorem reaches_returned (hs : s.InCode .standard) {a leaving nip : Address}
    (hcell : s.memory.get leaving = .reference standardKernel.exit) :
    Reaches standardTable ((s.entered a).working leaving nip desk)
      (s.working (a + 1) (a + 1) desk) :=
  reaches_exit ((hs.entered a).working leaving nip desk) hcell rfl

/-- If the body of a definition ends in one of the two ways, then the call comes back. -/
theorem reaches_call_definition (hs : s.InCode .standard) {a nip target : Address} {body : Code}
    (hdefinition : s.memory.Holds target body.definition)
    (hcell : s.memory.get a = .reference target) (houtcome : outcome = .done ∨ outcome = .left)
    (hbody : ((s.entered a).working (target + 1) (a + 1) before).Arrives (s.entered a)
      (target + 1 + Int64.ofNat body.cells.length) outcome after) :
    Reaches standardTable (s.working a nip before) (s.working (a + 1) (a + 1) after) := by
  obtain ⟨hdocol, hcells⟩ := hdefinition
  have hentered : Reaches standardTable (s.working a nip before)
      ((s.entered a).working (target + 1) (a + 1) before) := reaches_entered hs hcell hdocol
  rcases houtcome with rfl | rfl
  · obtain ⟨nip', hend⟩ := hbody
    have hexit := (Memory.holds_append.mp hcells).2.1
    exact (hentered.trans hend).trans (reaches_returned hs hexit)
  · obtain ⟨leaving, nip', hexit, hend⟩ := hbody
    exact (hentered.trans hend).trans (reaches_returned hs hexit)

/-! ## Control structures -/

/-- At whatever place the code is laid out, executing it takes one desk to another. -/
def State.Performs (s : State) (code : Code) (before : Desk) (outcome : Outcome) (after : Desk) :
    Prop :=
  ∀ ⦃a nip : Address⦄, s.memory.Holds a code.cells →
    (s.working a nip before).Arrives s (a + Int64.ofNat code.cells.length) outcome after

namespace State.Performs

variable {first second body yes no test : Code} {worked decided tested : Desk} {flag : Bool}
variable {cause : Cause}

theorem skip : s.Performs .skip desk .done desk := by
  intro a nip _
  refine ⟨nip, ?_⟩
  rw [Code.length_cells_skip, Address.add_ofNat_zero]
  exact .refl _

theorem push (hs : s.InCode .standard) (v : Value) :
    s.Performs (.push v) desk .done { desk with parameters := desk.parameters.push v } := by
  intro a nip hcells
  have hmove := reaches_lit (hs.working a nip desk) hcells.1 hcells.2.1
  have hpast : a + 1 + 1 = a + Int64.ofNat 2 := by grind
  refine ⟨a + 1 + 1, ?_⟩
  rw [Code.length_cells_push, ← hpast]
  exact hmove

theorem seq (hfirst : s.Performs first before .done worked)
    (hsecond : s.Performs second worked outcome after) :
    s.Performs (.seq first second) before outcome after := by
  intro a nip hcells
  obtain ⟨hone, htwo⟩ := Memory.holds_append.mp hcells
  obtain ⟨nip', hmiddle⟩ := hfirst hone
  refine State.Arrives.of_reaches hmiddle ?_
  rw [Code.length_cells_seq, ← Address.add_ofNat_add]
  exact hsecond htwo

theorem seqStop (hfirst : s.Performs first before outcome after) (hstop : outcome ≠ .done) :
    s.Performs (.seq first second) before outcome after := by
  intro a nip hcells
  obtain ⟨hone, -⟩ := Memory.holds_append.mp hcells
  exact (hfirst hone).of_stop hstop

theorem ifThen (hs : s.InCode .standard) (hflag : before.flag = .ok (flag, decided))
    (hbranch : s.Performs (if flag then body else .skip) decided outcome after) :
    s.Performs (.ifThen body) before outcome after := by
  intro a nip hcells
  obtain ⟨hjump, hinside⟩ := Code.holds_ifThen.mp hcells
  obtain ⟨nip', hmove⟩ := reaches_decide hs hjump hflag
  refine State.Arrives.of_reaches hmove ?_
  rw [Code.length_cells_ifThen]
  cases flag with
  | true =>
      have hbegin : a + 1 + 1 = a + Int64.ofNat 2 := by grind
      have hpast : a + Int64.ofNat 2 + Int64.ofNat body.cells.length =
          a + Int64.ofNat (body.cells.length + 2) := by grind [Int64.ofNat_add]
      rw [if_pos rfl, hbegin, ← hpast]
      exact hbranch hinside
  | false =>
      have hpast : a + 1 + Int64.ofNat (body.cells.length + 1) + Int64.ofNat 0 =
          a + Int64.ofNat (body.cells.length + 2) := by grind [Int64.ofNat_add]
      rw [if_neg Bool.false_ne_true, ← hpast]
      exact hbranch trivial

theorem ifElse (hs : s.InCode .standard) (hflag : before.flag = .ok (flag, decided))
    (hbranch : s.Performs (if flag then yes else no) decided outcome after) :
    s.Performs (.ifElse yes no) before outcome after := by
  intro a nip hcells
  obtain ⟨hjump, hyes, hover, hno⟩ := Code.holds_ifElse.mp hcells
  obtain ⟨nip', hmove⟩ := reaches_decide hs hjump hflag
  refine State.Arrives.of_reaches hmove ?_
  rw [Code.length_cells_ifElse]
  cases flag with
  | true =>
      -- the first branch is done where the jump over the second one is
      have hbegin : a + 1 + 1 = a + Int64.ofNat 2 := by grind
      have hpast : a + Int64.ofNat (2 + yes.cells.length) + 1 +
          Int64.ofNat (no.cells.length + 1) =
          a + Int64.ofNat (yes.cells.length + no.cells.length + 4) := by
        grind [Int64.ofNat_add]
      rw [if_pos rfl, hbegin]
      refine State.Arrives.move (hbranch hyes) fun nip'' => ?_
      rw [if_pos rfl, Address.add_ofNat_add, ← hpast]
      exact reaches_jump hs hover
  | false =>
      have hbegin : a + 1 + Int64.ofNat (yes.cells.length + 3) =
          a + Int64.ofNat (2 + yes.cells.length + 2) := by grind [Int64.ofNat_add]
      have hpast : a + Int64.ofNat (2 + yes.cells.length + 2) + Int64.ofNat no.cells.length =
          a + Int64.ofNat (yes.cells.length + no.cells.length + 4) := by
        grind [Int64.ofNat_add]
      rw [if_neg Bool.false_ne_true, hbegin, ← hpast]
      exact hbranch hno

theorem untilEnd (hs : s.InCode .standard) (hbody : s.Performs body before .done worked)
    (hflag : worked.flag = .ok (true, after)) :
    s.Performs (.untilLoop body) before .done after := by
  intro a nip hcells
  obtain ⟨hinside, hjump⟩ := Code.holds_untilLoop.mp hcells
  obtain ⟨nip', hworked⟩ := hbody hinside
  obtain ⟨nip'', hmove⟩ := reaches_decide hs hjump hflag
  have hpast : a + Int64.ofNat body.cells.length + 1 + 1 =
      a + Int64.ofNat (body.cells.length + 2) := by grind [Int64.ofNat_add]
  rw [Code.length_cells_untilLoop, ← hpast]
  exact ⟨nip'', hworked.trans hmove⟩

theorem untilNext (hs : s.InCode .standard) (hbody : s.Performs body before .done worked)
    (hflag : worked.flag = .ok (false, decided))
    (hloop : s.Performs (.untilLoop body) decided outcome after) :
    s.Performs (.untilLoop body) before outcome after := by
  intro a nip hcells
  obtain ⟨hinside, hjump⟩ := Code.holds_untilLoop.mp hcells
  obtain ⟨nip', hworked⟩ := hbody hinside
  obtain ⟨nip'', hmove⟩ := reaches_decide hs hjump hflag
  have hback : a + Int64.ofNat body.cells.length + 1 +
      -Int64.ofNat (body.cells.length + 1) = a := by grind [Int64.ofNat_add]
  rw [if_neg Bool.false_ne_true, hback] at hmove
  exact (hloop hcells).of_reaches (hworked.trans hmove)

theorem untilStop (hbody : s.Performs body before outcome after) (hstop : outcome ≠ .done) :
    s.Performs (.untilLoop body) before outcome after := by
  intro a nip hcells
  obtain ⟨hinside, -⟩ := Code.holds_untilLoop.mp hcells
  exact (hbody hinside).of_stop hstop

theorem untilFailed (hs : s.InCode .standard) (hbody : s.Performs body before .done after)
    (hflag : after.flag = .error cause) :
    s.Performs (.untilLoop body) before (.failed cause) after := by
  intro a nip hcells
  obtain ⟨hinside, hjump⟩ := Code.holds_untilLoop.mp hcells
  obtain ⟨nip', hworked⟩ := hbody hinside
  exact (fails_decide hs hjump hflag).of_reaches hworked

theorem whileEnd (hs : s.InCode .standard) (htest : s.Performs test before .done tested)
    (hflag : tested.flag = .ok (false, after)) :
    s.Performs (.whileLoop test body) before .done after := by
  intro a nip hcells
  obtain ⟨hinside, hjump, -, -⟩ := Code.holds_whileLoop.mp hcells
  obtain ⟨nip', htested⟩ := htest hinside
  obtain ⟨nip'', hmove⟩ := reaches_decide hs hjump hflag
  have hpast : a + Int64.ofNat test.cells.length + 1 + Int64.ofNat (body.cells.length + 3) =
      a + Int64.ofNat (test.cells.length + body.cells.length + 4) := by
    grind [Int64.ofNat_add]
  rw [Code.length_cells_whileLoop, ← hpast]
  exact ⟨nip'', htested.trans hmove⟩

/-- The test lets the loop go on to its body. -/
theorem reaches_body (hs : s.InCode .standard) (htest : s.Performs test before .done tested)
    (hflag : tested.flag = .ok (true, decided)) {a : Address}
    (hcells : s.memory.Holds a (Code.whileLoop test body).cells) (nip : Address) :
    ∃ nip', Reaches standardTable (s.working a nip before)
      (s.working (a + Int64.ofNat (test.cells.length + 2)) nip' decided) := by
  obtain ⟨hinside, hjump, -, -⟩ := Code.holds_whileLoop.mp hcells
  obtain ⟨nip', htested⟩ := htest hinside
  obtain ⟨nip'', hmove⟩ := reaches_decide hs hjump hflag
  have hbegin : a + Int64.ofNat test.cells.length + 1 + 1 =
      a + Int64.ofNat (test.cells.length + 2) := by grind [Int64.ofNat_add]
  rw [if_pos rfl, hbegin] at hmove
  exact ⟨nip'', htested.trans hmove⟩

theorem whileNext (hs : s.InCode .standard) (htest : s.Performs test before .done tested)
    (hflag : tested.flag = .ok (true, decided)) (hbody : s.Performs body decided .done worked)
    (hloop : s.Performs (.whileLoop test body) worked outcome after) :
    s.Performs (.whileLoop test body) before outcome after := by
  intro a nip hcells
  obtain ⟨-, -, hworking, hover⟩ := Code.holds_whileLoop.mp hcells
  obtain ⟨nip', hbegun⟩ := reaches_body hs htest hflag hcells nip
  obtain ⟨nip'', hworked⟩ := hbody hworking
  rw [Address.add_ofNat_add] at hworked
  obtain ⟨nip₃, hmoved⟩ := reaches_jump hs hover
  have hback : a + Int64.ofNat (test.cells.length + 2 + body.cells.length) + 1 +
      -Int64.ofNat (test.cells.length + body.cells.length + 3) = a := by
    grind [Int64.ofNat_add]
  rw [hback] at hmoved
  exact (hloop hcells).of_reaches ((hbegun.trans hworked).trans hmoved)

theorem whileStopTest (htest : s.Performs test before outcome after) (hstop : outcome ≠ .done) :
    s.Performs (.whileLoop test body) before outcome after := by
  intro a nip hcells
  obtain ⟨hinside, -⟩ := Code.holds_whileLoop.mp hcells
  exact (htest hinside).of_stop hstop

theorem whileStopBody (hs : s.InCode .standard) (htest : s.Performs test before .done tested)
    (hflag : tested.flag = .ok (true, decided)) (hbody : s.Performs body decided outcome after)
    (hstop : outcome ≠ .done) : s.Performs (.whileLoop test body) before outcome after := by
  intro a nip hcells
  obtain ⟨-, -, hworking, -⟩ := Code.holds_whileLoop.mp hcells
  obtain ⟨nip', hbegun⟩ := reaches_body hs htest hflag hcells nip
  exact ((hbody hworking).of_stop hstop).of_reaches hbegun

theorem whileFailed (hs : s.InCode .standard) (htest : s.Performs test before .done after)
    (hflag : after.flag = .error cause) :
    s.Performs (.whileLoop test body) before (.failed cause) after := by
  intro a nip hcells
  obtain ⟨hinside, hjump, -⟩ := Code.holds_whileLoop.mp hcells
  obtain ⟨nip', htested⟩ := htest hinside
  exact (fails_decide hs hjump hflag).of_reaches htested

theorem again (hs : s.InCode .standard) (hbody : s.Performs body before .done worked)
    (hloop : s.Performs (.again body) worked outcome after) :
    s.Performs (.again body) before outcome after := by
  intro a nip hcells
  obtain ⟨hinside, hjump⟩ := Code.holds_again.mp hcells
  obtain ⟨nip', hworked⟩ := hbody hinside
  obtain ⟨nip'', hmove⟩ := reaches_jump hs hjump
  have hback : a + Int64.ofNat body.cells.length + 1 +
      -Int64.ofNat (body.cells.length + 1) = a := by grind [Int64.ofNat_add]
  rw [hback] at hmove
  exact (hloop hcells).of_reaches (hworked.trans hmove)

theorem againStop (hbody : s.Performs body before outcome after) (hstop : outcome ≠ .done) :
    s.Performs (.again body) before outcome after := by
  intro a nip hcells
  obtain ⟨hinside, -⟩ := Code.holds_again.mp hcells
  exact (hbody hinside).of_stop hstop

end State.Performs

/-! ## The induction -/

/-- The machine executes structured code as it is meant. -/
theorem performs_of_runs {code : Code} (hruns : Runs definitions base code before outcome after)
    (hs : s.InCode .standard) (hmemory : s.memory.Contains definitions base) :
    s.Performs code before outcome after := by
  induction hruns generalizing s with
  | skip => exact .skip
  | seq _ _ ihfirst ihsecond => exact .seq (ihfirst hs hmemory) (ihsecond hs hmemory)
  | seqStop _ hstop ih => exact .seqStop (ih hs hmemory) hstop
  | @push v _ => exact .push hs v
  | word hword hcomputing halone =>
      intro a nip hcells
      exact ⟨_, reaches_computing hs hmemory.base hword hcomputing hcells.1 halone⟩
  | wordFailed hword hcomputing halone =>
      intro a nip hcells
      exact fails_computing hs hmemory.base hword hcomputing hcells.1 halone
  | call htarget _ ih =>
      intro a nip hcells
      exact ⟨_, reaches_call_definition hs (hmemory.definition _ _ htarget) hcells.1 (.inl rfl)
        (ih (hs.entered a) hmemory (hmemory.body htarget))⟩
  | callLeft htarget _ ih =>
      intro a nip hcells
      exact ⟨_, reaches_call_definition hs (hmemory.definition _ _ htarget) hcells.1 (.inr rfl)
        (ih (hs.entered a) hmemory (hmemory.body htarget))⟩
  | callFailed htarget _ ih =>
      intro a nip hcells
      exact State.Arrives.of_reaches
        (reaches_entered hs hcells.1 (hmemory.definition _ _ htarget).1)
        (ih (hs.entered a) hmemory (hmemory.body htarget))
  | leave =>
      intro a nip hcells
      exact ⟨a, nip, hcells.1, .refl _⟩
  | ifThen hflag _ ih => exact .ifThen hs hflag (ih hs hmemory)
  | ifThenFailed hflag =>
      intro a nip hcells
      exact fails_decide hs (Code.holds_ifThen.mp hcells).1 hflag
  | ifElse hflag _ ih => exact .ifElse hs hflag (ih hs hmemory)
  | ifElseFailed hflag =>
      intro a nip hcells
      exact fails_decide hs (Code.holds_ifElse.mp hcells).1 hflag
  | untilEnd _ hflag ih => exact .untilEnd hs (ih hs hmemory) hflag
  | untilNext _ hflag _ ihbody ihloop =>
      exact .untilNext hs (ihbody hs hmemory) hflag (ihloop hs hmemory)
  | untilStop _ hstop ih => exact .untilStop (ih hs hmemory) hstop
  | untilFailed _ hflag ih => exact .untilFailed hs (ih hs hmemory) hflag
  | whileEnd _ hflag ih => exact .whileEnd hs (ih hs hmemory) hflag
  | whileNext _ hflag _ _ ihtest ihbody ihloop =>
      exact .whileNext hs (ihtest hs hmemory) hflag (ihbody hs hmemory) (ihloop hs hmemory)
  | whileStopTest _ hstop ih => exact .whileStopTest (ih hs hmemory) hstop
  | whileStopBody _ hflag _ hstop ihtest ihbody =>
      exact .whileStopBody hs (ihtest hs hmemory) hflag (ihbody hs hmemory) hstop
  | whileFailed _ hflag ih => exact .whileFailed hs (ih hs hmemory) hflag
  | again _ _ ihbody ihloop => exact .again hs (ihbody hs hmemory) (ihloop hs hmemory)
  | againStop _ hstop ih => exact .againStop (ih hs hmemory) hstop

end Executing

end ThreadedForth
