import ThreadedForth.Proofs.Memory.Growth
import ThreadedForth.Proofs.Structured.Execution

/-!
# Calling a definition

A definition that is called with nothing to start from but a parameter stack may leave another
parameter stack and some text.  Wherever the machine calls it, it then leaves that stack, adds that
text to what was written before, and comes back behind the call, with everything else as it was.
-/

namespace ThreadedForth

open Effect

/-! ## Text that is there already -/

/-- The desk as it is when some text was written before. -/
def Desk.behind (text : String) (desk : Desk) : Desk := { desk with text := text ++ desk.text }

section Text

variable {definitions : Address → Option Code} {base : Cell} {before after : Desk}

theorem Desk.flag_behind (text : String) (desk : Desk) :
    (desk.behind text).flag = desk.flag.map fun decided => (decided.1, decided.2.behind text) := by
  rcases hpop : desk.parameters.pop with cause | popped <;>
    simp only [Desk.flag, Desk.behind, hpop, Except.map]

theorem Desk.flag_behind_ok {text : String} {b : Bool} (h : before.flag = .ok (b, after)) :
    (before.behind text).flag = .ok (b, after.behind text) := by
  rw [Desk.flag_behind, h]
  rfl

theorem Desk.flag_behind_error {text : String} {cause : Cause} (h : before.flag = .error cause) :
    (before.behind text).flag = .error cause := by
  rw [Desk.flag_behind, h]
  rfl

/-- Code takes no notice of what was written before. -/
theorem Runs.behind {code : Code} {outcome : Outcome} (text : String)
    (h : Runs definitions base code before outcome after) :
    Runs definitions base code (before.behind text) outcome (after.behind text) := by
  induction h with
  | skip => exact .skip
  | seq _ _ ihfirst ihsecond => exact .seq ihfirst ihsecond
  | seqStop _ hstop ih => exact .seqStop ih hstop
  | push => exact .push
  | @word _ _ desk parameters written hword hcomputing halone =>
      have htext : text ++ (desk.text ++ written) = text ++ desk.text ++ written :=
        String.append_assoc.symm
      rw [Desk.behind, Desk.behind, htext]
      exact .word hword hcomputing halone
  | wordFailed hword hcomputing halone => exact .wordFailed hword hcomputing halone
  | call htarget _ ih => exact .call htarget ih
  | callLeft htarget _ ih => exact .callLeft htarget ih
  | callFailed htarget _ ih => exact .callFailed htarget ih
  | leave => exact .leave
  | ifThen hflag _ ih => exact .ifThen (Desk.flag_behind_ok hflag) ih
  | ifThenFailed hflag => exact .ifThenFailed (Desk.flag_behind_error hflag)
  | ifElse hflag _ ih => exact .ifElse (Desk.flag_behind_ok hflag) ih
  | ifElseFailed hflag => exact .ifElseFailed (Desk.flag_behind_error hflag)
  | untilEnd _ hflag ih => exact .untilEnd ih (Desk.flag_behind_ok hflag)
  | untilNext _ hflag _ ihbody ihloop => exact .untilNext ihbody (Desk.flag_behind_ok hflag) ihloop
  | untilStop _ hstop ih => exact .untilStop ih hstop
  | untilFailed _ hflag ih => exact .untilFailed ih (Desk.flag_behind_error hflag)
  | whileEnd _ hflag ih => exact .whileEnd ih (Desk.flag_behind_ok hflag)
  | whileNext _ hflag _ _ ihtest ihbody ihloop =>
      exact .whileNext ihtest (Desk.flag_behind_ok hflag) ihbody ihloop
  | whileStopTest _ hstop ih => exact .whileStopTest ih hstop
  | whileStopBody _ hflag _ hstop ihtest ihbody =>
      exact .whileStopBody ihtest (Desk.flag_behind_ok hflag) ihbody hstop
  | whileFailed _ hflag ih => exact .whileFailed ih (Desk.flag_behind_error hflag)
  | again _ _ ihbody ihloop => exact .again ihbody ihloop
  | againStop _ hstop ih => exact .againStop ih hstop

end Text

/-! ## A halt that was asked for -/

/-- A halt that was asked for before the first step shows in the result, and changes nothing
else. -/
theorem exists_stepTimes_of_pending {s t : State} {target : Address}
    (hcell : s.memory.get s.ip = .reference target)
    (hreaches : Reaches standardTable { s with halt? := none } t)
    (hne : { s with halt? := none } ≠ t) :
    ∃ n, stepTimes standardTable none n s = .ok s.halt? t := by
  rcases Relation.ReflTransGen.cases_head hreaches with heq | ⟨next, hfirst, hrest⟩
  · exact absurd heq hne
  · obtain ⟨n, hn⟩ := Reaches.exists_stepTimes hrest
    have hquiet : step standardTable { s with halt? := none } = .ok none next := hfirst
    have hstep : step standardTable s = .ok s.halt? next := by
      rw [step_reference (s := { s with halt? := none }) hcell] at hquiet
      rw [step_reference hcell]
      cases hquiet
      rfl
    refine ⟨n + 1, ?_⟩
    rw [stepTimes, bind_ok hstep, hn]
    cases s.halt? <;> rfl

/-! ## The theorem -/

/-- What the machine has on its desk. -/
def State.desk (s : State) : Desk := ⟨s.parameters, s.output.text⟩

theorem State.working_desk {s : State} (hsink : s.output.allowance = none) :
    s.working s.ip s.nip s.desk = s := by
  rw [State.working, State.desk, ← hsink]

section Calling

variable {definitions : Address → Option Code} {base : Cell} {s : State} {target : Address}
variable {after : Desk}

/-- A definition that ends comes back behind the call. -/
theorem reaches_of_runs_done (hs : s.InCode .standard)
    (hmemory : s.memory.Contains definitions base)
    (hsink : s.output.allowance = none) (hcell : s.memory.get s.ip = .reference target)
    (hruns : Runs definitions base (.call target) s.desk .done after) :
    Reaches standardTable s (s.working (s.ip + 1) (s.ip + 1) after) := by
  obtain ⟨outcome, body, htarget, houtcome, hbody⟩ : ∃ outcome body,
      definitions target = some body ∧ (outcome = .done ∨ outcome = .left) ∧
        Runs definitions base body s.desk outcome after := by
    cases hruns with
    | call htarget hbody => exact ⟨_, _, htarget, .inl rfl, hbody⟩
    | callLeft htarget hbody => exact ⟨_, _, htarget, .inr rfl, hbody⟩
  have hreturned : Reaches standardTable (s.working s.ip s.nip s.desk)
      (s.working (s.ip + 1) (s.ip + 1) after) :=
    reaches_call_definition hs (hmemory.definition _ _ htarget) hcell houtcome
      (performs_of_runs hbody (hs.entered s.ip) hmemory (hmemory.body htarget))
  rwa [State.working_desk hsink] at hreturned

/-- A definition that fails makes the machine fail. -/
theorem fails_of_runs_failed (hs : s.InCode .standard)
    (hmemory : s.memory.Contains definitions base)
    (hsink : s.output.allowance = none) (hcell : s.memory.get s.ip = .reference target)
    {cause : Cause} (hruns : Runs definitions base (.call target) s.desk (.failed cause) after) :
    ∃ t, Reaches standardTable s t ∧ Fails standardTable t cause ∧ t.parameters = after.parameters ∧
      t.output = ⟨after.text, none⟩ := by
  have hcells : s.memory.Holds s.ip (Code.call target).cells := ⟨hcell, trivial⟩
  have harrives : (s.working s.ip s.nip s.desk).Arrives s _ (.failed cause) after :=
    performs_of_runs hruns hs hmemory hcells
  rw [State.working_desk hsink] at harrives
  exact harrives

end Calling

/-- **Threaded code implements structured calls and branches.**  Let a standard machine have some
definitions in memory, each with the cells of structured code between `DOCOL` and `EXIT`, and let it
be inside threaded code at a cell that refers to one of them.

If the definition, run on the parameter stack of the machine, ends with other parameters and some
text, then after some steps the machine is behind that cell, with these parameters and that text
added to its output, and with nothing else changed.  If the definition fails, then after some steps
the machine fails for the same reason and with the same parameters and output. -/
theorem call_implements_definition {m : Machine} (hm : m.IsStandard)
    {definitions : Address → Option Code} {base : Cell}
    (hmemory : m.state.memory.Contains definitions base) (hdepth : 0 < m.state.depth)
    (hsink : m.state.output.allowance = none) {target : Address}
    (hcell : m.state.memory.get m.state.ip = .reference target) :
    (∀ parameters text,
      Runs definitions base (.call target) ⟨m.state.parameters, ""⟩ .done ⟨parameters, text⟩ →
      ∃ n, stepTimes m.primitives none n m.state = .ok m.state.halt? { m.state with
        ip := m.state.ip + 1
        nip := m.state.ip + 1
        parameters
        output := ⟨m.state.output.text ++ text, none⟩
        halt? := none }) ∧
    (∀ cause parameters text,
      Runs definitions base (.call target) ⟨m.state.parameters, ""⟩ (.failed cause)
        ⟨parameters, text⟩ →
      ∃ n t error, stepTimes m.primitives none n m.state = .ok m.state.halt? t ∧
        step m.primitives t = .error error t ∧ error.cause = cause ∧
        t.parameters = parameters ∧ t.output = ⟨m.state.output.text ++ text, none⟩) := by
  -- a halt that was asked for before is taken note of by the first step
  have hs : State.InCode { m.state with halt? := none } .standard :=
    ⟨Nat.ne_of_gt hdepth, rfl, hmemory.toHasPrimitives⟩
  have hdesk : State.desk { m.state with halt? := none } =
      Desk.behind m.state.output.text ⟨m.state.parameters, ""⟩ := by
    rw [Desk.behind, State.desk, String.append_empty]
  rw [hm.primitives]
  refine ⟨fun parameters text hruns => ?_, fun cause parameters text hruns => ?_⟩
  · have hbehind := hruns.behind m.state.output.text
    rw [← hdesk] at hbehind
    have hreaches := reaches_of_runs_done hs hmemory hsink hcell hbehind
    refine exists_stepTimes_of_pending hcell hreaches fun heq => ?_
    have hip : m.state.ip = m.state.ip + 1 := congrArg State.ip heq
    grind
  · have hbehind := hruns.behind m.state.output.text
    rw [← hdesk] at hbehind
    obtain ⟨t, hreaches, ⟨context, hfails⟩, hparameters, htext⟩ :=
      fails_of_runs_failed hs hmemory hsink hcell hbehind
    obtain ⟨n, hn⟩ := exists_stepTimes_of_pending hcell hreaches fun heq => by
      have hquiet : Quiet standardTable _ _ := quiet_reference hs hcell
      rw [heq, Quiet, hfails] at hquiet
      cases hquiet
    exact ⟨n, t, _, hn, hfails, rfl, hparameters, htext⟩

/-! A number is doubled without its sign: the definition at 227 calls the one at 219, which leaves
early if the number is negative. -/

/-- `DUP 0< IF NEGATE EXIT THEN` -/
def Code.magnitude : Code := .seq (.word 87) (.seq (.word 78) (.ifThen (.seq (.word 64) .leave)))

/-- The definition at 219, and `2 *` -/
def Code.doubledMagnitude : Code := .seq (.call 219) (.seq (.push (.int 2)) (.word 60))

def Code.doubling : Address → Option Code := fun target =>
  if target = 219 then some magnitude else if target = 227 then some doubledMagnitude else none

/-- A word that writes nothing. -/
theorem Runs.word_silent {definitions : Address → Option Code} {base : Cell} {position : Nat}
    {word : Primitive} {desk : Desk} {parameters : Stack .parameter}
    (hword : vocabulary[position]? = some word) (hcomputing : word ∈ computingWords)
    (halone : word.effect.alone base desk.parameters = .ok (parameters, "")) :
    Runs definitions base (.word position) desk .done { desk with parameters } := by
  have hruns : Runs definitions base (.word position) desk .done ⟨parameters, desk.text ++ ""⟩ :=
    .word hword hcomputing halone
  rwa [String.append_empty] at hruns

theorem Code.runs_doubling (base : Cell) :
    Runs doubling base (.call 227) ⟨⟨[.int (-21)]⟩, ""⟩ .done ⟨⟨[.int 42]⟩, ""⟩ := by
  have hlibrary : ∀ (position : Nat) {word : Primitive}, libraryWords[position]? = some word →
      word.name ≠ "+!" → word ∈ computingWords := fun _ _ hword hname =>
    List.mem_append_right _ (List.mem_filter.mpr ⟨List.mem_of_getElem? hword, by simpa using hname⟩)
  have hmagnitude : Runs doubling base magnitude ⟨⟨[.int (-21)]⟩, ""⟩ .left ⟨⟨[.int 21]⟩, ""⟩ := by
    have hdup : Runs doubling base (.word 87) ⟨⟨[.int (-21)]⟩, ""⟩ .done
        ⟨⟨[.int (-21), .int (-21)]⟩, ""⟩ :=
      .word_silent rfl (hlibrary 29 rfl (by decide)) rfl
    have hnegative : Runs doubling base (.word 78) ⟨⟨[.int (-21), .int (-21)]⟩, ""⟩ .done
        ⟨⟨[.int (-1), .int (-21)]⟩, ""⟩ :=
      .word_silent rfl (hlibrary 20 rfl (by decide)) rfl
    have hnegate : Runs doubling base (.word 64) ⟨⟨[.int (-21)]⟩, ""⟩ .done ⟨⟨[.int 21]⟩, ""⟩ :=
      .word_silent rfl (hlibrary 6 rfl (by decide)) rfl
    have hflag : Desk.flag ⟨⟨[.int (-1), .int (-21)]⟩, ""⟩ = .ok (true, ⟨⟨[.int (-21)]⟩, ""⟩) := rfl
    exact .seq hdup (.seq hnegative (.ifThen hflag (.seq hnegate .leave)))
  have htimes : Runs doubling base (.word 60) ⟨⟨[.int 2, .int 21]⟩, ""⟩ .done ⟨⟨[.int 42]⟩, ""⟩ :=
    .word_silent rfl (hlibrary 2 rfl (by decide)) rfl
  exact .call rfl (.seq (.callLeft rfl hmagnitude) (.seq .push htimes))

/-- Called with -21. -/
theorem call_implements_definition_doubling :
    ∃ (m : Machine) (n : Nat), m.state.parameters = ⟨[.int (-21)]⟩ ∧
      m.state.memory.get m.state.ip = .reference 227 ∧
      m.state.memory.Holds 219 (Code.magnitude.definition ++ Code.doubledMagnitude.definition) ∧
      stepTimes m.primitives none n m.state = .ok m.state.halt? { m.state with
        ip := m.state.ip + 1
        nip := m.state.ip + 1
        parameters := ⟨[.int 42]⟩
        output := ⟨m.state.output.text ++ "", none⟩
        halt? := none } := by
  have hbooted := bootstrap_booted
  have hstandard := isStandard_of_bootstrap rfl hbooted
  have hintact := isIntact_standard_of_bootstrap rfl hbooted
  have hnext : Machine.booted.state.memory.get Variable.here.address = .literal (.int 219) :=
    next_of_bootstrap hbooted
  obtain ⟨memory, hextends⟩ := Memory.exists_extends
    (Code.magnitude.definition ++ Code.doubledMagnitude.definition ++ [.reference 227]) hnext
    (by decide) (by decide)
  obtain ⟨hcode, hcell, -⟩ := Memory.holds_append.mp hextends.holds
  obtain ⟨hmagnitude, hdoubled⟩ := Memory.holds_append.mp hcode
  let m : Machine := { Machine.booted with state := { Machine.booted.state with
    ip := 233, depth := 1, memory, parameters := ⟨[.int (-21)]⟩, output := {} } }
  have hm : m.IsStandard := ⟨hstandard.primitives, hstandard.kernel⟩
  have hprimitives : memory.HasPrimitives .standard :=
    hintact.toHasPrimitives.congr fun address hlow hhigh =>
      hextends.same_of_lt (by omega) (Int.lt_trans hhigh (by decide))
  have hmemory : memory.Contains Code.doubling (memory.get Variable.base.address) := by
    refine ⟨hprimitives, rfl, fun target body hbody => ?_⟩
    rw [Code.doubling] at hbody
    by_cases hfirst : target = 219
    · rw [if_pos hfirst] at hbody
      cases hbody
      exact hfirst ▸ hmagnitude
    rw [if_neg hfirst] at hbody
    by_cases hsecond : target = 227
    · rw [if_pos hsecond] at hbody
      cases hbody
      exact hsecond ▸ hdoubled
    · rw [if_neg hsecond] at hbody
      cases hbody
  obtain ⟨n, hn⟩ := (call_implements_definition hm hmemory Nat.one_pos rfl hcell).1 _ _
    (Code.runs_doubling _)
  exact ⟨m, n, rfl, hcell, hcode, hn⟩

end ThreadedForth
