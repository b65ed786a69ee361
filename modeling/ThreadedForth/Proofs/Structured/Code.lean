import ThreadedForth.Bootstrap
import ThreadedForth.Proofs.Effect.Local
import ThreadedForth.Proofs.Machine.Standard

/-!
# Structured code

Threaded code knows branches only, but the code of the control structures is built in a disciplined
way.  `Code` is the syntax of such code, and `Code.cells` lays it out in memory:

```text
IF body THEN                0BRANCH n  body
IF yes ELSE no THEN         0BRANCH n  yes  BRANCH n  no
BEGIN body UNTIL            body  0BRANCH -n
BEGIN test WHILE body REPEAT    test  0BRANCH n  body  BRANCH -n
BEGIN body AGAIN            body  BRANCH -n
```

Every distance is relative to the cell that holds it, so the layout is the same at every address.

`Runs` says what structured code means.  It knows neither addresses of cells nor a return stack: a
definition that is called is simply run, and all that code ever sees is a `Desk`, which is the
parameter stack and the text written so far.
-/

namespace ThreadedForth

inductive Code where
  | skip
  | seq (first second : Code)
  /-- A literal. -/
  | push (v : Value)
  /-- A call of the primitive with a number. -/
  | word (position : Nat)
  /-- A call of the definition at an address. -/
  | call (target : Address)
  /-- `EXIT` before the end. -/
  | leave
  | ifThen (body : Code)
  | ifElse (yes no : Code)
  | untilLoop (body : Code)
  | whileLoop (test body : Code)
  | again (body : Code)

namespace Code

/-- A branch with its distance. -/
def jump (branch : Address) (distance : Int64) : List Cell :=
  [.reference branch, .literal (.int distance)]

/-- The cells of the code. -/
def cells : Code → List Cell
  | skip => []
  | seq first second => first.cells ++ second.cells
  | push v => [.reference standardKernel.lit, .literal v]
  | word position => [.reference (primitiveAddress position)]
  | call target => [.reference target]
  | leave => [.reference standardKernel.exit]
  | ifThen body =>
    jump standardKernel.zeroBranch (Int64.ofNat (body.cells.length + 1)) ++ body.cells
  | ifElse yes no =>
    jump standardKernel.zeroBranch (Int64.ofNat (yes.cells.length + 3)) ++ yes.cells ++
      jump standardKernel.branch (Int64.ofNat (no.cells.length + 1)) ++ no.cells
  | untilLoop body =>
    body.cells ++ jump standardKernel.zeroBranch (-Int64.ofNat (body.cells.length + 1))
  | whileLoop test body =>
    test.cells ++ jump standardKernel.zeroBranch (Int64.ofNat (body.cells.length + 3)) ++
      body.cells ++
      jump standardKernel.branch (-Int64.ofNat (test.cells.length + body.cells.length + 3))
  | again body => body.cells ++ jump standardKernel.branch (-Int64.ofNat (body.cells.length + 1))

@[simp] theorem length_jump (branch : Address) (distance : Int64) :
    (jump branch distance).length = 2 := rfl

@[simp] theorem length_cells_skip : skip.cells.length = 0 := rfl

@[simp] theorem length_cells_seq (first second : Code) :
    (seq first second).cells.length = first.cells.length + second.cells.length :=
  List.length_append

@[simp] theorem length_cells_push (v : Value) : (push v).cells.length = 2 := rfl

@[simp] theorem length_cells_ifThen (body : Code) :
    (ifThen body).cells.length = body.cells.length + 2 := by
  change (jump _ _ ++ body.cells).length = _
  rw [List.length_append, length_jump, Nat.add_comm]

@[simp] theorem length_cells_ifElse (yes no : Code) :
    (ifElse yes no).cells.length = yes.cells.length + no.cells.length + 4 := by
  change (jump _ _ ++ yes.cells ++ jump _ _ ++ no.cells).length = _
  simp only [List.length_append, length_jump]
  omega

@[simp] theorem length_cells_untilLoop (body : Code) :
    (untilLoop body).cells.length = body.cells.length + 2 := by
  change (body.cells ++ jump _ _).length = _
  rw [List.length_append, length_jump]

@[simp] theorem length_cells_whileLoop (test body : Code) :
    (whileLoop test body).cells.length = test.cells.length + body.cells.length + 4 := by
  change (test.cells ++ jump _ _ ++ body.cells ++ jump _ _).length = _
  simp only [List.length_append, length_jump]
  omega

@[simp] theorem length_cells_again (body : Code) :
    (again body).cells.length = body.cells.length + 2 := by
  change (body.cells ++ jump _ _).length = _
  rw [List.length_append, length_jump]

section Placing

variable {memory : Memory} {a : Address} {test body yes no : Code}

/-! The parts of structured code and where they are. -/

theorem holds_ifThen : memory.Holds a (ifThen body).cells ↔
    memory.Holds a (jump standardKernel.zeroBranch (Int64.ofNat (body.cells.length + 1))) ∧
      memory.Holds (a + Int64.ofNat 2) body.cells := by
  change memory.Holds a (jump _ _ ++ body.cells) ↔ _
  rw [Memory.holds_append, length_jump]

theorem holds_ifElse : memory.Holds a (ifElse yes no).cells ↔
    memory.Holds a (jump standardKernel.zeroBranch (Int64.ofNat (yes.cells.length + 3))) ∧
      memory.Holds (a + Int64.ofNat 2) yes.cells ∧
      memory.Holds (a + Int64.ofNat (2 + yes.cells.length))
        (jump standardKernel.branch (Int64.ofNat (no.cells.length + 1))) ∧
      memory.Holds (a + Int64.ofNat (2 + yes.cells.length + 2)) no.cells := by
  change memory.Holds a (jump _ _ ++ yes.cells ++ jump _ _ ++ no.cells) ↔ _
  simp only [Memory.holds_append, List.length_append, length_jump, and_assoc]

theorem holds_untilLoop : memory.Holds a (untilLoop body).cells ↔
    memory.Holds a body.cells ∧
      memory.Holds (a + Int64.ofNat body.cells.length)
        (jump standardKernel.zeroBranch (-Int64.ofNat (body.cells.length + 1))) := by
  change memory.Holds a (body.cells ++ jump _ _) ↔ _
  rw [Memory.holds_append]

theorem holds_whileLoop : memory.Holds a (whileLoop test body).cells ↔
    memory.Holds a test.cells ∧
      memory.Holds (a + Int64.ofNat test.cells.length)
        (jump standardKernel.zeroBranch (Int64.ofNat (body.cells.length + 3))) ∧
      memory.Holds (a + Int64.ofNat (test.cells.length + 2)) body.cells ∧
      memory.Holds (a + Int64.ofNat (test.cells.length + 2 + body.cells.length))
        (jump standardKernel.branch
          (-Int64.ofNat (test.cells.length + body.cells.length + 3))) := by
  change memory.Holds a (test.cells ++ jump _ _ ++ body.cells ++ jump _ _) ↔ _
  simp only [Memory.holds_append, List.length_append, length_jump, and_assoc]

theorem holds_again : memory.Holds a (again body).cells ↔
    memory.Holds a body.cells ∧
      memory.Holds (a + Int64.ofNat body.cells.length)
        (jump standardKernel.branch (-Int64.ofNat (body.cells.length + 1))) := by
  change memory.Holds a (body.cells ++ jump _ _) ↔ _
  rw [Memory.holds_append]

end Placing

/-- The cells of a definition with that body. -/
def definition (body : Code) : List Cell :=
  .native standardKernel.docol :: body.cells ++ [.reference standardKernel.exit]

end Code

/-! ## The words that only compute -/

/-- The words of the library that only compute, and `TYPE`. -/
def computingWords : List Primitive :=
  kernelWords.filter (·.name = "TYPE") ++ libraryWords.filter (·.name ≠ "+!")

/-! ## What structured code means -/

/-- What structured code works on. -/
structure Desk where
  parameters : Stack .parameter
  /-- The text written so far. -/
  text : String
  deriving DecidableEq

/-- Takes the flag that a branch asks for. -/
def Desk.flag (desk : Desk) : Except Cause (Bool × Desk) :=
  match desk.parameters.pop with
  | .ok (v, parameters) => .ok (v.isTruthy, { desk with parameters })
  | .error cause => .error cause

/-- How code ends. -/
inductive Outcome where
  /-- It goes on behind the code. -/
  | done
  /-- The definition was left early. -/
  | left
  | failed (cause : Cause)

section Meaning

variable (definitions : Address → Option Code) (base : Cell)

/-- The code takes one desk to another, given the definitions and the cell of `BASE`. -/
inductive Runs : Code → Desk → Outcome → Desk → Prop
  | skip {desk} : Runs .skip desk .done desk
  | seq {first second before middle after outcome} (hfirst : Runs first before .done middle)
      (hsecond : Runs second middle outcome after) :
      Runs (.seq first second) before outcome after
  | seqStop {first second before after outcome} (hfirst : Runs first before outcome after)
      (hstop : outcome ≠ .done) : Runs (.seq first second) before outcome after
  | push {v desk} :
      Runs (.push v) desk .done { desk with parameters := desk.parameters.push v }
  | word {position word desk parameters text} (hword : vocabulary[position]? = some word)
      (hcomputing : word ∈ computingWords)
      (halone : word.effect.alone base desk.parameters = .ok (parameters, text)) :
      Runs (.word position) desk .done ⟨parameters, desk.text ++ text⟩
  | wordFailed {position word desk cause} (hword : vocabulary[position]? = some word)
      (hcomputing : word ∈ computingWords)
      (halone : word.effect.alone base desk.parameters = .error cause) :
      Runs (.word position) desk (.failed cause) desk
  | call {target body before after} (htarget : definitions target = some body)
      (hbody : Runs body before .done after) : Runs (.call target) before .done after
  | callLeft {target body before after} (htarget : definitions target = some body)
      (hbody : Runs body before .left after) : Runs (.call target) before .done after
  | callFailed {target body before after cause} (htarget : definitions target = some body)
      (hbody : Runs body before (.failed cause) after) :
      Runs (.call target) before (.failed cause) after
  | leave {desk} : Runs .leave desk .left desk
  | ifThen {body before decided after outcome flag} (hflag : before.flag = .ok (flag, decided))
      (hbranch : Runs (if flag then body else .skip) decided outcome after) :
      Runs (.ifThen body) before outcome after
  | ifThenFailed {body desk cause} (hflag : desk.flag = .error cause) :
      Runs (.ifThen body) desk (.failed cause) desk
  | ifElse {yes no before decided after outcome flag} (hflag : before.flag = .ok (flag, decided))
      (hbranch : Runs (if flag then yes else no) decided outcome after) :
      Runs (.ifElse yes no) before outcome after
  | ifElseFailed {yes no desk cause} (hflag : desk.flag = .error cause) :
      Runs (.ifElse yes no) desk (.failed cause) desk
  | untilEnd {body before worked after} (hbody : Runs body before .done worked)
      (hflag : worked.flag = .ok (true, after)) : Runs (.untilLoop body) before .done after
  | untilNext {body before worked decided after outcome} (hbody : Runs body before .done worked)
      (hflag : worked.flag = .ok (false, decided))
      (hloop : Runs (.untilLoop body) decided outcome after) :
      Runs (.untilLoop body) before outcome after
  | untilStop {body before after outcome} (hbody : Runs body before outcome after)
      (hstop : outcome ≠ .done) : Runs (.untilLoop body) before outcome after
  | untilFailed {body before after cause} (hbody : Runs body before .done after)
      (hflag : after.flag = .error cause) : Runs (.untilLoop body) before (.failed cause) after
  | whileEnd {test body before tested after} (htest : Runs test before .done tested)
      (hflag : tested.flag = .ok (false, after)) : Runs (.whileLoop test body) before .done after
  | whileNext {test body before tested decided worked after outcome}
      (htest : Runs test before .done tested) (hflag : tested.flag = .ok (true, decided))
      (hbody : Runs body decided .done worked)
      (hloop : Runs (.whileLoop test body) worked outcome after) :
      Runs (.whileLoop test body) before outcome after
  | whileStopTest {test body before after outcome} (htest : Runs test before outcome after)
      (hstop : outcome ≠ .done) : Runs (.whileLoop test body) before outcome after
  | whileStopBody {test body before tested decided after outcome}
      (htest : Runs test before .done tested) (hflag : tested.flag = .ok (true, decided))
      (hbody : Runs body decided outcome after) (hstop : outcome ≠ .done) :
      Runs (.whileLoop test body) before outcome after
  | whileFailed {test body before after cause} (htest : Runs test before .done after)
      (hflag : after.flag = .error cause) :
      Runs (.whileLoop test body) before (.failed cause) after
  | again {body before worked after outcome} (hbody : Runs body before .done worked)
      (hloop : Runs (.again body) worked outcome after) :
      Runs (.again body) before outcome after
  | againStop {body before after outcome} (hbody : Runs body before outcome after)
      (hstop : outcome ≠ .done) : Runs (.again body) before outcome after

end Meaning

end ThreadedForth
