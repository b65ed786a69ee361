import ThreadedForth.Proofs.Input.Lines
import ThreadedForth.Proofs.OuterLoop.Items

/-!
# Source that defines nothing

Source made of literals, of library words that only compute and of tokens that mean nothing does not
change what tokens mean.  So what becomes of it can be said without the machine: `State.evaluate`
says what a token does to a parameter stack and an output text, and `evaluateLines` what a text does
whose lines are given up at the first token that fails.

## Strategy

Between two tokens the machine is at the prompt, with a text before it and a desk.  One token either
takes it to the next prompt, or it fails, and then the machine gets back to the prompt by way of
`QUIT` with the rest of the line dropped and the desk as it was.  Both are in step with
`evaluateLines`, and the text has become shorter, so the run is an induction on its length.
-/

namespace ThreadedForth

open Effect

/-- The primitive that an entry of the dictionary stands for, if it stands for one. -/
def State.primitiveOf? (s : State) (entry : Entry) : Option Primitive :=
  match s.memory.get entry.address with
  | .native id => vocabulary[id]?
  | _ => none

/-- What a token does to a desk: a literal is pushed, and a primitive does what it does alone. -/
def State.evaluate (s : State) (desk : Desk) (token : String) : Except Cause Desk :=
  match s.classify token with
  | .error cause => .error cause
  | .ok (.literal v) => .ok { desk with parameters := desk.parameters.push v }
  | .ok (.word entry) =>
    match s.primitiveOf? entry with
    | none => .ok desk
    | some word =>
      match word.effect.alone (s.memory.get Variable.base.address) desk.parameters with
      | .error cause => .error cause
      | .ok (parameters, text) => .ok ⟨parameters, desk.text ++ text⟩

/-- The token means nothing, or it is a literal or a library word that only computes. -/
def State.IsStraight (s : State) (token : String) : Prop :=
  (∃ cause, s.classify token = .error cause) ∨ ∃ code, s.Means (.token token) code

section Lines

variable {s : State} {base : Cell} {token : String} {rest : Input} {cause : Cause} {desk : Desk}
variable {recovered : Array Error}

/-! ## What tokens do -/

theorem evaluate_literal {v : Value} (h : s.classify token = .ok (.literal v)) :
    s.evaluate desk token = .ok { desk with parameters := desk.parameters.push v } := by
  rw [State.evaluate, h]

theorem evaluate_error (h : s.classify token = .error cause) :
    s.evaluate desk token = .error cause := by
  rw [State.evaluate, h]

/-- A name of a primitive does what the primitive does. -/
theorem evaluate_word (hmemory : s.memory.HasPrimitives .standard) {entry : Entry}
    (hfind : s.dictionary.findVisible? token = some entry) {position : Nat} {word : Primitive}
    (haddress : entry.address = primitiveAddress position)
    (hword : vocabulary[position]? = some word) :
    s.evaluate desk token =
      match word.effect.alone (s.memory.get Variable.base.address) desk.parameters with
      | .error cause => .error cause
      | .ok (parameters, text) => .ok ⟨parameters, desk.text ++ text⟩ := by
  have hcell := hmemory.primitive position (Outfit.lt_length (w := .standard) hword)
  have hprimitive : s.primitiveOf? entry = some word := by
    rw [State.primitiveOf?, haddress, hcell]
    exact (congrArg (vocabulary[·]?) (Nat.zero_add position)).trans hword
  rw [State.evaluate, classify_word hfind]
  simp only [hprimitive]

/-! ## One token -/

/-- After a failure the machine drops the rest of the line, gets back to the prompt by way of `QUIT`
and has nothing else changed. -/
theorem comes_of_failure (hs : s.IsInterpreting base) (hkernel : s.kernel? = some standardKernel)
    (hdepth : s.depth = 1) (hreturns : s.returns = {}) {error : Error} {ip : Address}
    {failed : State} (hstep : step standardTable failed = .error error { s with input := rest, ip })
    (recovered : Array Error) :
    Machine.Comes standardTable standardKernel false (failed, recovered)
      (s.served rest.dropLine s.desk, recovered.push error) := by
  have hgoes : Machine.Goes standardTable standardKernel false _ _ :=
    Machine.goes_of_error hstep recovered
  let stopped : State := State.recover false standardKernel.quit error { s with input := rest, ip }
  have hback := reaches_prompted_of_quit (s := stopped) hs.memory hkernel hs.halt rfl
  have hmode : stopped.setMode .interpret = stopped := setMode_interpret hs.mode
  have hsame : State.prompted { stopped.setMode .interpret with returns := {}, depth := 1 }
      Outfit.standard.kernel = s.served rest.dropLine s.desk := by
    rw [hs.served_desk, hmode, ← hdepth, ← hreturns, State.prompted, ← hs.ip, ← hs.nip]
    rfl
  rw [hsame] at hback
  exact .head hgoes (Machine.comes_of_reaches hback _)

/-- A token takes the machine to the next prompt in step with what it does to the desk. -/
theorem comes_of_token (hs : s.IsInterpreting base) (hkernel : s.kernel? = some standardKernel)
    (hdepth : s.depth = 1) (hreturns : s.returns = {}) (htoken : s.IsStraight token)
    (hread : s.input.readToken = (some token, rest)) (recovered : Array Error) :
    (∃ after, s.evaluate s.desk token = .ok after ∧ Reaches standardTable s (s.served rest after)) ∨
    ∃ error, s.evaluate s.desk token = .error error.cause ∧
      Machine.Comes standardTable standardKernel false (s, recovered)
        (s.served rest.dropLine s.desk, recovered.push error) := by
  rcases htoken with ⟨cause, hmeaning⟩ | ⟨code, hmeans⟩
  · obtain ⟨context, hstep⟩ := step_interpret_error hs.toAtPrompt hread hs.mode hmeaning
    exact .inr ⟨_, evaluate_error hmeaning,
      comes_of_failure hs hkernel hdepth hreturns hstep recovered⟩
  · cases hmeans with
    | literal hmeaning =>
        exact .inl ⟨_, evaluate_literal hmeaning, interprets_literal hs hread hmeaning⟩
    | word hfind _ haddress hword hlibrary hname =>
        have hevaluate : s.evaluate s.desk token = _ :=
          evaluate_word hs.memory.toHasPrimitives hfind haddress hword
        rw [hs.base] at hevaluate
        rcases interprets_word hs hread hfind haddress hword
          (mem_computingWords_of_library hlibrary hname) with
          ⟨parameters, text, halone, hreaches⟩ | ⟨cause, halone, hreaches, context, hfails⟩
        · rw [show s.desk.parameters = s.parameters from rfl, halone] at hevaluate
          exact .inl ⟨_, hevaluate, hreaches⟩
        · rw [show s.desk.parameters = s.parameters from rfl, halone] at hevaluate
          exact .inr ⟨_, hevaluate, (Machine.comes_of_reaches hreaches _).trans
            (comes_of_failure hs hkernel hdepth hreturns hfails recovered)⟩

/-! ## A text -/

theorem State.IsStraight.served (h : s.IsStraight token) (input : Input) (desk : Desk) :
    (s.served input desk).IsStraight token :=
  h.imp_right fun ⟨code, hmeans⟩ => ⟨code, hmeans.congr (fun _ => rfl) rfl⟩

/-- The machine evaluates the lines of a text and comes to a prompt at which no token is left. -/
theorem comes_of_lines {text : List Char} {ended : Bool} (hs : s.IsInterpreting base)
    (hkernel : s.kernel? = some standardKernel) (hdepth : s.depth = 1) (hreturns : s.returns = {})
    (hinput : s.input = .text ⟨text, ended⟩)
    (htokens : ∀ token ∈ Text.tokens text, s.IsStraight token) (recovered : Array Error) :
    ∃ (input last : Input) (errors : List Error), input.readToken = (none, last) ∧
      errors.map Error.cause = (evaluateLines s.evaluate s.desk (Text.lines text)).2 ∧
      Machine.Comes standardTable standardKernel false (s, recovered)
        (s.served input (evaluateLines s.evaluate s.desk (Text.lines text)).1,
          recovered ++ errors.toArray) := by
  induction hn : text.length using Nat.strong_induction_on generalizing s text ended recovered with
  | _ n ih =>
    rcases Text.blank_or_ink text with hblank | ⟨blanks, ink, rest, rfl, hblanks, hne, hink, hgap⟩
    · have hnone : evaluateLines s.evaluate s.desk (Text.lines text) = (s.desk, []) := by
        have hlines : evaluateLines s.evaluate s.desk (Text.lines (text ++ [])) = _ :=
          evaluateLines_append_of_blank hblank
        rw [List.append_nil] at hlines
        rw [hlines, evaluateLines_nil]
      obtain ⟨ended', hskip⟩ := Input.skipBlanks_text_end ended hblank
      refine ⟨s.input, .text ⟨[], ended'⟩, [], ?_, ?_, ?_⟩
      · rw [hinput, Input.readToken, hskip]
      · rw [hnone]
        rfl
      · rw [hnone, hs.served_desk]
        exact .refl
    · obtain ⟨ended', hended, hread⟩ := Input.readToken_text ended hblanks hne hink hgap
      rw [Text.tokens_append_of_blank hblanks, Text.tokens_append hne hink hgap,
        List.forall_mem_cons] at htokens
      obtain ⟨htoken, hmore⟩ := htokens
      have hpositive := List.length_pos_iff.mpr hne
      simp only [List.length_append] at hn
      rw [← hinput] at hread
      rw [evaluateLines_append_of_blank hblanks]
      rcases comes_of_token hs hkernel hdepth hreturns htoken hread recovered with
        ⟨after, hevaluate, hreaches⟩ | ⟨error, hevaluate, hcomes⟩
      · have htail : ∀ token ∈ Text.tokens rest.tail,
            (s.served (.text ⟨rest.tail, ended'⟩) after).IsStraight token := by
          intro token hmem
          rw [Text.tokens_tail hgap] at hmem
          exact (hmore token hmem).served _ _
        obtain ⟨input, last, errors, hend, hcauses, hcomes⟩ := ih rest.tail.length
          (by rw [List.length_tail]; omega) (hs.served (.text ⟨rest.tail, ended'⟩) after) hkernel
          hdepth hreturns rfl htail recovered rfl
        rw [evaluateLines_of_ok hne hink hgap hevaluate, ← evaluateLines_tail hgap]
        exact ⟨input, last, errors, hend, hcauses,
          (Machine.comes_of_reaches hreaches _).trans hcomes⟩
      · obtain ⟨ended'', hdropped⟩ := TextInput.exists_dropLine hended
        have hdropped' : (Input.text ⟨rest.tail, ended'⟩).dropLine =
            .text ⟨Text.afterLine rest, ended''⟩ := congrArg Input.text hdropped
        rw [hdropped'] at hcomes
        have hafter : ∀ token ∈ Text.tokens (Text.afterLine rest),
            (s.served (.text ⟨Text.afterLine rest, ended''⟩) s.desk).IsStraight token :=
          fun token hmem => (hmore token (Text.mem_tokens_of_afterLine hmem)).served _ _
        obtain ⟨input, last, errors, hend, hcauses, hcomes'⟩ := ih (Text.afterLine rest).length
          (by have hle := Text.length_afterLine_le rest; omega) (hs.served _ s.desk) hkernel hdepth
          hreturns rfl hafter (recovered.push error) rfl
        rw [evaluateLines_of_error hne hink hgap hevaluate]
        refine ⟨input, last, error :: errors, hend, ?_, ?_⟩
        · rw [List.map_cons, hcauses]
          rfl
        · have hrecord : recovered.push error ++ errors.toArray =
              recovered ++ (error :: errors).toArray := by simp
          rw [hrecord] at hcomes'
          exact hcomes.trans hcomes'

end Lines

/-! ## The theorem -/

/-- **Source is evaluated line by line.**  Let a machine with the kernel and the library wait in the
outer loop, in interpret mode, with the cells of its primitives and of the outer loop in place, no
call active, nothing reported, and a sink that takes all.  Let every token of the source be a
literal, a library word that is not immediate and not `+!`, or else a token that means nothing.

Then the source is interpreted to its end.  The parameters and the output are those that evaluating
its lines gives, the failures recovered from are those of the lines that were given up, one for each
and in their order, and nothing else is changed. -/
theorem interprets_line_by_line {m : Machine} (hm : m.IsStandard)
    (hloop : m.state.InOuterLoop standardKernel) (hintact : m.state.memory.IsIntact .standard)
    (hmode : m.state.mode = .ok .interpret) (hdepth : m.state.depth = 1)
    (hreturns : m.state.returns = {}) (hreport : m.report = false)
    (hsink : m.state.output.allowance = none) {source : String}
    (htokens : ∀ token ∈ Text.tokens source.toList, m.state.IsStraight token) :
    ∃ (after : Machine) (errors : List Error), m.Interprets source after ∧
      (after.state.desk, errors.map Error.cause) =
        evaluateLines m.state.evaluate m.state.desk (Text.lines source.toList) ∧
      after.recovered = m.recovered ++ errors.toArray ∧
      after.state.memory = m.state.memory ∧ after.state.dictionary = m.state.dictionary ∧
      after.state.returns = {} ∧ after.state.depth = 1 := by
  have hcode : (m.started source).InCode .standard := ⟨hloop.depth, rfl, hintact.toHasPrimitives⟩
  have hbegin : Reaches standardTable _ _ :=
    reaches_prompted_of_loop hcode hintact ⟨hloop.depth, hloop.place⟩
  have hprompt : ((m.started source).prompted standardKernel).IsInterpreting
      (m.state.memory.get Variable.base.address) :=
    ⟨hcode.atPrompt hintact, hmode, rfl, hsink⟩
  have hstraight : ∀ token ∈ Text.tokens source.toList,
      ((m.started source).prompted standardKernel).IsStraight token := fun token hmem =>
    (htokens token hmem).imp_right fun ⟨code, hmeans⟩ =>
      ⟨code, hmeans.congr (fun _ => rfl) rfl⟩
  obtain ⟨input, last, errors, hend, hcauses, hcomes⟩ := comes_of_lines hprompt hm.kernel hdepth
    hreturns rfl hstraight m.recovered
  have hall := (Machine.comes_of_reaches hbegin m.recovered).trans hcomes
  rw [← hreport, ← hm.primitives] at hall
  have hinterprets := Machine.interprets_of_comes hm.kernel hall
    (hm.isFitted.primitives ▸ step_interpret_end (hprompt.served input _).toAtPrompt hend)
  refine ⟨_, errors, hinterprets, ?_, Machine.recovered_tell _ _, ?_⟩
  · rw [Machine.state_tell, hcauses]
    rfl
  · rw [Machine.state_tell]
    exact ⟨rfl, rfl, hreturns, hdepth⟩

/-- Three lines, each of which fails: in its third word, at a token without a meaning, and for want
of a value. -/
theorem interprets_line_by_line_failing :
    ∃ m : Machine, ∃ (after : Machine) (errors : List Error),
      m.Interprets "6 0 / 7\n DROP . nope . \n DUP *\n" after ∧
      after.state.desk = ⟨{}, "6 "⟩ ∧ after.recovered = m.recovered ++ errors.toArray ∧
      errors.map Error.cause =
        [.divisionByZero, .undefinedWord "nope", .stackUnderflow .parameter] := by
  let m : Machine := { Machine.waiting {} with report := false }
  let source := "6 0 / 7\n DROP . nope . \n DUP *\n"
  have hready := Machine.isReady_waiting {}
  have hword : ∀ position (h : position < vocabulary.length), vocabulary[position].hidden = false →
      vocabulary[position].immediate = false → vocabulary[position] ∈ libraryWords →
      vocabulary[position].name ≠ "+!" → m.state.IsStraight vocabulary[position].name :=
    fun position h hvisible himmediate hlibrary hname => .inr ⟨_, .word
      (Machine.findVisible?_booted position h hvisible) himmediate rfl
      (List.getElem?_eq_getElem h) hlibrary hname⟩
  have hnone : ∀ token ∈ ["6", "0", "7", "nope"],
      m.state.dictionary.findVisible? token = none := by decide +kernel
  have hbase : m.state.base = .ok 10 := Machine.base_waiting _
  have hinteger : ∀ token ∈ ["6", "0", "7", "nope"], ∀ n, Numeral.read? 10 token = some n →
      m.state.IsStraight token :=
    fun token hmem n hread => .inr ⟨_, .literal (classify_integer (hnone token hmem) hbase hread)⟩
  have hnope : m.state.classify "nope" = .error (.undefinedWord "nope") := by
    rw [State.classify, hnone "nope" (by decide), hbase]
    rfl
  have htokens : ∀ token ∈ Text.tokens source.toList, m.state.IsStraight token := by
    have hall : Text.tokens source.toList =
        ["6", "0", "/", "7", "DROP", ".", "nope", ".", "DUP", "*"] := by decide +kernel
    rw [hall]
    simp only [List.forall_mem_cons]
    exact ⟨hinteger "6" (by decide) 6 (by decide +kernel),
      hinteger "0" (by decide) 0 (by decide +kernel),
      hword 61 (by decide) rfl rfl (List.mem_of_getElem? (i := 3) rfl) (by decide),
      hinteger "7" (by decide) 7 (by decide +kernel),
      hword 86 (by decide) rfl rfl (List.mem_of_getElem? (i := 28) rfl) (by decide),
      hword 100 (by decide) rfl rfl (List.mem_of_getElem? (i := 42) rfl) (by decide),
      .inl ⟨_, hnope⟩,
      hword 100 (by decide) rfl rfl (List.mem_of_getElem? (i := 42) rfl) (by decide),
      hword 87 (by decide) rfl rfl (List.mem_of_getElem? (i := 29) rfl) (by decide),
      hword 60 (by decide) rfl rfl (List.mem_of_getElem? (i := 2) rfl) (by decide), by simp⟩
  have hevaluated : evaluateLines m.state.evaluate m.state.desk (Text.lines source.toList) =
      (⟨{}, "6 "⟩, [.divisionByZero, .undefinedWord "nope", .stackUnderflow .parameter]) := by
    decide +kernel
  obtain ⟨after, errors, hafter, hresult, hrecovered, -⟩ := interprets_line_by_line (m := m)
    ⟨hready.primitives, hready.kernel⟩ hready.loop hready.intact hready.mode rfl (by decide +kernel)
    rfl (by decide +kernel) htokens
  rw [hevaluated, Prod.mk.injEq] at hresult
  exact ⟨m, after, errors, hafter, hresult.1, hrecovered, hresult.2⟩

end ThreadedForth
