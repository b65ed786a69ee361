import ThreadedForth.Proofs.Input.Reading

/-!
# What the user supplies

An editor answers a read with a line, with an abandoned line, which counts as an empty one, or with
none: that is the end of the file, or a failure, which a reader takes for it.  The editor itself
goes on after an end as if nothing had happened.

As long as a reader gets every character that it asks for, no read is answered by an end; and if it
does not get one, then exactly the last read was.  Lines end in a newline, so a token that was begun
never meets an end: only a reader who is still looking for the first character of one does.
-/

namespace ThreadedForth

/-- The reader gets no line. -/
def Keystroke.isEnd : Keystroke → Bool
  | .line _ | .interrupt => false
  | .endOfFile | .failure => true

/-- What the user will do at one of the next reads, the first of which has the number 0. -/
def LineEditor.answer (editor : LineEditor) (i : Nat) : Keystroke :=
  editor.script[i]?.getD .endOfFile

/-- The second editor is the first one after some reads. -/
structure LineEditor.Reads (editor : LineEditor) (count : Nat) (after : LineEditor) : Prop where
  prompts : after.prompts.size = editor.prompts.size + count
  script : after.script = editor.script.drop count

namespace LineEditor

variable {first second third : LineEditor} {n n' : Nat}

theorem Reads.zero (hprompts : second.prompts = first.prompts)
    (hscript : second.script = first.script) : first.Reads 0 second :=
  ⟨by rw [hprompts, Nat.add_zero], by rw [hscript, List.drop_zero]⟩

theorem Reads.trans (h : first.Reads n second) (h' : second.Reads n' third) :
    first.Reads (n + n') third :=
  ⟨by rw [h'.prompts, h.prompts, Nat.add_assoc], by rw [h'.script, h.script, List.drop_drop]⟩

theorem Reads.answer (h : first.Reads n second) (i : Nat) :
    second.answer i = first.answer (n + i) := by
  rw [LineEditor.answer, LineEditor.answer, h.script, List.getElem?_drop]

end LineEditor

/-! ## One character -/

namespace EditorInput

theorem prompts_accept (input : EditorInput) (line : String) :
    (input.accept line).editor.prompts = input.editor.prompts := by
  simp only [accept, LineEditor.offer, LineEditor.remember]
  split <;> split <;> rfl

/-- Asking for another line is one read, and the answer is the new line with its newline. -/
theorem refill_cases (input : EditorInput) :
    input.editor.Reads 1 input.refill.editor ∧
      if (input.editor.answer 0).isEnd then input.refill.line = input.line
      else ∃ ink, input.refill.line = ink ++ ['\n'] := by
  rcases hscript : input.editor.script with _ | ⟨_ | _ | _ | _, script⟩
  · refine ⟨⟨?_, ?_⟩, ?_⟩ <;>
      simp [refill, LineEditor.read, LineEditor.answer, hscript, Keystroke.isEnd]
  · refine ⟨⟨?_, ?_⟩, ?_⟩
    · simp [refill, LineEditor.read, hscript, prompts_accept]
    · simp [refill, LineEditor.read, hscript]
    · simp [refill, LineEditor.read, LineEditor.answer, hscript, Keystroke.isEnd]
  · refine ⟨⟨?_, ?_⟩, ?_⟩
    · simp [refill, LineEditor.read, hscript]
    · simp [refill, LineEditor.read, hscript]
    · simp only [LineEditor.answer, hscript, Keystroke.isEnd, List.getElem?_cons_zero,
        Option.getD_some, Bool.false_eq_true, if_false]
      exact ⟨[], by simp [refill, LineEditor.read, hscript]⟩
  all_goals
    refine ⟨⟨?_, ?_⟩, ?_⟩ <;>
      simp [refill, LineEditor.read, LineEditor.answer, hscript, Keystroke.isEnd]

/-- A character comes from the current line or from a new one, or else there is none because the
read that asked for a new line was answered by an end. -/
theorem next_cases (input : EditorInput) :
    (∃ c line, input.line = c :: line ∧ input.next = (some c, { input with line })) ∨
    (input.line = [] ∧ (input.editor.answer 0).isEnd = false ∧ ∃ c rest,
      input.next = (some c, rest) ∧ input.editor.Reads 1 rest.editor ∧
      ∃ ink, c :: rest.line = ink ++ ['\n']) ∨
    (input.line = [] ∧ (input.editor.answer 0).isEnd = true ∧ ∃ rest,
      input.next = (none, rest) ∧ input.editor.Reads 1 rest.editor ∧ rest.line = []) := by
  rcases hline : input.line with _ | ⟨c, line⟩
  · obtain ⟨hreads, hanswer⟩ := input.refill_cases
    rcases hend : (input.editor.answer 0).isEnd with _ | _
    · rw [hend, if_neg (by simp)] at hanswer
      obtain ⟨ink, hink⟩ := hanswer
      rcases hfilled : input.refill.line with _ | ⟨c, line⟩
      · rw [hfilled] at hink
        simp at hink
      · refine .inr (.inl ⟨rfl, rfl, c, { input.refill with line }, ?_, hreads, ink, ?_⟩)
        · simp [next, hline, hfilled]
        · rw [← hink, hfilled]
    · rw [hend, if_pos rfl, hline] at hanswer
      exact .inr (.inr ⟨rfl, rfl, input.refill, by simp [next, hline, hanswer], hreads, hanswer⟩)
  · exact .inl ⟨c, line, rfl, by simp [next, hline]⟩

end EditorInput

namespace Input

/-! ## Getting what is asked for -/

/-- The second input is what is left of the first one after reading and dropping, and every
character that was asked for was there. -/
inductive Given : Input → Input → Prop
  | refl (input : Input) : Given input input
  | next {input rest : Input} (hread : input.next.1 ≠ none) (h : Given input.next.2 rest) :
      Given input rest
  | dropLine {input rest : Input} (h : Given input.dropLine rest) : Given input rest

/-- As `Given`, but the last character that was asked for was not there. -/
def RunsOut (input rest : Input) : Prop := ∃ middle, Given input middle ∧ middle.next = (none, rest)

theorem Given.trans {first second third : Input} (h : first.Given second)
    (h' : second.Given third) : first.Given third := by
  induction h with
  | refl => exact h'
  | next hread _ ih => exact .next hread (ih h')
  | dropLine _ ih => exact .dropLine (ih h')

theorem Given.runsOut {first second third : Input} (h : first.Given second)
    (h' : second.RunsOut third) : first.RunsOut third :=
  let ⟨middle, hmiddle, hread⟩ := h'
  ⟨middle, h.trans hmiddle, hread⟩

/-- The input reads from an editor, and what is left of the current line ends in its newline. -/
inductive IsWhole : Input → Prop
  | intro {source : EditorInput} (h : source.line = [] ∨ ∃ ink, source.line = ink ++ ['\n']) :
      IsWhole (.editor source)

/-- As `IsWhole`, and something is left of the current line. -/
inductive IsWithin : Input → Prop
  | intro {source : EditorInput} {ink : List Char} (h : source.line = ink ++ ['\n']) :
      IsWithin (.editor source)

theorem IsWithin.isWhole {input : Input} (h : input.IsWithin) : input.IsWhole := by
  obtain ⟨hline⟩ := h
  exact ⟨.inr ⟨_, hline⟩⟩

/-- Behind a character there is more of its line, unless it is the newline. -/
theorem isWhole_of_cons {source : EditorInput} {c : Char} {ink : List Char}
    (h : c :: source.line = ink ++ ['\n']) :
    IsWhole (.editor source) ∧ (c ≠ '\n' → IsWithin (.editor source)) := by
  cases ink with
  | nil =>
      obtain ⟨rfl, hline⟩ := List.cons.inj h
      exact ⟨⟨.inl hline⟩, fun hne => absurd rfl hne⟩
  | cons d ink =>
      obtain ⟨-, hline⟩ := List.cons.inj h
      exact ⟨⟨.inr ⟨ink, hline⟩⟩, fun _ => ⟨hline⟩⟩

theorem IsWhole.next {input rest : Input} {c : Char} (h : input.IsWhole)
    (hread : input.next = (some c, rest)) : rest.IsWhole ∧ (c ≠ '\n' → rest.IsWithin) := by
  obtain @⟨source, hline⟩ := h
  rcases source.next_cases with ⟨d, line, hcons, hnext⟩ | ⟨-, -, d, filled, hnext, -, ink, hink⟩ |
    ⟨-, -, filled, hnext, -⟩
  · rw [Input.next, hnext] at hread
    cases hread
    rcases hline with hnil | ⟨ink, hink⟩
    · rw [hcons] at hnil
      cases hnil
    · exact isWhole_of_cons (hcons ▸ hink)
  · rw [Input.next, hnext] at hread
    cases hread
    exact isWhole_of_cons hink
  · rw [Input.next, hnext] at hread
    cases hread

theorem IsWhole.dropLine {input : Input} (h : input.IsWhole) : input.dropLine.IsWhole := by
  obtain ⟨-⟩ := h
  exact ⟨.inl rfl⟩

theorem Given.isWhole {input rest : Input} (h : input.Given rest) (hinput : input.IsWhole) :
    rest.IsWhole := by
  induction h with
  | refl => exact hinput
  | @next input rest hread _ ih =>
      obtain ⟨c, hc⟩ := Option.ne_none_iff_exists'.mp hread
      exact ih (hinput.next (Prod.ext hc rfl)).1
  | dropLine _ ih => exact ih hinput.dropLine

/-- Within a line there is a character. -/
theorem IsWithin.next_ne_none {input : Input} (h : input.IsWithin) : input.next.1 ≠ none := by
  obtain @⟨source, ink, hline⟩ := h
  rcases source.next_cases with ⟨c, line, -, hnext⟩ | ⟨hnil, -⟩ | ⟨hnil, -⟩
  · simp [Input.next, hnext]
  all_goals
    rw [hline] at hnil
    simp at hnil

/-! ## Tokens and texts -/

theorem given_of_next {input rest : Input} {c : Char} (h : input.next = (some c, rest)) :
    input.Given rest := .next (by simp [h]) (by rw [h]; exact .refl rest)

/-- A reader who looks for ink either finds some, and is within a line then, or runs out. -/
theorem IsWhole.skipBlanks {input : Input} (h : input.IsWhole) :
    if input.skipBlanks.1 = none then input.RunsOut input.skipBlanks.2
    else input.Given input.skipBlanks.2 ∧ input.skipBlanks.2.IsWithin := by
  fun_induction Input.skipBlanks input with
  | case1 input rest hread => exact ⟨input, .refl input, hread⟩
  | case2 input c rest hread hblank ih =>
      have hgiven := given_of_next hread
      have hrest := ih (h.next hread).1
      split at hrest
      · rename_i hnone
        rw [if_pos hnone]
        exact hgiven.runsOut hrest
      · rename_i hsome
        rw [if_neg hsome]
        exact ⟨hgiven.trans hrest.1, hrest.2⟩
  | case3 input c rest hread hink =>
      have hne : c ≠ '\n' := by
        rintro rfl
        exact hink (by decide)
      exact ⟨given_of_next hread, (h.next hread).2 hne⟩

/-- A token ends with its line at the latest. -/
theorem IsWithin.readInk {input : Input} (h : input.IsWithin) (token : List Char) :
    input.Given (input.readInk token).2 := by
  fun_induction Input.readInk token input with
  | case1 token input rest hread => exact absurd (by rw [hread]) h.next_ne_none
  | case2 token input c rest hread hblank => exact given_of_next hread
  | case3 token input c rest hread hink ih =>
      have hne : c ≠ '\n' := by
        rintro rfl
        exact hink (by decide)
      exact (given_of_next hread).trans (ih ((h.isWhole.next hread).2 hne))

/-- A reader of a token either gets all characters that it asks for, or there is no token left and
it runs out. -/
theorem IsWhole.readToken {input : Input} (h : input.IsWhole) :
    if input.readToken.1 = none then input.RunsOut input.readToken.2
    else input.Given input.readToken.2 := by
  have hskip := h.skipBlanks
  rcases hread : input.skipBlanks with ⟨_ | c, rest⟩
  · rw [hread] at hskip
    rw [Input.readToken, hread]
    exact hskip
  · rw [hread] at hskip
    rw [Input.readToken, hread]
    exact hskip.1.trans (hskip.2.readInk [c])

theorem given_collectBefore (delimiter : Char) (before : List Char) (input : Input)
    (hsome : (input.collectBefore delimiter before).1 ≠ none) :
    input.Given (input.collectBefore delimiter before).2 := by
  fun_induction Input.collectBefore delimiter before input with
  | case1 before input rest hread => exact absurd rfl hsome
  | case2 before input rest hread => exact given_of_next hread
  | case3 before input c rest hread hne ih => exact (given_of_next hread).trans (ih hsome)

theorem given_readText (delimiter : Char) (input : Input)
    (hsome : (input.readText delimiter).1 ≠ none) :
    input.Given (input.readText delimiter).2 := by
  refine given_collectBefore delimiter [] input fun hnone => hsome ?_
  exact congrArg (Option.map _) hnone

/-! ## Reads -/

section Reads

variable {source : EditorInput} {input rest : Input}

/-- A reader who gets what it asks for has met no end. -/
theorem Given.exists_reads (h : input.Given rest) (hinput : input = .editor source) :
    ∃ after n, rest = .editor after ∧ source.editor.Reads n after.editor ∧
      ∀ i < n, (source.editor.answer i).isEnd = false := by
  induction h generalizing source with
  | refl input => exact ⟨source, 0, hinput, .zero rfl rfl, fun i hi => absurd hi i.not_lt_zero⟩
  | @next input rest hread _ ih =>
      subst hinput
      rcases source.next_cases with ⟨c, line, -, hnext⟩ |
        ⟨-, hanswer, c, filled, hnext, hreads, -⟩ | ⟨-, -, filled, hnext, -⟩
      · have hrest : (Input.editor source).next.2 = .editor { source with line } := by
          rw [Input.next, hnext]
        obtain ⟨after, n, rfl, hreads, hanswers⟩ := ih hrest
        exact ⟨after, n, rfl, hreads, hanswers⟩
      · have hrest : (Input.editor source).next.2 = .editor filled := by rw [Input.next, hnext]
        obtain ⟨after, n, rfl, hreads', hanswers⟩ := ih hrest
        refine ⟨after, 1 + n, rfl, hreads.trans hreads', fun i hi => ?_⟩
        cases i with
        | zero => exact hanswer
        | succ i =>
            have hi' := hanswers i (by omega)
            rwa [hreads.answer, Nat.add_comm] at hi'
      · exact absurd (by rw [Input.next, hnext]) hread
  | dropLine _ ih =>
      subst hinput
      exact @ih source.dropLine rfl

/-- A reader who runs out has met an end at the last read, and at no other. -/
theorem RunsOut.exists_reads (h : input.RunsOut rest) (hinput : input = .editor source) :
    ∃ after n, rest = .editor after ∧ source.editor.Reads (n + 1) after.editor ∧
      (source.editor.answer n).isEnd = true ∧
      ∀ i < n, (source.editor.answer i).isEnd = false := by
  obtain ⟨middle, hgiven, hread⟩ := h
  obtain ⟨between, n, rfl, hreads, hanswers⟩ := hgiven.exists_reads hinput
  rcases between.next_cases with ⟨c, line, -, hnext⟩ | ⟨-, -, c, filled, hnext, -⟩ |
    ⟨-, hend, filled, hnext, hreads', -⟩
  · rw [Input.next, hnext] at hread
    cases hread
  · rw [Input.next, hnext] at hread
    cases hread
  · rw [Input.next, hnext] at hread
    cases hread
    rw [hreads.answer] at hend
    exact ⟨filled, n, rfl, hreads.trans hreads', hend, hanswers⟩

end Reads

end Input

end ThreadedForth
