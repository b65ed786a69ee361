import ThreadedForth.Proofs.Input.Reading

/-!
# Typed lines as a text

A line editor is asked for one line after the other, and the rest of a line is dropped by forgetting
it.  A text is there from the start, and the rest of a line is dropped by reading on to the newline,
unless the character read last was one.  To a reader this makes no difference: an editor in which
lines are typed answers every call like the text in which each of these lines ends in a newline.

There is one exception, which is why `Joins` asks whether the reader has begun.  Before anything is
read, an editor has no line to drop, but a text has its first one.
-/

namespace ThreadedForth

namespace Input

/-! ## Calls and answers -/

/-- What a reader asks an input for. -/
inductive Call where
  | char
  | token
  | text (delimiter : Char)
  /-- To drop the rest of the line. -/
  | dropLine
  deriving DecidableEq

/-- What a reader is told. -/
inductive Answer where
  | char (c? : Option Char)
  | text (text? : Option String)
  | done
  deriving DecidableEq

/-- Answers a call. -/
def answer (input : Input) : Call → Answer × Input
  | .char => let (c?, rest) := input.next; (.char c?, rest)
  | .token => let (token?, rest) := input.readToken; (.text token?, rest)
  | .text delimiter => let (text?, rest) := input.readText delimiter; (.text text?, rest)
  | .dropLine => (.done, input.dropLine)

/-- Answers calls one after the other. -/
def answers (input : Input) : List Call → List Answer
  | [] => []
  | call :: calls => (input.answer call).1 :: answers (input.answer call).2 calls

/-! ## What is left of the lines -/

/-- The text of the lines, each of which ends in a newline. -/
def joined (lines : List String) : List Char := lines.flatMap fun line => line.toList ++ ['\n']

theorem ofString_join (lines : List String) :
    ofString (String.join (lines.map (· ++ "\n"))) = .text ⟨joined lines, false⟩ := by
  simp [ofString, TextInput.ofString, joined, String.toList_join, List.flatMap_map]

/-- The editor and the text have the same left to deliver: a part of a line, maybe, and further
lines.  If the reader has begun, then the text knows that it is between two lines, unless there is
nothing left. -/
structure Joins (begun : Prop) (lines : List String) (source : EditorInput) (chars : TextInput) :
    Prop where
  script : source.editor.script = lines.map .line
  unbroken : ∀ line ∈ lines, '\n' ∉ line.toList
  rest : chars.rest = source.line ++ joined lines
  line : source.line = [] ∨ ∃ ink, '\n' ∉ ink ∧ source.line = ink ++ ['\n']
  ended : begun → chars.rest ≠ [] → chars.lineEnded = source.line.isEmpty

/-- The first input is an editor that has the same left as the text that is the second input. -/
inductive Joined (begun : Prop) : Input → Input → Prop
  | intro {lines : List String} {source : EditorInput} {chars : TextInput}
      (h : Joins begun lines source chars) : Joined begun (.editor source) (.text chars)

section Joining

variable {begun : Prop} {lines : List String} {source : EditorInput} {chars : TextInput}
variable {first second : Input}

theorem Joined.mono (h : Joined True first second) : Joined begun first second := by
  cases h with
  | intro h => exact .intro ⟨h.script, h.unbroken, h.rest, h.line, fun _ => h.ended trivial⟩

/-- From within a line both deliver the next character of that line. -/
theorem Joins.next_within (h : Joins begun lines source chars) {ink : List Char}
    (hink : '\n' ∉ ink) (hline : source.line = ink ++ ['\n']) :
    Alike (Joined True) (Input.next (.editor source)) (Input.next (.text chars)) := by
  obtain ⟨rest, ended⟩ := chars
  have hrest : rest = ink ++ ['\n'] ++ joined lines := hline ▸ h.rest
  cases ink with
  | nil =>
      have heditor : (Input.editor source).next =
          (some '\n', .editor { source with line := [] }) := by
        simp [Input.next, EditorInput.next, hline]
      rw [heditor, hrest]
      exact .intro (some '\n') (.intro ⟨h.script, h.unbroken, rfl, .inl rfl, fun _ _ => rfl⟩)
  | cons c ink =>
      rw [List.mem_cons, not_or] at hink
      have heditor : (Input.editor source).next =
          (some c, .editor { source with line := ink ++ ['\n'] }) := by
        simp [Input.next, EditorInput.next, hline]
      have hc : c ≠ '\n' := Ne.symm hink.1
      rw [heditor, hrest]
      refine .intro (some c) (.intro ⟨h.script, h.unbroken, rfl, .inr ⟨ink, hink.2, rfl⟩, ?_⟩)
      simp [hc]

/-- Between two lines the editor asks for the next one, and then both are at its start. -/
theorem Joins.refill {line : String} (h : Joins begun (line :: lines) source chars)
    (hline : source.line = []) : Joins False lines source.refill chars := by
  have hscript := h.script
  rw [List.map_cons] at hscript
  have hfilled : source.refill.line = line.toList ++ ['\n'] := by
    simp [EditorInput.refill, LineEditor.read, hscript]
  have hunbroken := List.forall_mem_cons.mp h.unbroken
  refine ⟨?_, hunbroken.2, ?_, .inr ⟨line.toList, hunbroken.1, hfilled⟩, False.elim⟩
  · simp [EditorInput.refill, LineEditor.read, hscript]
  · rw [h.rest, hline, hfilled, joined, List.flatMap_cons, List.nil_append, joined]

/-- Both deliver the same next character, and from then on the reader has begun. -/
theorem Joins.next (h : Joins begun lines source chars) :
    Alike (Joined True) (Input.next (.editor source)) (Input.next (.text chars)) := by
  rcases h.line with hline | ⟨ink, hink, hline⟩
  · cases lines with
    | nil =>
        have hrest : chars.rest = [] := by rw [h.rest, hline]; rfl
        have hfilled : source.refill.line = [] := by
          simp [EditorInput.refill, LineEditor.read, h.script, hline]
        have hscript : source.refill.editor.script = ([] : List String).map .line := by
          simp [EditorInput.refill, LineEditor.read, h.script]
        have heditor : (Input.editor source).next = (none, .editor source.refill) := by
          simp [Input.next, EditorInput.next, hline, hfilled]
        have htext : (Input.text chars).next = (none, .text chars) := by
          simp [Input.next, TextInput.next, hrest]
        rw [heditor, htext]
        exact .intro none (.intro ⟨hscript, h.unbroken, by rw [hrest, hfilled]; rfl, .inl hfilled,
          fun _ hne => absurd hrest hne⟩)
    | cons line lines =>
        have hfilled := h.refill hline
        obtain hnil | ⟨ink, hink, hline'⟩ := hfilled.line
        · simp [EditorInput.refill, LineEditor.read, h.script] at hnil
        have hrefill : (Input.editor source).next = (Input.editor source.refill).next := by
          simp [Input.next, EditorInput.next, hline, hline']
        rw [hrefill]
        exact hfilled.next_within hink hline'
  · exact h.next_within hink hline

/-- Once the reader has begun, both drop the same: the rest of the line they are in, and nothing
between two lines. -/
theorem Joins.dropLine (h : Joins begun lines source chars) (hbegun : begun) :
    Joins True lines source.dropLine chars.dropLine := by
  obtain ⟨rest, ended⟩ := chars
  have hrest : rest = source.line ++ joined lines := h.rest
  have hended : rest ≠ [] → ended = source.line.isEmpty := h.ended hbegun
  rcases h.line with hline | ⟨ink, hink, hline⟩
  · have hkept : TextInput.dropLine ⟨rest, ended⟩ = ⟨rest, ended⟩ := by
      cases rest with
      | nil => simp [TextInput.dropLine]
      | cons c rest =>
          have htrue : ended = true := by simpa [hline] using hended (List.cons_ne_nil c rest)
          rw [TextInput.dropLine, if_pos htrue]
    rw [hkept, EditorInput.dropLine, ← hline]
    exact ⟨h.script, h.unbroken, hrest, h.line, fun _ => hended⟩
  · have hfalse : ended = false := by
      have hne : rest ≠ [] := by simp [hrest, hline]
      simp [hended hne, hline]
    have hskip : rest.dropWhile (· != '\n') = '\n' :: joined lines := by
      have hall : ∀ c ∈ ink, (c != '\n') = true := fun c hc =>
        bne_iff_ne.mpr fun hnewline => hink (hnewline ▸ hc)
      rw [hrest, hline, List.append_assoc, List.dropWhile_append_of_pos hall]
      rfl
    rw [hfalse, TextInput.dropLine_of_cons hskip]
    exact ⟨h.script, h.unbroken, rfl, .inl rfl, fun _ _ => rfl⟩

end Joining

/-! ## The same answers -/

section Answering

variable {begun : Prop} {first second : Input}

theorem agree_joined : Agree (Joined begun) (Joined True) := by
  intro first second h
  cases h with
  | intro h => exact h.next

/-- A call is answered the same, if the reader has begun or does so by this call. -/
theorem Joined.answer (h : Joined begun first second) (call : Call)
    (hbegun : call = .dropLine → begun) :
    Alike (Joined True) (first.answer call) (second.answer call) := by
  have hmono : ∀ ⦃first second⦄, Joined True first second → Joined begun first second :=
    fun _ _ => Joined.mono
  cases call with
  | char =>
      obtain ⟨rest, hsecond, hrest⟩ := (agree_joined h).exists_rest rfl
      rw [Input.answer, Input.answer, hsecond]
      exact .intro _ hrest
  | token =>
      obtain ⟨rest, hsecond, hrest⟩ := (agree_joined.readToken hmono h).exists_rest rfl
      rw [Input.answer, Input.answer, hsecond]
      exact .intro _ hrest
  | text delimiter =>
      obtain ⟨rest, hsecond, hrest⟩ := (agree_joined.readText hmono delimiter h).exists_rest rfl
      rw [Input.answer, Input.answer, hsecond]
      exact .intro _ hrest
  | dropLine =>
      cases h with
      | intro h => exact .intro Answer.done (.intro (h.dropLine (hbegun rfl)))

theorem Joined.answers (h : Joined begun first second) (calls : List Call)
    (hbegun : calls.head? = some .dropLine → begun) :
    first.answers calls = second.answers calls := by
  induction calls generalizing begun first second with
  | nil => rfl
  | cons call calls ih =>
      have hcall : call = .dropLine → begun := fun hcall => hbegun (congrArg some hcall)
      rcases hfirst : first.answer call with ⟨found, rest⟩
      obtain ⟨rest', hsecond, hrest⟩ := (h.answer call hcall).exists_rest hfirst
      rw [Input.answers, Input.answers, hfirst, hsecond, ih hrest fun _ => trivial]

end Answering

/-- **Typed lines are a text.**  An editor whose user types some lines, and then ends the file every
time a line is asked for, answers every sequence of calls like the text in which each line ends in a
newline.  Only dropping a line before anything is read is another matter. -/
theorem answers_editor_eq_answers_text {lines : List String} {source : EditorInput}
    {calls : List Call} (hunbroken : ∀ line ∈ lines, '\n' ∉ line.toList)
    (hscript : source.editor.script = lines.map .line) (hline : source.line = [])
    (hcalls : lines ≠ [] → calls.head? ≠ some .dropLine) :
    (editor source).answers calls =
      (ofString (String.join (lines.map (· ++ "\n")))).answers calls := by
  rw [ofString_join]
  have hjoins : Joins (lines = []) lines source ⟨joined lines, false⟩ := by
    refine ⟨hscript, hunbroken, by rw [hline, List.nil_append], .inl hline, ?_⟩
    intro hnil hrest
    exact absurd (by rw [hnil]; rfl) hrest
  exact (Joined.intro hjoins).answers calls fun hdrop =>
    Classical.byContradiction fun hne => hcalls hne hdrop

theorem answers_editor_eq_answers_text_two_lines :
    let source : EditorInput :=
      { editor := { script := ["A B", "", " C; D"].map .line }, prompt := "> " }
    let calls : List Call := [.token, .dropLine, .char, .text ';', .dropLine, .token, .char]
    (∀ line ∈ ["A B", "", " C; D"], '\n' ∉ line.toList) ∧
      (editor source).answers calls =
        (ofString (String.join (["A B", "", " C; D"].map (· ++ "\n")))).answers calls ∧
      (editor source).answers calls =
        [.text (some "A"), .done, .char (some '\n'), .text (some " C"), .done, .text none,
          .char none] := by
  refine ⟨by decide, answers_editor_eq_answers_text (by decide) rfl rfl (by decide), ?_⟩
  decide +kernel

end Input

end ThreadedForth
