import ThreadedForth.Proofs.Effect.Making
import ThreadedForth.Proofs.Machine.Executing
import ThreadedForth.Proofs.Machine.Watching

/-!
# Runs in two surroundings

If two surroundings are related in a way that is kept by all that a word can find out about them,
then a run in the second ones does what the run in the first ones does, step by step, unless a word
fails in the first ones for a reason that excuses the second ones.

There are two words that notice the end of the input and do not fail: a comment that is still open,
and `INTERPRET`, which halts.  They only matter if the end of the input is such a reason.
-/

namespace ThreadedForth

open Effect

/-- If the machine is about to skip a comment, then the comment ends. -/
def State.CommentEnds (s : State) : Prop :=
  ∀ word, s.Executes standardTable word → word.name = "(" → (s.input.readText ')').1 ≠ none

/-- A test for comments that do not end. -/
def State.commentEnds (s : State) : Bool :=
  match s.memory.get s.ip with
  | .native id => id != 54 || (s.input.readText ')').1.isSome
  | _ => true

theorem position_of_comment : ∀ id < vocabulary.length,
    vocabulary[id]?.map Primitive.name = some "(" → id = 54 := by
  decide +kernel

theorem State.CommentEnds.of_test {s : State} (h : s.commentEnds = true) : s.CommentEnds := by
  rintro word ⟨id, hcell, hword⟩ hname
  have hplace := getElem?_of_lookup hword
  have hid := position_of_comment id (Outfit.lt_length (w := .standard) hplace)
    (by rw [hplace, ← hname]; rfl)
  simp only [State.commentEnds, hcell, hid] at h
  exact Option.isSome_iff_ne_none.mp (by simpa using h)

theorem State.print_eq (s : State) (text : String) :
    s.print text = { s with output := s.output.print text } := by
  rw [State.print, Output.print]
  rcases s.output.write text with cause | output <;> rfl

section Mirroring

variable {α : Type} {x : Effect α} {related : Surroundings → Surroundings → Prop}
variable {excused : Cause → Prop} {s t : State} {other : Surroundings}

/-! ## Effects -/

namespace Effect

/-- The effect fails for one of these reasons. -/
def FailsFor (excused : Cause → Prop) (x : Effect α) (s : State) : Prop :=
  ∃ error t, x s = .error error t ∧ excused error.cause

/-- The effect does the same in the other surroundings, and leaves the two related. -/
def Mirrors (related : Surroundings → Surroundings → Prop) (x : Effect α) (s : State)
    (other : Surroundings) : Prop :=
  ∃ other', related (after x s).surroundings other' ∧ x (s.within other) = within other' (x s)

theorem Mirrors.of_blind (h : Blind x) (hrelated : related s.surroundings other) :
    Mirrors related x s other := by
  refine ⟨other, ?_, h s other⟩
  rw [h.surroundings_after]
  exact hrelated

/-- What is written where writing agrees is written in both surroundings. -/
theorem mirrors_write {text text' : String}
    (h : Surroundings.Agree related excused s.surroundings other (s.output.write text)
      (other.output.write text'))
    (hrelated : related s.surroundings other) :
    FailsFor excused (write text) s ∨ ∃ other', related (after (write text) s).surroundings other' ∧
      write text' (s.within other) = within other' (write text s) := by
  have hother : (s.within other).output = other.output := rfl
  rw [FailsFor, after, write_apply, write_apply, hother]
  rcases hwrite : s.output.write text with cause | output
  · rw [hwrite] at h
    rcases h with hexcused | hsame
    · exact .inl ⟨_, _, rfl, hexcused⟩
    · rw [hsame]
      exact .inr ⟨other, hrelated, rfl⟩
  · rw [hwrite] at h
    obtain ⟨output', hsame, hrelated'⟩ := h
    rw [hsame]
    exact .inr ⟨_, hrelated', rfl⟩

/-- Every effect that is made of changes, readings and texts does the same in the other
surroundings, unless it fails for a reason that excuses them. -/
theorem MadeOf.mirrors {able : Ability → Prop} (h : MadeOf able x)
    (hkept : Surroundings.IsKept related excused) (hrelated : related s.surroundings other) :
    FailsFor excused x s ∨ Mirrors related x s other := by
  induction h generalizing s other with
  | change hblind _ => exact .inr (.of_blind hblind hrelated)
  | @read α reading hreading =>
      have hinput : (s.within other).input = other.input := rfl
      rw [FailsFor, Mirrors, after, expected, expected, hinput]
      rcases hkept.insisted hreading hrelated with ⟨hnone, hexcused⟩ | ⟨hsame, hrelated'⟩
      · change (reading s.input).1 = none at hnone
        rcases hread : reading s.input with ⟨_ | a, input⟩
        · exact .inl ⟨_, _, rfl, hexcused⟩
        · rw [hread] at hnone
          cases hnone
      · change (reading other.input).1 = (reading s.input).1 at hsame
        change related { s.surroundings with input := (reading s.input).2 } _ at hrelated'
        rcases hread : reading s.input with ⟨found?, input⟩
        rcases hother : reading other.input with ⟨found?', input'⟩
        rw [hread, hother] at hsame hrelated'
        cases hsame
        refine .inr ⟨{ other with input := input' }, ?_, ?_⟩
        · cases found? <;> exact hrelated'
        · cases found? <;> rfl
  | dropLine => exact .inr ⟨_, hkept.dropLine hrelated, rfl⟩
  | write text => exact mirrors_write (hkept.write hrelated text) hrelated
  | writeNames => exact mirrors_write (hkept.names hrelated s.dictionary) hrelated
  | @bind α β x f _ _ ihx ihf =>
      rcases ihx hrelated with ⟨error, t, herror, hexcused⟩ | ⟨other', hrelated', hx⟩
      · exact .inl ⟨error, t, bind_error herror, hexcused⟩
      · rcases hxs : x s with ⟨a, t⟩ | ⟨error, t⟩
        · rw [hxs] at hx
          rw [after_ok hxs] at hrelated'
          rcases ihf a hrelated' with ⟨error, u, herror, hexcused⟩ | ⟨other'', hrelated'', hf⟩
          · exact .inl ⟨error, u, by rw [bind_ok hxs, herror], hexcused⟩
          · refine .inr ⟨other'', ?_, ?_⟩
            · rw [after, bind_ok hxs]
              exact hrelated''
            · rw [bind_ok hx, bind_ok hxs]
              exact hf
        · rw [hxs] at hx
          rw [after_error hxs] at hrelated'
          refine .inr ⟨other', ?_, ?_⟩
          · rw [after_error (bind_error hxs)]
            exact hrelated'
          · rw [bind_error hx, bind_error hxs]
            rfl

end Effect

/-! ## Steps -/

theorem settle_within (control : Control) (address : Address) (around : Surroundings)
    (result : EStateM.Result Error State Unit) :
    settle control address (within around result) =
      within around (settle control address result) := by
  rcases result with ⟨⟨⟩, t⟩ | ⟨error, t⟩
  · cases control <;> rfl
  · rfl

/-- A step compares with other surroundings as its word does. -/
theorem step_mirrors_of_effect {word : Primitive} (hword : s.Executes standardTable word)
    (h : FailsFor excused word.effect s ∨ Mirrors related word.effect s other) :
    FailsFor excused (step standardTable) s ∨ Mirrors related (step standardTable) s other := by
  have hstep := step_of_executes hword
  have hother : step standardTable (s.within other) =
      settle word.control s.ip (word.effect (s.within other)) := step_of_executes hword
  rcases h with ⟨error, t, herror, hexcused⟩ | ⟨other', hrelated', heffect⟩
  · rw [herror] at hstep
    exact .inl ⟨_, _, hstep, hexcused⟩
  · refine .inr ⟨other', ?_, ?_⟩
    · rw [after, hstep]
      rw [after] at hrelated'
      rcases hresult : word.effect s with ⟨⟨⟩, t⟩ | ⟨error, t⟩
      · rw [hresult] at hrelated'
        cases word.control <;> exact hrelated'
      · rw [hresult] at hrelated'
        exact hrelated'
    · rw [hother, heffect, settle_within, hstep]

/-- At the end of the input the step of `INTERPRET` halts. -/
theorem step_of_no_token {word : Primitive} (hword : s.Executes standardTable word)
    (hname : word.name = "INTERPRET") (hnone : s.input.readToken.1 = none) :
    step standardTable s =
      .ok (some .endOfInput) { s with input := s.input.readToken.2, halt? := none } := by
  obtain ⟨heffect, hcontrol⟩ := effect_of_name_interpret word hword.mem hname
  have hread : s.input.readToken = (none, s.input.readToken.2) := Prod.ext hnone rfl
  rw [step_of_executes hword, heffect, hcontrol, interpret_none hread]
  rfl

section Kept

variable (hkept : Surroundings.IsKept related excused)
include hkept

theorem comment_mirrors (hrelated : related s.surroundings other)
    (hends : excused .endOfInput → (s.input.readText ')').1 ≠ none) :
    Mirrors related Words.comment s other := by
  rcases hkept.insisted (.text ')') hrelated with ⟨hnone, hexcused⟩ | ⟨-, hrelated'⟩
  · exact absurd hnone (hends hexcused)
  · exact ⟨_, hrelated', rfl⟩

theorem interpret_mirrors (hrelated : related s.surroundings other)
    (htoken : excused .endOfInput → s.input.readToken.1 ≠ none) :
    FailsFor excused interpret s ∨ Mirrors related interpret s other := by
  rcases hkept.insisted .token hrelated with ⟨hnone, hexcused⟩ | ⟨hsame, hrelated'⟩
  · exact absurd hnone (htoken hexcused)
  · change other.input.readToken.1 = s.input.readToken.1 at hsame
    change related { s.surroundings with input := s.input.readToken.2 } _ at hrelated'
    rcases hread : s.input.readToken with ⟨token?, input⟩
    rcases hother : (s.within other).input.readToken with ⟨token?', input'⟩
    change other.input.readToken = _ at hother
    rw [hread, hother] at hsame hrelated'
    cases hsame
    rcases token? with _ | token
    · refine .inr ⟨{ other with input := input' }, ?_, ?_⟩
      · rw [after_ok (interpret_none hread)]
        exact hrelated'
      · rw [interpret_none hread, interpret_none (s := s.within other) hother]
        rfl
    · have hinterpret := interpret_some hread
      have hinterpret' : interpret (s.within other) =
          heed token (State.within { s with input } { other with input := input' }) :=
        interpret_some (s := s.within other) hother
      have hmade : MadeOf (fun _ => False) (heed token) := madeOf_heed token
      rcases hmade.mirrors hkept (s := { s with input }) hrelated' with
        ⟨error, t, herror, hexcused⟩ | ⟨other', hrelated'', hheed⟩
      · exact .inl ⟨error, t, hinterpret.trans herror, hexcused⟩
      · refine .inr ⟨other', ?_, ?_⟩
        · rw [after, hinterpret]
          exact hrelated''
        · rw [hinterpret', hinterpret]
          exact hheed

/-- A step does the same in the other surroundings, unless it fails for a reason that excuses them,
or is that of `INTERPRET` at the end of the input. -/
theorem step_mirrors (hcomment : excused .endOfInput → s.CommentEnds)
    (hrelated : related s.surroundings other) :
    FailsFor excused (step standardTable) s ∨
      (excused .endOfInput ∧ ∃ word, s.Executes standardTable word ∧ word.name = "INTERPRET" ∧
        s.input.readToken.1 = none) ∨
      Mirrors related (step standardTable) s other := by
  rcases step_cases_within standardTable s with ⟨word, hword⟩ | ⟨ip, nip, hstep⟩ | ⟨error, hstep⟩
  · by_cases hname : word.name = "INTERPRET"
    · by_cases hend : excused .endOfInput ∧ s.input.readToken.1 = none
      · exact .inr (.inl ⟨hend.1, word, hword, hname, hend.2⟩)
      · refine (step_mirrors_of_effect hword ?_).imp_right .inr
        rw [(effect_of_name_interpret word hword.mem hname).1]
        exact interpret_mirrors hkept hrelated fun hexcused hnone => hend ⟨hexcused, hnone⟩
    · refine (step_mirrors_of_effect hword ?_).imp_right .inr
      by_cases hname' : word.name = "("
      · rw [effect_of_name_comment word hword.mem hname']
        exact .inr (comment_mirrors hkept hrelated fun hexcused =>
          hcomment hexcused word hword hname')
      · exact (Words.madeOf_of_mem_vocabulary hword.mem hname hname').mirrors hkept hrelated
  · have hhere := hstep s.surroundings
    rw [State.within_surroundings] at hhere
    refine .inr (.inr ⟨other, ?_, ?_⟩)
    · rw [after_ok hhere]
      exact hrelated
    · rw [hstep other, hhere]
      rfl
  · have hhere := hstep s.surroundings
    rw [State.within_surroundings] at hhere
    refine .inr (.inr ⟨other, ?_, ?_⟩)
    · rw [after_error hhere]
      exact hrelated
    · rw [hstep other, hhere]
      rfl

/-! ## Runs -/

variable {report : Bool} {kernel : Kernel} {before after : Machine.Progress}

/-- Recovering does the same in the other surroundings. -/
theorem recover_mirrors (report : Bool) (quit : Address) (error : Error)
    (hrelated : related t.surroundings other) :
    ∃ other', related (t.recover report quit error).surroundings other' ∧
      (t.within other).recover report quit error =
        (t.recover report quit error).within other' := by
  cases report with
  | false => exact ⟨_, hkept.dropLine hrelated, rfl⟩
  | true =>
      simp only [State.recover, if_true, State.print_eq]
      exact ⟨_, hkept.dropLine (hkept.print hrelated error.report), rfl⟩

theorem goes_mirrors (hgoes : Machine.Goes standardTable kernel report before after)
    (hcomment : excused .endOfInput → before.1.CommentEnds)
    (hcause : ∀ error, after.2 = before.2.push error → ¬ excused error.cause)
    (hrelated : related before.1.surroundings other) :
    ∃ other', related after.1.surroundings other' ∧
      Machine.Goes standardTable kernel report (before.1.within other, before.2)
        (after.1.within other', after.2) := by
  rcases step_mirrors hkept hcomment hrelated with
    ⟨error, t, hstep, hexcused⟩ | ⟨-, word, hword, hname, hnone⟩ | ⟨other', hrelated', hother⟩
  · rcases Machine.goes_cases hgoes with ⟨hok, -⟩ | ⟨error', t', output, herror, hpush, -⟩
    · rw [hstep] at hok
      cases hok
    · rw [hstep] at herror
      cases herror
      exact absurd hexcused (hcause error hpush)
  · -- this step would halt
    have hstep := step_of_no_token hword hname hnone
    rcases Machine.goes_cases hgoes with ⟨hok, -⟩ | ⟨error, t, output, herror, -⟩
    · rw [hstep] at hok
      cases hok
    · rw [hstep] at herror
      cases herror
  · rcases hstep : step standardTable before.1 with ⟨halt?, t⟩ | ⟨error, t⟩
    · rw [after_ok hstep] at hrelated'
      rw [hstep] at hother
      simp only [Machine.Goes, Machine.advance, hstep, Prod.mk.injEq] at hgoes
      obtain ⟨rfl, rfl⟩ := hgoes
      exact ⟨other', hrelated', Machine.goes_of_quiet hother _⟩
    · rw [after_error hstep] at hrelated'
      rw [hstep] at hother
      simp only [Machine.Goes, Machine.advance, hstep, Prod.mk.injEq, true_and] at hgoes
      obtain ⟨other'', hrelated'', hrecover⟩ :=
        recover_mirrors hkept report kernel.quit error hrelated'
      have hgoes' : Machine.Goes standardTable kernel report (before.1.within other, before.2) _ :=
        Machine.goes_of_error hother before.2
      rw [hrecover] at hgoes'
      subst hgoes
      exact ⟨other'', hrelated'', hgoes'⟩

/-- A run in the other surroundings comes to the same, as long as no failure excuses them, and no
comment is left open if the end of the input would. -/
theorem comes_mirrors (hcomes : Machine.Comes standardTable kernel report before after)
    (hcomments : excused .endOfInput → ∀ reached,
      Machine.Comes standardTable kernel report before reached → reached.1.CommentEnds)
    {errors : List Error} (hrecovered : after.2 = before.2 ++ errors.toArray)
    (hcauses : ∀ error ∈ errors, ¬ excused error.cause)
    (hrelated : related before.1.surroundings other) :
    ∃ other', related after.1.surroundings other' ∧
      Machine.Comes standardTable kernel report (before.1.within other, before.2)
        (after.1.within other', after.2) := by
  induction hcomes using Relation.ReflTransGen.head_induction_on generalizing other errors with
  | refl => exact ⟨other, hrelated, .refl⟩
  | @head before middle hgoes hrest ih =>
      obtain ⟨later, hlater⟩ := Machine.recovered_of_comes hrest
      obtain ⟨now, hnow⟩ := Machine.recovered_of_comes (.single hgoes)
      -- what is recorded now and what is recorded later is what is recorded in all
      have herrors : errors = now ++ later := by
        rw [hlater, hnow, Array.append_assoc] at hrecovered
        simpa using (congrArg Array.toList hrecovered).symm
      rw [herrors, List.forall_mem_append] at hcauses
      have hcause : ∀ error, middle.2 = before.2.push error → ¬ excused error.cause := by
        intro error hpush
        rw [hnow] at hpush
        have hsame : now = [error] := by simpa using congrArg Array.toList hpush
        exact hcauses.1 error (by rw [hsame]; exact List.mem_singleton_self error)
      obtain ⟨other', hrelated', hgoes'⟩ :=
        goes_mirrors hkept hgoes (fun hexcused => hcomments hexcused _ .refl) hcause hrelated
      obtain ⟨other'', hrelated'', hcomes'⟩ :=
        ih (fun hexcused reached h => hcomments hexcused reached (.head hgoes h)) hlater hcauses.2
          hrelated'
      exact ⟨other'', hrelated'', .head hgoes' hcomes'⟩

/-! ## Runs that end -/

section Ending

variable (hend : ¬ excused .endOfInput) {halt : Halt} {recovered recovered' : Array Error}
include hend

theorem halts_mirrors (hstep : step standardTable s = .ok (some halt) t)
    (hrelated : related s.surroundings other) :
    ∃ other', related t.surroundings other' ∧
      step standardTable (s.within other) = .ok (some halt) (t.within other') := by
  rcases step_mirrors hkept (absurd · hend) hrelated with
    ⟨error, u, herror, -⟩ | ⟨hexcused, -⟩ | ⟨other', hrelated', hother⟩
  · cases hstep.symm.trans herror
  · exact absurd hexcused hend
  · rw [after_ok hstep] at hrelated'
    rw [hstep] at hother
    exact ⟨other', hrelated', hother⟩

/-- A run that is watched passes the test in the other surroundings too, if the test pays no
attention to them. -/
theorem loopWhile_mirrors {test : State → Bool}
    (htest : ∀ s around, test (State.within s around) = test s) {fuel : ℕ}
    (hloop : Machine.loopWhile test report fuel before = some (halt, after))
    (hcauses : ∀ error ∈ after.2.toList, ¬ excused error.cause)
    (hrelated : related before.1.surroundings other) :
    ∃ other', related after.1.surroundings other' ∧
      Machine.loopWhile test report fuel (before.1.within other, before.2) =
        some (halt, after.1.within other', after.2) := by
  induction fuel generalizing before other with
  | zero => cases hloop
  | succ fuel ih =>
      rw [Machine.loopWhile] at hloop ⊢
      split at hloop
      · rename_i hpasses
        rw [if_pos ((htest _ _).trans hpasses)]
        rcases hadvance : Machine.advance standardTable report standardKernel.quit before.1 before.2
          with ⟨_ | halt', middle⟩
        · simp only [hadvance] at hloop
          have hcause : ∀ error, middle.2 = before.2.push error → ¬ excused error.cause := by
            intro error hpush
            obtain ⟨_, hcomes, -⟩ := Machine.comes_of_loop (Machine.loop_of_loopWhile hloop)
            obtain ⟨errors, herrors⟩ := Machine.recovered_of_comes hcomes
            refine hcauses error ?_
            simp only at herrors
            rw [herrors, hpush]
            simp
          have hgoes : Machine.Goes standardTable standardKernel report before middle := hadvance
          obtain ⟨other', hrelated', hgoes'⟩ :=
            goes_mirrors hkept hgoes (absurd · hend) hcause hrelated
          simp only [show Machine.advance _ _ _ _ _ = _ from hgoes']
          exact ih hloop hrelated'
        · simp only [hadvance, Option.some.injEq, Prod.mk.injEq] at hloop
          obtain ⟨rfl, rfl⟩ := hloop
          rcases hstep : step standardTable before.1 with ⟨halt?, t⟩ | ⟨error, t⟩
          · simp only [Machine.advance, hstep, Prod.mk.injEq] at hadvance
            obtain ⟨rfl, rfl⟩ := hadvance
            obtain ⟨other', hrelated', hstep'⟩ := halts_mirrors hkept hend hstep hrelated
            refine ⟨other', hrelated', ?_⟩
            simp only [Machine.advance, hstep']
          · simp only [Machine.advance, hstep, Prod.mk.injEq] at hadvance
            cases hadvance.1
      · cases hloop

end Ending

end Kept

end Mirroring

end ThreadedForth
