import ThreadedForth.Conversation
import ThreadedForth.Proofs.Input.Supply
import ThreadedForth.Proofs.Machine.Mirroring
import ThreadedForth.Proofs.Machine.SettingUp
import ThreadedForth.Proofs.Machine.Watching
import ThreadedForth.Proofs.Session.Reset

/-!
# The end of the file in a conversation

The outer loop halts when `INTERPRET` finds no token.  So an end that `INTERPRET` meets ends the
conversation, and nothing is read any more.  But another word that reads may meet the end before it:
it fails for want of input, or it is a comment that takes the end for its own.  The outer loop goes
on after that, and asks the editor for another line.
-/

namespace ThreadedForth

open Effect

namespace Machine

variable {s t : State} {report : Bool} {recovered recovered' : Array Error}

/-- The surroundings are the same, and the reader has been given what it asked for. -/
def Receives (start : Input) (around other : Surroundings) : Prop :=
  around = other ∧ start.Given around.input ∧ around.input.IsWhole

/-- A reader keeps getting what it asks for, as long as nothing fails for want of input. -/
theorem isKept_receives (start : Input) :
    Surroundings.IsKept (Receives start) (· = .endOfInput) := by
  have hagree : ∀ ⦃around other⦄, Receives start around other → ∀ result : Except Cause Output,
      Surroundings.Agree (Receives start) (· = .endOfInput) around other result result := by
    rintro around _ ⟨rfl, hgiven, hwhole⟩ (cause | output)
    · exact .inr rfl
    · exact ⟨output, rfl, rfl, hgiven, hwhole⟩
  constructor
  · rintro α reading hreading around _ ⟨rfl, hgiven, hwhole⟩
    by_cases hnone : (reading around.input).1 = none
    · exact .inl ⟨hnone, rfl⟩
    · have hrest : around.input.Given (reading around.input).2 := by
        cases hreading with
        | char => exact .next hnone (.refl _)
        | token =>
            have htoken := hwhole.readToken
            rwa [if_neg hnone] at htoken
        | text delimiter => exact Input.given_readText delimiter around.input hnone
      exact .inr ⟨rfl, rfl, hgiven.trans hrest, hrest.isWhole hwhole⟩
  · rintro around _ ⟨rfl, hgiven, hwhole⟩
    exact ⟨rfl, hgiven.trans (.dropLine (.refl _)), hwhole.dropLine⟩
  · rintro around _ h text
    obtain ⟨rfl, -⟩ := id h
    exact hagree h _
  · rintro around _ h dictionary
    obtain ⟨rfl, -⟩ := id h
    exact hagree h _
  · rintro around _ ⟨rfl, hgiven, hwhole⟩ text
    exact ⟨rfl, hgiven, hwhole⟩

/-- A run meets an end exactly at its end, and only if it halts there for that reason, as long as
no failure is for want of input and no comment is left open. -/
theorem given_or_runsOut_of_loop (hs : s.halt? = none) (hwhole : s.input.IsWhole) {fuel : Nat}
    {limit : Option Nat} {halt : Halt}
    (hloop : loop standardTable report standardKernel.quit fuel limit s recovered =
      some (halt, t, recovered'))
    {errors : List Error} (hrecovered : recovered' = recovered ++ errors.toArray)
    (hcauses : ∀ error ∈ errors, error.cause ≠ .endOfInput)
    (hcomments : ∀ reached, Comes standardTable standardKernel report (s, recovered) reached →
      reached.1.CommentEnds) :
    if halt = .endOfInput then s.input.RunsOut t.input else s.input.Given t.input := by
  obtain ⟨u, hcomes, hend⟩ := comes_of_limited_loop hloop
  have hkept := isKept_receives s.input
  have hbegun : Receives s.input s.surroundings s.surroundings := ⟨rfl, .refl _, hwhole⟩
  obtain ⟨_, ⟨rfl, hgiven, hwhole'⟩, -⟩ :=
    comes_mirrors hkept hcomes (fun _ => hcomments) hrecovered hcauses hbegun
  have hgiven : s.input.Given u.input := hgiven
  have hwhole' : u.input.IsWhole := hwhole'
  rcases hend with hhalts | ⟨-, rfl, rfl⟩
  · by_cases hhalt : halt = .endOfInput
    · subst hhalt
      obtain ⟨-, hnone, rfl⟩ := interpret_of_halt (halt?_of_comes hcomes hs) hhalts
      have htoken := hwhole'.readToken
      rw [if_pos hnone] at htoken
      exact hgiven.runsOut htoken
    · rw [if_neg hhalt]
      have hreceives : Receives s.input u.surroundings u.surroundings := ⟨rfl, hgiven, hwhole'⟩
      rcases step_mirrors hkept (fun _ => hcomments _ hcomes) hreceives with
        ⟨error, _, herror, -⟩ | ⟨-, word, hword, hname, hnone⟩ | ⟨_, ⟨-, hgiven', -⟩, -⟩
      · cases herror.symm.trans hhalts
      · cases (step_of_no_token hword hname hnone).symm.trans hhalts
        exact absurd rfl hhalt
      · rwa [after_ok hhalts] at hgiven'
  · exact hgiven

end Machine

namespace Conversation

variable {conversation after : Conversation} {output printed : Output} {m : Machine} {fuel : Nat}
variable {halt : Halt}

/-- A conversation begins between two lines, with what the user is going to do. -/
theorem exists_of_start (h : conversation.start output = .ok m) :
    m.primitives = conversation.session.machine.primitives ∧
      m.state.kernel? = conversation.session.machine.state.kernel? ∧
      m.recovered = conversation.session.machine.recovered ∧
      ∃ source : EditorInput, m.state.input = .editor source ∧ source.line = [] ∧
        conversation.editor.Reads 0 source.editor := by
  simp only [start] at h
  split at h
  · rcases hwrite : output.write bannerText with cause | printed
    · rw [hwrite] at h
      cases h
    · rw [hwrite] at h
      cases h
      exact ⟨rfl, rfl, rfl, _, rfl, rfl, .zero rfl rfl⟩
  · cases h
    exact ⟨rfl, rfl, rfl, _, rfl, rfl, .zero rfl rfl⟩

/-- A conversation is a run of its machine. -/
theorem exists_loop_of_run (hm : conversation.session.machine.IsStandard)
    (hrun : conversation.run fuel output = some (.ok halt, printed, after)) :
    ∃ m state, conversation.start output = .ok m ∧
      Machine.loop standardTable m.report standardKernel.quit fuel m.stepLimit
        { m.state with halt? := none } m.recovered =
          some (halt, state, after.session.machine.recovered) ∧
      ∀ source, state.input = .editor source → after.editor = source.editor := by
  rw [run] at hrun
  split at hrun
  · cases hrun
  · rename_i m hstart
    obtain ⟨hprimitives, hkernel, -⟩ := exists_of_start hstart
    have hstandard : m.IsStandard := ⟨hprimitives.trans hm.primitives, hkernel.trans hm.kernel⟩
    rw [Machine.run_eq hstandard.kernel] at hrun
    obtain ⟨⟨result, m'⟩, hran, hfinish⟩ := Option.bind_eq_some_iff.mp hrun
    obtain ⟨⟨halt', state, recovered⟩, hloop, htold⟩ := Option.map_eq_some_iff.mp hran
    cases htold
    have hhalt : Except.ok halt' = Except.ok halt := congrArg Prod.fst (Option.some.inj hfinish)
    have hafter :
        (conversation.finish (Machine.tell { m with state, recovered } halt')).2 = after :=
      congrArg (·.2.2) (Option.some.inj hfinish)
    cases hhalt
    refine ⟨m, state, hstart, ?_, fun source hsource => ?_⟩
    · rw [← hstandard.primitives, hloop, ← hafter]
      exact congrArg (fun recovered => some (halt, state, recovered))
        (Machine.recovered_tell { m with state, recovered } halt).symm
    · rw [← hafter]
      simp only [finish, Machine.state_tell, hsource]

end Conversation

/-- **An end that is met by the outer loop is the last thing that is read.**  Let a conversation run
with the kernel and the library, in whatever state and with whatever the user does, so that no
failure on the way is for want of input and no comment is left open.  If a read is answered by the
end of the file or by a failure of the editor, then it is the last one.  The conversation halts at
the end of its input exactly if there was such a read.

A word that fails for want of input goes back to the outer loop, which asks for another line. -/
theorem end_is_last_read {conversation after : Conversation} {output printed : Output} {fuel : Nat}
    {halt : Halt} (hm : conversation.session.machine.IsStandard)
    (hrun : conversation.run fuel output = some (.ok halt, printed, after)) {errors : List Error}
    (hrecovered : after.session.machine.recovered =
      conversation.session.machine.recovered ++ errors.toArray)
    (hcauses : ∀ error ∈ errors, error.cause ≠ .endOfInput)
    (hcomments : ∀ m, conversation.start output = .ok m → ∀ reached,
      Machine.Comes standardTable standardKernel m.report
        ({ m.state with halt? := none }, m.recovered) reached →
        reached.1.CommentEnds) :
    ∃ n, conversation.editor.Reads n after.editor ∧
      (∀ i < n, (conversation.editor.answer i).isEnd → i + 1 = n) ∧
      (halt = .endOfInput ↔ ∃ i < n, (conversation.editor.answer i).isEnd) := by
  obtain ⟨m, state, hstart, hloop, heditor⟩ := Conversation.exists_loop_of_run hm hrun
  obtain ⟨-, -, hnone, source, hinput, hline, hbegun⟩ := Conversation.exists_of_start hstart
  have hwhole : m.state.input.IsWhole := by
    rw [hinput]
    exact ⟨.inl hline⟩
  rw [← hnone] at hrecovered
  have hmet := Machine.given_or_runsOut_of_loop (s := { m.state with halt? := none }) rfl hwhole
    hloop hrecovered hcauses (hcomments m hstart)
  have hanswer : ∀ i, source.editor.answer i = conversation.editor.answer i := by
    intro i
    rw [hbegun.answer, Nat.zero_add]
  split at hmet
  · rename_i hhalt
    obtain ⟨last, n, hlast, hreads, hend, hanswers⟩ := hmet.exists_reads hinput
    have hreads' := hbegun.trans hreads
    rw [Nat.zero_add, ← heditor last hlast] at hreads'
    simp only [hanswer] at hend hanswers
    refine ⟨n + 1, hreads', fun i hi hisEnd => ?_, iff_of_true hhalt ⟨n, n.lt_succ_self, hend⟩⟩
    rcases Nat.lt_or_eq_of_le (Nat.le_of_lt_succ hi) with hlt | rfl
    · rw [hanswers i hlt] at hisEnd
      cases hisEnd
    · rfl
  · rename_i hhalt
    obtain ⟨last, n, hlast, hreads, hanswers⟩ := hmet.exists_reads hinput
    have hreads' := hbegun.trans hreads
    rw [Nat.zero_add, ← heditor last hlast] at hreads'
    simp only [hanswer] at hanswers
    have hnever : ∀ i < n, ¬ (conversation.editor.answer i).isEnd := by
      intro i hi hisEnd
      rw [hanswers i hi] at hisEnd
      cases hisEnd
    exact ⟨n, hreads', fun i hi hisEnd => absurd hisEnd (hnever i hi),
      iff_of_false hhalt fun ⟨i, hi, hisEnd⟩ => hnever i hi hisEnd⟩

/-! ## Conversations without the prelude -/

/-- In a machine that was just set up, all words are in use that are not hidden. -/
theorem visibleNames_booted : Machine.booted.state.dictionary.visibleNames =
    ((entriesFrom 0 vocabulary).reverse.filter (! ·.hidden)).map Entry.name := by
  have hfresh : ({} : Machine).IsBlank := ⟨rfl, rfl, rfl, rfl⟩
  have htracks := dictionary_of_bootstrap bootstrap_booted ▸ hfresh.tracks_stocked
  have hlogged : Machine.booted.state.dictionary.IsLoggedAs (entriesFrom 0 vocabulary).reverse :=
    htracks.logged
  have hfolded : ∀ word ∈ vocabulary, Dictionary.fold word.name = word.name := by decide +kernel
  have hnames : (entriesFrom 0 vocabulary).map Entry.name = vocabulary.map Primitive.name := by
    rw [entriesFrom, List.map_map, ← List.zipIdx_map_fst 0 vocabulary, List.map_map,
      List.zipIdx_map_fst]
    exact List.map_congr_left fun pair hpair => hfolded _ (List.fst_mem_of_mem_zipIdx hpair)
  have hnodup : ((entriesFrom 0 vocabulary).map Entry.name).Nodup := hnames ▸ nodup_names
  rw [hlogged.visibleNames_eq (List.pairwise_reverse.mpr (increasing_entriesFrom (by decide)))]
  congr 1
  refine List.filter_congr fun entry hentry => ?_
  rw [Dictionary.findVisible?, hlogged.chain_find?]
  cases hhidden : entry.hidden with
  | true =>
      refine decide_eq_false fun hfound => ?_
      have haccept := List.find?_some hfound
      simp [hhidden] at haccept
  | false =>
      refine decide_eq_true (find?_of_unique hentry (by simp [hhidden]) fun other hother h => ?_)
      obtain ⟨hname, -⟩ := Bool.and_eq_true_iff.mp h
      rw [beq_iff_eq, hlogged.folded other hother, hlogged.folded entry hentry] at hname
      exact List.inj_on_of_nodup_map hnodup (List.mem_reverse.mp hother)
        (List.mem_reverse.mp hentry) hname

/-- A user who talks to a machine that was just set up. -/
def Conversation.bare (script : List Keystroke) : Conversation where
  session := .ofMachine { banner := false, prelude := false } Machine.booted
  editor := { script }

/-- The machine when that conversation begins. -/
def Machine.listening (script : List Keystroke) : Machine :=
  let source : EditorInput := { editor := { script }, prompt := "tc> " }
  let names := ((entriesFrom 0 vocabulary).reverse.filter (! ·.hidden)).map Entry.name
  (booted.withInput (.editor (source.knowing names.toArray))).withOutput {}

theorem start_bare (script : List Keystroke) :
    (Conversation.bare script).start {} = .ok (.listening script) := by
  rw [Machine.listening, ← visibleNames_booted]
  rfl

theorem run_bare {script : List Keystroke} {fuel : Nat} {halt : Halt} {state : State}
    {recovered : Array Error}
    (hloop : Machine.loop standardTable true standardKernel.quit fuel none
      { (Machine.listening script).state with halt? := none } #[] = some (halt, state, recovered)) :
    ∃ printed after, (Conversation.bare script).run fuel {} = some (.ok halt, printed, after) ∧
      after.session.machine.recovered = recovered := by
  have hstandard : (Machine.listening script).IsStandard :=
    (Machine.isStandard_booted.withInput _).withOutput {}
  have hreport : (Machine.listening script).report = true := congrArg Machine.report booted_eq
  have hlimit : (Machine.listening script).stepLimit = none := congrArg Machine.stepLimit booted_eq
  have hnone : (Machine.listening script).recovered = #[] := congrArg Machine.recovered booted_eq
  have hlisten : Machine.loop (Machine.listening script).primitives
      (Machine.listening script).report standardKernel.quit fuel
      (Machine.listening script).stepLimit
      { (Machine.listening script).state with halt? := none }
      (Machine.listening script).recovered = some (halt, state, recovered) := by
    rw [hstandard.primitives, hreport, hlimit, hnone, hloop]
  rw [Conversation.run, start_bare]
  dsimp only
  rw [Machine.run_eq hstandard.kernel, hlisten]
  exact ⟨_, _, rfl, Machine.recovered_tell { Machine.listening script with state, recovered } halt⟩

set_option maxRecDepth 4000 in
/-- The terminal fails after two lines, of which the first one fails too. -/
theorem exists_outcome_failing_terminal :
    ∃ outcome ∈ Machine.loopWhile State.commentEnds true 60
      ({ (Machine.listening [.line "1 nope", .interrupt, .line "2", .failure, .line "3"]).state with
        halt? := none }, #[]),
      outcome.1 = .endOfInput ∧
      outcome.2.2.toList.map Error.cause = [.undefinedWord "nope"] := by
  decide +kernel

/-- The failure of the terminal was the last answer, and the third line was not read. -/
theorem end_is_last_read_failing_terminal :
    let script : List Keystroke := [.line "1 nope", .interrupt, .line "2", .failure, .line "3"]
    ∃ printed after, (Conversation.bare script).run 60 {} =
        some (.ok .endOfInput, printed, after) ∧
      (Conversation.bare script).editor.Reads 4 after.editor := by
  intro script
  obtain ⟨⟨_, state, recovered⟩, houtcome, rfl, hcauses⟩ := exists_outcome_failing_terminal
  obtain ⟨printed, after, hrun, hrecovered⟩ := run_bare (Machine.loop_of_loopWhile houtcome)
  have hreport : (Machine.listening script).report = true := congrArg Machine.report booted_eq
  have hnone : Machine.booted.recovered = #[] := congrArg Machine.recovered booted_eq
  have hstandard : (Conversation.bare script).session.machine.IsStandard :=
    Machine.isStandard_booted.withOutput {}
  have herrors : after.session.machine.recovered =
      (Conversation.bare script).session.machine.recovered ++ recovered.toList.toArray := by
    rw [hrecovered, show (Conversation.bare script).session.machine.recovered = #[] from hnone]
    simp
  have hother : ∀ error ∈ recovered.toList, error.cause ≠ .endOfInput := by
    intro error herror heq
    have hmem := List.mem_map_of_mem (f := Error.cause) herror
    rw [hcauses, heq] at hmem
    simp at hmem
  have hcomments : ∀ m, (Conversation.bare script).start {} = .ok m → ∀ reached,
      Machine.Comes standardTable standardKernel m.report
        ({ m.state with halt? := none }, m.recovered) reached →
        reached.1.CommentEnds := by
    intro m hstart reached hcomes
    cases (start_bare script).symm.trans hstart
    rw [hreport, show (Machine.listening script).recovered = #[] from hnone] at hcomes
    exact State.CommentEnds.of_test (Machine.test_of_comes houtcome hcomes)
  obtain ⟨n, hreads, hlast, hends⟩ :=
    end_is_last_read hstandard hrun herrors hother hcomments
  obtain ⟨i, hi, hend⟩ := hends.mp rfl
  have hlines : ∀ i < 3, ¬ ((Conversation.bare script).editor.answer i).isEnd := by decide
  have hlt : 3 < n := Nat.lt_of_not_le fun hle => hlines i (by omega) hend
  have hn : 3 + 1 = n := hlast 3 hlt rfl
  subst hn
  exact ⟨printed, after, hrun, hreads⟩

set_option maxRecDepth 4000 in
/-- `KEY` meets the end of the file and fails, and then two more lines are asked for. -/
theorem end_is_not_last_read :
    ∃ outcome ∈ (Conversation.bare [.line "KEY", .endOfFile, .line "1"]).run 60 {},
      ((Conversation.bare [.line "KEY", .endOfFile, .line "1"]).editor.answer 1).isEnd ∧
      outcome.2.2.editor.prompts.size = 4 := by
  rw [Conversation.run, start_bare]
  decide +kernel

end ThreadedForth
