import ThreadedForth.Proofs.Input.Seam
import ThreadedForth.Proofs.Machine.Mirroring
import ThreadedForth.Proofs.Machine.Watching

/-!
# Source in pieces

A text that ends anywhere may be followed by another one, and the machine goes on as if they were
two lines of one text.  The run on both texts is compared with the run on the first one, with a
`Seam` between their inputs.  Every word does the same in both, unless it fails in the first for
want of more input or skips a comment that is still open.  When the first run halts, the other run
is at the same place, and what it reads next is the first token of the second text.
-/

namespace ThreadedForth

open Effect

variable {s t : State} {report : Bool}

/-! ## Across the seam -/

/-- The surroundings differ in the input only, which goes on behind the seam. -/
def Surroundings.Seam (more : List Char) (around other : Surroundings) : Prop :=
  ∃ input, Input.Seam more around.input input ∧ other = { around with input }

/-- What is written is the same on both sides, so it comes to the same. -/
theorem Surroundings.Seam.agree {more : List Char} {excused : Cause → Prop}
    {around other : Surroundings} (h : around.Seam more other) (text : String) :
    Agree (Surroundings.Seam more) excused around other (around.output.write text)
      (other.output.write text) := by
  obtain ⟨input, hseam, rfl⟩ := h
  rcases around.output.write text with cause | output
  · exact .inr rfl
  · exact ⟨output, rfl, input, hseam, rfl⟩

theorem Surroundings.Seam.isKept (more : List Char) :
    Surroundings.IsKept (Surroundings.Seam more) (· = .endOfInput) where
  insisted := by
    rintro α reading hreading around _ ⟨input, hseam, rfl⟩
    rcases hseam.insisted hreading with hnone | ⟨hsame, hseam'⟩
    · exact .inl ⟨hnone, rfl⟩
    · exact .inr ⟨hsame, _, hseam', rfl⟩
  dropLine := by
    rintro around _ ⟨input, hseam, rfl⟩
    exact ⟨_, hseam.dropLine, rfl⟩
  write _ _ h text := h.agree text
  names := by
    rintro around other h dictionary
    have horder : other.order = around.order := by
      obtain ⟨input, -, rfl⟩ := h
      rfl
    rw [horder]
    exact h.agree _
  print := by
    rintro around _ ⟨input, hseam, rfl⟩ text
    exact ⟨input, hseam, rfl⟩

/-- At `INTERPRET`, two runs whose inputs hold the same next token end in the same way. -/
theorem loop_of_sameToken {first second : Input} (hinput : first.SameToken second)
    {word : Primitive} (hword : s.Executes standardTable word) (hname : word.name = "INTERPRET")
    (hhalt : s.halt? = none) {fuel : Nat} {halt : Halt} {recovered recovered' : Array Error}
    (hloop : Machine.loop standardTable report standardKernel.quit fuel none
      { s with input := first } recovered = some (halt, t, recovered')) :
    ∃ input, Machine.loop standardTable report standardKernel.quit fuel none
      { s with input := second } recovered = some (halt, { t with input }, recovered') := by
  obtain ⟨heffect, hcontrol⟩ := effect_of_name_interpret word hword.mem hname
  have hstep : ∀ input, step standardTable { s with input } =
      settle .owned s.ip (interpret { s with input }) := by
    intro input
    have hexecutes : State.Executes standardTable { s with input } word := hword
    rw [step_of_executes hexecutes, heffect, hcontrol]
  have hend : ∀ input : Input, input.readToken.1 = none → step standardTable { s with input } =
      .ok (some .endOfInput) { s with input := input.readToken.2 } := by
    intro input hnone
    have hexecutes : State.Executes standardTable { s with input } word := hword
    rw [step_of_no_token hexecutes hname hnone]
    exact congrArg (EStateM.Result.ok (some Halt.endOfInput))
      (State.with_halt_none (s := { s with input := input.readToken.2 }) hhalt)
  cases fuel with
  | zero => cases hloop
  | succ fuel =>
      rcases hinput with hsame | ⟨hnone, hnone'⟩
      · have hinterpret : interpret { s with input := first } =
            interpret { s with input := second } := by
          rcases hread : second.readToken with ⟨token?, rest⟩
          rw [hread] at hsame
          rw [interpret, bind_ok (readToken?_ok (s := { s with input := first }) hsame),
            bind_ok (readToken?_ok (s := { s with input := second }) hread)]
        have hadvance : Machine.advance standardTable report standardKernel.quit
            { s with input := first } recovered =
            Machine.advance standardTable report standardKernel.quit
              { s with input := second } recovered := by
          rw [Machine.advance, Machine.advance, hstep, hstep, hinterpret]
        rw [Machine.loop, hadvance] at hloop
        · rw [Machine.loop]
          · exact ⟨t.input, hloop⟩
          · exact fun h => by cases h
        · exact fun h => by cases h
      · rw [Machine.loop_of_halt (hend first hnone) (by simp)] at hloop
        cases hloop
        exact ⟨_, Machine.loop_of_halt (hend second hnone') (by simp) fuel⟩

/-! ## The theorem -/

/-- Given the time, the machine comes to rest on the source for that reason, and then is as said but
for what is left of the input. -/
def Machine.Rests (m : Machine) (source : String) (halt : Halt) (after : Machine) : Prop :=
  ∃ fuel input, m.runSource fuel source = some (.ok halt, after.withInput input)

/-- Without a limit on its steps and with nobody to be told, a machine comes to rest as the loop
does. -/
theorem Machine.rests_iff {m : Machine} (hm : m.IsStandard) (hlimit : m.stepLimit = none)
    (hwatched : m.watched = false) {source : String} {halt : Halt} {after : Machine} :
    m.Rests source halt after ↔ ∃ state recovered,
      (∃ fuel, loop standardTable m.report standardKernel.quit fuel none (m.started source)
        m.recovered = some (halt, state, recovered)) ∧
      ∃ input, after.withInput input = { m with state, recovered } := by
  have htell : ∀ state recovered, tell { m with state, recovered } halt =
      { m with state, recovered } := by
    intro state recovered
    rw [tell, if_neg (by simp [hwatched])]
  constructor
  · rintro ⟨fuel, input, hrests⟩
    obtain ⟨state, recovered, hloop, hafter⟩ := (runSource_eq_some_iff hm.kernel).mp hrests
    rw [hm.primitives, hlimit] at hloop
    exact ⟨state, recovered, ⟨fuel, hloop⟩, input, hafter.trans (htell _ _)⟩
  · rintro ⟨state, recovered, ⟨fuel, hloop⟩, input, hafter⟩
    rw [← hm.primitives, ← hlimit] at hloop
    exact ⟨fuel, input, (runSource_eq_some_iff hm.kernel).mpr
      ⟨state, recovered, hloop, hafter.trans (htell _ _).symm⟩⟩

/-- **Source may come in pieces.**  Let a machine with the kernel and the library, in whatever state
and without a limit on its steps, run on a text up to its end, so that no failure on the way is for
want of input, and no comment is still open at the end.

Then a run on a second text goes on from there as a run on both texts would have, with a newline
between them: if one comes to rest, so does the other, and for the same reason; and the machine is
the same afterwards, but for what is left of the input. -/
theorem runs_in_pieces {m middle : Machine} (hm : m.IsStandard) (hlimit : m.stepLimit = none)
    (hwatched : m.watched = false) {first : String} {fuel : Nat}
    (hrun : m.runSource fuel first = some (.ok .endOfInput, middle)) {errors : List Error}
    (hrecovered : middle.recovered = m.recovered ++ errors.toArray)
    (hcauses : ∀ error ∈ errors, error.cause ≠ .endOfInput)
    (hcomments : ∀ reached, Machine.Comes standardTable standardKernel m.report
      (m.started first, m.recovered) reached → reached.1.CommentEnds)
    (second : String) (halt : Halt) (after : Machine) :
    middle.Rests second halt after ↔ m.Rests (first ++ "\n" ++ second) halt after := by
  obtain ⟨state, recovered, hloop, rfl⟩ := (Machine.runSource_eq_some_iff hm.kernel).mp hrun
  rw [hm.primitives, hlimit] at hloop
  obtain ⟨u, hcomes, hhalts⟩ := Machine.comes_of_loop hloop
  have hmiddle : Machine.tell { m with state, recovered } .endOfInput =
      { m with state, recovered } := by
    rw [Machine.tell, if_neg (by simp [hwatched])]
  rw [hmiddle] at hrecovered ⊢
  have hu : u.halt? = none := Machine.halt?_of_comes hcomes rfl
  have hkernel : u.kernel? = some standardKernel :=
    (Machine.kernel?_of_comes hcomes).trans hm.kernel
  obtain ⟨⟨word, hword, hname⟩, hnone, rfl⟩ := interpret_of_halt hu hhalts
  -- the run on both texts is at the same place when the first run halts
  have hinput : Input.Seam second.toList (m.started first).input
      (.ofString (first ++ "\n" ++ second)) := by
    have htext : (first ++ "\n" ++ second).toList = first.toList ++ '\n' :: second.toList := by
      simp
    rw [Input.ofString, TextInput.ofString, htext]
    exact .before first.toList false
  obtain ⟨other, ⟨input, hinput', rfl⟩, hcomes'⟩ :=
    comes_mirrors (Surroundings.Seam.isKept _) hcomes (fun _ => hcomments) hrecovered hcauses
      ⟨_, hinput, rfl⟩
  have hsame := hinput'.sameToken hnone false
  let middle : Machine := { m with state := { u with input := u.input.readToken.2 }, recovered }
  have hstandard : middle.IsStandard := ⟨hm.primitives, hkernel⟩
  have hstarted : middle.started second = { u with input := .ofString second } :=
    State.with_halt_none (s := { u with input := .ofString second }) hu
  change middle.Rests second halt after ↔ _
  rw [Machine.rests_iff hstandard hlimit hwatched, Machine.rests_iff hm hlimit hwatched, hstarted]
  constructor
  · rintro ⟨state, recovered', ⟨fuel, hloop⟩, input, hafter⟩
    obtain ⟨input', hloop'⟩ := loop_of_sameToken hsame.symm hword hname hu hloop
    exact ⟨_, _, (Machine.exists_loop_iff_of_comes hcomes').mpr ⟨fuel, hloop'⟩, input',
      congrArg (Machine.withInput · input') hafter⟩
  · rintro ⟨state, recovered', hloop, input, hafter⟩
    obtain ⟨fuel, hloop⟩ := (Machine.exists_loop_iff_of_comes hcomes').mp hloop
    obtain ⟨input', hloop'⟩ := loop_of_sameToken hsame hword hname hu hloop
    exact ⟨_, _, ⟨fuel, hloop'⟩, input', congrArg (Machine.withInput · input') hafter⟩

set_option maxRecDepth 4000 in
/-- A text whose first line fails and whose second line ends inside a definition, run step by
step. -/
theorem exists_outcome_square :
    ∃ outcome ∈ Machine.loopWhile State.commentEnds true 100
      (Machine.booted.started "3 ( three ) nope 4\n: SQUARE DUP", #[]),
      outcome.1 = .endOfInput ∧
      outcome.2.2.toList.map Error.cause = [.undefinedWord "nope"] := by
  decide +kernel

/-- The definition goes on in the second text. -/
theorem runs_in_pieces_square :
    ∃ (middle : Machine) (errors : List Error),
      Machine.booted.runSource 100 "3 ( three ) nope 4\n: SQUARE DUP" =
        some (.ok .endOfInput, middle) ∧
      errors.map Error.cause = [.undefinedWord "nope"] ∧
      ∀ halt after, middle.Rests "* ; SQUARE" halt after ↔
        Machine.booted.Rests ("3 ( three ) nope 4\n: SQUARE DUP" ++ "\n" ++ "* ; SQUARE")
          halt after := by
  obtain ⟨⟨halt, state, recovered⟩, houtcome, rfl, hcauses⟩ := exists_outcome_square
  have hstandard : Machine.booted.IsStandard := isStandard_of_bootstrap rfl bootstrap_booted
  have hreport : Machine.booted.report = true := by rw [booted_eq]
  have hlimit : Machine.booted.stepLimit = none := by rw [booted_eq]
  have hwatched : Machine.booted.watched = false := by rw [booted_eq]
  have hnone : Machine.booted.recovered = #[] := by rw [booted_eq]
  have hloop := Machine.loop_of_loopWhile houtcome
  have hrun := (Machine.runSource_eq_some_iff hstandard.kernel).mpr
    ⟨state, recovered, by rw [hstandard.primitives, hreport, hlimit, hnone]; exact hloop, rfl⟩
  rw [Machine.tell, if_neg (by simp [hwatched])] at hrun
  have hrecovered : recovered = Machine.booted.recovered ++ recovered.toList.toArray := by
    simp [hnone]
  have hother : ∀ error ∈ recovered.toList, error.cause ≠ .endOfInput := by
    intro error herror heq
    have hmem := List.mem_map_of_mem (f := Error.cause) herror
    rw [hcauses, heq] at hmem
    simp at hmem
  have hcomments : ∀ reached, Machine.Comes standardTable standardKernel
      Machine.booted.report (Machine.booted.started "3 ( three ) nope 4\n: SQUARE DUP",
        Machine.booted.recovered)
      reached → reached.1.CommentEnds := by
    intro reached hcomes
    rw [hreport, hnone] at hcomes
    exact State.CommentEnds.of_test (Machine.test_of_comes houtcome hcomes)
  exact ⟨_, recovered.toList, hrun, hcauses,
    runs_in_pieces hstandard hlimit hwatched hrun hrecovered hother hcomments "* ; SQUARE"⟩

end ThreadedForth
