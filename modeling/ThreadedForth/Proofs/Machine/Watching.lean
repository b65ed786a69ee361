import ThreadedForth.Proofs.Machine.Runs
import ThreadedForth.Proofs.Machine.Standard

/-!
# Watching a run

A run that is evaluated says how it ends.  To know something of all the states on the way, the run
is evaluated once more by a loop that gives up at the first state that fails a test.  If that loop
does not give up, then it ends as the run does, and every state that the run comes to passes.
-/

namespace ThreadedForth

open Effect

namespace Machine

/-- Makes steps until the machine halts, but only from states that pass the test. -/
def loopWhile (test : State → Bool) (report : Bool) : Nat → Progress → Option (Halt × Progress)
  | 0, _ => none
  | fuel + 1, before =>
    if test before.1 then
      match advance standardTable report standardKernel.quit before.1 before.2 with
      | (none, after) => loopWhile test report fuel after
      | (some halt, after) => some (halt, after)
    else none

variable {test : State → Bool} {report : Bool} {fuel : Nat} {before after : Progress}
variable {outcome : Halt × Progress}

/-- A run whose states pass ends as it would have. -/
theorem loop_of_loopWhile (h : loopWhile test report fuel before = some outcome) :
    loop standardTable report standardKernel.quit fuel none before.1 before.2 = some outcome := by
  fun_induction loopWhile test report fuel before with
  | case1 => cases h
  | case2 fuel before _ after hadvance ih =>
      rw [loop, hadvance]
      · exact ih h
      · exact fun h => by cases h
  | case3 fuel before _ halt after hadvance =>
      rw [loop, hadvance]
      · exact h
      · exact fun h => by cases h
  | case4 => cases h

/-- If the loop does not give up, every state on the way passes. -/
theorem test_of_comes (h : loopWhile test report fuel before = some outcome)
    (hcomes : Comes standardTable standardKernel report before after) : test after.1 = true := by
  induction fuel generalizing before with
  | zero => cases h
  | succ fuel ih =>
      rw [loopWhile] at h
      split at h
      · rename_i htest
        rcases Relation.ReflTransGen.cases_head hcomes with rfl | ⟨middle, hgoes, hrest⟩
        · exact htest
        · simp only [show advance _ _ _ _ _ = _ from hgoes] at h
          exact ih h hrest
      · cases h

end Machine

end ThreadedForth
