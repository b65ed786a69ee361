import Mathlib.Algebra.Group.Int.Defs
import ThreadedForth.Proofs.Machine.Standard
import ThreadedForth.Proofs.Machine.Steps
import ThreadedForth.Proofs.Words.Careful

/-!
# A failing step changes nothing

A step fails if the cell at `ip` cannot be executed or if its primitive fails.  In the first case
nothing was done, and in the second case the primitive was careful.  So whatever failed, other than
input or output, the machine is where it was and may have read on in the source.
-/

namespace ThreadedForth

open Effect Words

/-- All words of the kernel and the library are careful. -/
theorem careful_of_mem_vocabulary {s : State} (hs : s.IsReady) {word : Primitive}
    (h : word ∈ vocabulary) : Careful word.effect s := by
  rcases List.mem_append.mp h with hkernel | hlibrary
  · exact Words.careful_of_mem_kernelWords hs word hkernel
  · exact Words.careful_of_mem_libraryWords hlibrary s

theorem getElem?_of_lookup {id : Nat} {primitive : Primitive}
    (h : standardTable.lookup id = .ok primitive) : vocabulary[id]? = some primitive := by
  rw [standardTable, PrimitiveTable.lookup, List.getElem?_toArray] at h
  split at h
  · rename_i found hfound
    cases h
    exact hfound
  · cases h

theorem mem_of_lookup {id : Nat} {primitive : Primitive}
    (h : standardTable.lookup id = .ok primitive) : primitive ∈ vocabulary :=
  List.mem_of_getElem? (getElem?_of_lookup h)

/-- A step that fails has only read on, since its primitive is careful. -/
theorem readsTo_of_step_error {s t : State} {error : Error} (hs : s.IsReady)
    (hstep : step standardTable s = .error error t) : error.IsIo ∨ s.ReadsTo t := by
  unfold step at hstep
  dsimp only [finish] at hstep
  split at hstep
  · cases hstep
    exact .inr s.readsTo_refl
  · split at hstep
    · cases hstep
      exact .inr s.readsTo_refl
    · rename_i primitive hlookup
      split at hstep
      · rename_i error' u hfailed
        cases hstep
        -- where a failure struck is added to it, but its cause stays
        rcases careful_of_mem_vocabulary hs (mem_of_lookup hlookup) hfailed with hio | ⟨hinput, hu⟩
        · exact .inl hio.1
        · refine .inr ⟨hinput, ?_⟩
          rw [hu]
      · split at hstep <;> cases hstep
  · cases hstep
  · cases hstep

/-- **A failing step changes nothing.**  If a step of a machine with the kernel and the library
fails on anything but input or output, then the state is what it was before, but for the input,
which may have been read on. -/
theorem step_error_changes_nothing {fresh m : Machine} (hfresh : fresh.primitives = #[])
    (hm : fresh.bootstrap [libraryWords] = .ok () m) {s t : State}
    (hkernel : s.kernel? = m.state.kernel?) {here : Address} (hhere : s.here = .ok here)
    (hroom : here.toInt ≤ Int64.maxValue.toInt - 2 ^ 20 - 3) {error : Error}
    (hstep : step m.primitives s = .error error t)
    (hio : ∀ reason, error.cause ≠ .io reason) :
    t = { s with input := t.input } ∧ s.input.Advances t.input := by
  obtain ⟨hprimitives, hstandard⟩ := isStandard_of_bootstrap hfresh hm
  have hs : s.IsReady := ⟨⟨standardKernel, hkernel.trans hstandard⟩, here, hhere, by omega⟩
  rw [hprimitives] at hstep
  rcases readsTo_of_step_error hs hstep with h | h
  · obtain ⟨reason, hreason⟩ := h
    exact absurd hreason (hio reason)
  · exact ⟨h.2, h.1⟩

/-- The machine is at a word that adds, with an empty stack and room behind `HERE`. -/
def State.atAddition (kernel? : Option Kernel) : State where
  ip := 500
  memory := (({} : Memory).set 0 (.literal (.int 600))).set 500 (.native 58)
  kernel? := kernel?

/-- The addition fails. -/
theorem step_error_changes_nothing_of_addition :
    ∃ m : Machine, ({} : Machine).bootstrap [libraryWords] = .ok () m ∧
      ∃ s error t, step m.primitives s = .error error t ∧
        error.cause = .stackUnderflow .parameter ∧ t = { s with input := t.input } := by
  obtain ⟨m, hm⟩ : ∃ m, ({} : Machine).bootstrap [libraryWords] = .ok () m :=
    ⟨_, bootstrap_booted⟩
  have hcell : (State.atAddition m.state.kernel?).memory.get 500 = .native 58 :=
    Memory.get_set_self ..
  have heffect : arithmetic Number.plus (.atAddition m.state.kernel?) =
      .error { cause := .stackUnderflow .parameter } (.atAddition m.state.kernel?) := rfl
  obtain ⟨context, hstep⟩ := step_native_error hcell (lookup_standardTable rfl) heffect
  rw [← (isStandard_of_bootstrap rfl hm).primitives] at hstep
  have hknown : (State.atAddition m.state.kernel?).kernel? = m.state.kernel? := rfl
  have hhere : (State.atAddition m.state.kernel?).here = .ok 600 := rfl
  have hsame := step_error_changes_nothing rfl hm hknown hhere (by decide) hstep
    (fun reason => Cause.noConfusion)
  exact ⟨m, hm, _, _, _, hstep, rfl, hsame.1⟩

end ThreadedForth
