import ThreadedForth.Proofs.OuterLoop.Prompt

/-!
# Executing a definition

A definition whose name is read at the prompt is entered as if the second cell of the outer loop had
been called, and leaves to there by its `EXIT`.
-/

namespace ThreadedForth

/-- The state in which a definition begins that was executed at the prompt. -/
def State.begun (s : State) (kernel : Kernel) (input : Input) : State :=
  { s with
    input
    returns := s.returns.push (.int (kernel.outerLoop + 1))
    depth := s.depth + 1 }

section Executing

variable {w : Outfit} {s : State} {token : String} {rest : Input} {mode : Mode} {entry : Entry}

theorem reaches_begun (hs : s.AtPrompt w) (hread : s.input.readToken = (some token, rest))
    (hfind : s.dictionary.findVisible? token = some entry) (hmode : s.mode = .ok mode)
    (hexecuted : mode = .interpret ∨ entry.immediate = true)
    (hcell : s.memory.get entry.address = .native w.kernel.docol) :
    Reaches w.table s { s.begun w.kernel rest with ip := entry.address + 1 } := by
  have hjump := quiet_jump hs hread hfind hmode hexecuted
  have hdocol := quiet_docol (s := { s with input := rest, ip := entry.address })
    ⟨hs.depth, hs.halt, hs.memory.toHasPrimitives⟩ hcell
  rw [State.begun, ← hs.nip]
  exact (Reaches.single hjump).trans (.single hdocol)

theorem reaches_prompted_of_exit (hs : s.InCode w) (hmemory : s.memory.IsIntact w)
    (hcell : s.memory.get s.ip = .reference w.kernel.exit) {returns : Stack .returns}
    (hlink : s.returns = returns.push (.int (w.kernel.outerLoop + 1)))
    (hdepth : 1 < s.depth) :
    Reaches w.table s (State.prompted { s with returns, depth := s.depth - 1 } w.kernel) := by
  have hexit := reaches_exit hs hcell hlink
  refine hexit.trans (reaches_prompted (s := { s with
    ip := w.kernel.outerLoop + 1
    nip := w.kernel.outerLoop + 1
    returns
    depth := s.depth - 1 }) ⟨?_, hs.halt, hs.primitives⟩ hmemory rfl)
  change s.depth - 1 ≠ 0
  omega

end Executing

end ThreadedForth
