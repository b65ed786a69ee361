import ThreadedForth.Proofs.Input.Source
import ThreadedForth.Proofs.Machine.Steps
import ThreadedForth.Proofs.Memory.Writing

/-!
# The prompt

The outer loop calls `INTERPRET` and branches back.  Between two tokens the machine is always in the
same place, at `INTERPRET` with the way back in `nip`; this is the prompt.  Here it is followed from
one prompt to the next, one lemma for each thing that can be made of a token.
-/

namespace ThreadedForth

open Effect

/-- The machine is about to read the next token. -/
structure State.Prompts (s : State) (kernel : Kernel) : Prop where
  ip : s.ip = kernel.interpret
  nip : s.nip = kernel.outerLoop + 1
  depth : s.depth ≠ 0
  halt : s.halt? = none

/-- The next token is about to be read, and the outer loop is in place. -/
structure State.AtPrompt (s : State) (w : Outfit) : Prop extends s.Prompts w.kernel where
  memory : s.memory.IsIntact w

section Prompting

variable {w : Outfit} {s t : State} {input : Input} {token : String} {mode : Mode}

/-- The machine with `ip` and `nip` as they are at the prompt. -/
def State.prompted (s : State) (kernel : Kernel) : State :=
  { s with ip := kernel.interpret, nip := kernel.outerLoop + 1 }

theorem State.InCode.atPrompt (hs : s.InCode w) (hmemory : s.memory.IsIntact w) :
    (s.prompted w.kernel).AtPrompt w :=
  ⟨⟨rfl, rfl, hs.depth, hs.halt⟩, hmemory⟩

/-! ## Back to the prompt -/

/-- From its first cell the outer loop calls `INTERPRET`. -/
theorem steady_prompted_of_begin (hs : s.InCode w) (hmemory : s.memory.IsIntact w)
    (hip : s.ip = w.kernel.outerLoop) : Steady w.table s (s.prompted w.kernel) := by
  have hcell : s.memory.get s.ip = .reference w.kernel.interpret := by
    rw [hip]
    exact hmemory.outerLoop.1
  have hcall := quiet_reference hs hcell
  rw [State.called, hip] at hcall
  exact .single hcall rfl

/-- From its second cell the outer loop branches back to the first one. -/
theorem steady_prompted (hs : s.InCode w) (hmemory : s.memory.IsIntact w)
    (hip : s.ip = w.kernel.outerLoop + 1) : Steady w.table s (s.prompted w.kernel) := by
  have hcell : s.memory.get s.ip = .reference w.kernel.branch := by
    rw [hip]
    exact hmemory.outerLoop.2.1
  have hoperand : s.memory.get (s.ip + 1) = .literal (.int (-2)) := by
    rw [hip]
    exact hmemory.outerLoop.2.2.1
  have hback := steady_branch hs hcell hoperand
  have htarget : s.ip + 1 + (-2) = w.kernel.outerLoop := by
    rw [hip]
    grind
  rw [htarget] at hback
  exact hback.trans (steady_prompted_of_begin ⟨hs.depth, hs.halt, hs.primitives⟩ hmemory rfl)

theorem reaches_prompted (hs : s.InCode w) (hmemory : s.memory.IsIntact w)
    (hip : s.ip = w.kernel.outerLoop + 1) : Reaches w.table s (s.prompted w.kernel) :=
  (steady_prompted hs hmemory hip).reaches

/-- The machine is in the outer loop, wherever it was interrupted there. -/
structure State.InOuterLoop (s : State) (kernel : Kernel) : Prop where
  depth : s.depth ≠ 0
  place : s.ip = kernel.outerLoop ∨ s.ip = kernel.outerLoop + 1 ∨
    s.ip = kernel.interpret ∧ s.nip = kernel.outerLoop + 1

/-- From wherever it was interrupted, the outer loop gets to the prompt. -/
theorem steady_prompted_of_loop (hs : s.InCode w) (hmemory : s.memory.IsIntact w)
    (hloop : s.InOuterLoop w.kernel) : Steady w.table s (s.prompted w.kernel) := by
  rcases hloop.place with hip | hip | ⟨hip, hnip⟩
  · exact steady_prompted_of_begin hs hmemory hip
  · exact steady_prompted hs hmemory hip
  · have hsame : (s.prompted w.kernel) = s := by rw [State.prompted, ← hip, ← hnip]
    rw [hsame]
    exact .refl s

theorem reaches_prompted_of_loop (hs : s.InCode w) (hmemory : s.memory.IsIntact w)
    (hloop : s.InOuterLoop w.kernel) : Reaches w.table s (s.prompted w.kernel) :=
  (steady_prompted_of_loop hs hmemory hloop).reaches

/-! ## From `QUIT` -/

/-- In interpret mode `STATE` holds zero. -/
theorem get_state_of_mode (h : s.mode = .ok .interpret) :
    s.memory.get Variable.state.address = .literal (.int 0) := by
  rcases hread : s.readVariable .state with cause | n
  · rw [State.mode, hread] at h
    cases h
  · have hmode : s.mode = .ok (Mode.ofState n) := by
      rw [State.mode, hread]
      rfl
    rw [hmode, Mode.ofState] at h
    split at h
    · rename_i hzero
      rw [get_of_readVariable hread, hzero]
    · cases h

/-- Whoever is in interpret mode is not changed by going there. -/
theorem setMode_interpret (h : s.mode = .ok .interpret) : s.setMode .interpret = s := by
  have hsame := Memory.set_of_get (get_state_of_mode h) (by simp)
  simp only [State.setMode, State.writeVariable, Mode.toState, hsame]

/-- `QUIT` abandons what is going on and begins the outer loop. -/
theorem quiet_quit (hs : s.memory.HasPrimitives w) (hkernel : s.kernel? = some w.kernel)
    (hhalt : s.halt? = none) (hip : s.ip = w.kernel.quit) :
    Quiet w.table s { s.setMode .interpret with
      returns := {}, depth := 1, ip := w.kernel.outerLoop } := by
  have hword : w.words[8]? =
    some { name := "QUIT", control := .owned, effect := restart } := w.getElem?_words rfl
  have hcell : s.memory.get s.ip = .native (w.first + 8) := by
    rw [hip]
    exact hs.primitive 8 (w.lt_length hword)
  have hread : s.kernel = .ok w.kernel := by rw [State.kernel, hkernel]
  have heffect : restart s = .ok () { s.setMode .interpret with
      returns := {}, depth := 1, ip := w.kernel.outerLoop } := by
    rw [restart, bind_ok (examine_ok hread)]
    rfl
  rw [Quiet, step_owned hcell (w.lookup _ _ hword) rfl heffect]
  exact congrArg₂ EStateM.Result.ok hhalt (State.with_halt_none hhalt)

/-- Setting the mode keeps what the outer loop needs. -/
theorem isIntact_setMode (hs : s.memory.IsIntact w) (mode : Mode) :
    (s.setMode mode).memory.IsIntact w := by
  refine hs.congr fun address hfour _ => Memory.get_set_of_ne _ ?_ _
  rintro rfl
  exact absurd hfour (by decide)

/-- From `QUIT` the machine gets to the prompt, whatever was going on. -/
theorem steady_prompted_of_quit (hmemory : s.memory.IsIntact w)
    (hkernel : s.kernel? = some w.kernel) (hhalt : s.halt? = none)
    (hip : s.ip = w.kernel.quit) :
    Steady w.table s
      (State.prompted { s.setMode .interpret with returns := {}, depth := 1 } w.kernel) := by
  have hquit := quiet_quit hmemory.toHasPrimitives hkernel hhalt hip
  have hintact := isIntact_setMode hmemory .interpret
  have hbegin := steady_prompted_of_begin (s := { s.setMode .interpret with
    returns := {}, depth := 1, ip := w.kernel.outerLoop })
    ⟨Nat.one_ne_zero, hhalt, hintact.toHasPrimitives⟩ hintact rfl
  exact (Steady.single hquit rfl).trans hbegin

theorem reaches_prompted_of_quit (hmemory : s.memory.IsIntact w)
    (hkernel : s.kernel? = some w.kernel) (hhalt : s.halt? = none)
    (hip : s.ip = w.kernel.quit) :
    Reaches w.table s
      (State.prompted { s.setMode .interpret with returns := {}, depth := 1 } w.kernel) :=
  (steady_prompted_of_quit hmemory hkernel hhalt hip).reaches

/-! ## One token -/

theorem interpret_word : w.words[7]? =
    some { name := "INTERPRET", control := .owned, effect := interpret } := w.getElem?_words rfl

theorem State.AtPrompt.get_ip (hs : s.AtPrompt w) : s.memory.get s.ip = .native (w.first + 7) := by
  rw [hs.ip]
  exact hs.memory.primitive 7 (w.lt_length interpret_word)

/-- `INTERPRET` reads a token and acts on what it means. -/
theorem quiet_interpret (hs : s.AtPrompt w) (hread : s.input.readToken = (some token, input))
    (hmode : s.mode = .ok mode) {meaning : Meaning} (hmeaning : s.classify token = .ok meaning)
    (hact : act mode meaning { s with input } = .ok () t) (hhalt : t.halt? = none) :
    Quiet w.table s t := by
  have hmode' : State.mode { s with input } = .ok mode := hmode
  have hmeaning' : State.classify { s with input } token = .ok meaning := hmeaning
  have heffect : interpret s = .ok () t := by
    rw [interpret, bind_ok (readToken?_ok hread)]
    change (examine State.mode >>= fun mode => examine (·.classify token) >>= act mode) _ = _
    rw [bind_ok (examine_ok hmode'), bind_ok (examine_ok hmeaning'), hact]
  rw [Quiet, step_owned hs.get_ip (w.lookup _ _ interpret_word) rfl heffect, hhalt,
    State.with_halt_none hhalt]

/-- At the end of the input `INTERPRET` halts and stays where it is. -/
theorem step_interpret_end (hs : s.AtPrompt w) (hread : s.input.readToken = (none, input)) :
    step w.table s = .ok (some .endOfInput) { s with input } := by
  have heffect : interpret s = .ok () { s with input, halt? := some .endOfInput } := by
    rw [interpret, bind_ok (readToken?_ok hread)]
    rfl
  rw [step_owned hs.get_ip (w.lookup _ _ interpret_word) rfl heffect, ← hs.halt]

/-- On a token that means nothing `INTERPRET` fails, and has read it. -/
theorem step_interpret_error (hs : s.AtPrompt w) (hread : s.input.readToken = (some token, input))
    (hmode : s.mode = .ok mode) {cause : Cause} (hmeaning : s.classify token = .error cause) :
    ∃ context, step w.table s = .error { cause, context } { s with input } := by
  have hmode' : State.mode { s with input } = .ok mode := hmode
  have hmeaning' : State.classify { s with input } token = .error cause := hmeaning
  have heffect : interpret s = .error { cause } { s with input } := by
    rw [interpret, bind_ok (readToken?_ok hread)]
    change (examine State.mode >>= fun mode => examine (·.classify token) >>= act mode) _ = _
    rw [bind_ok (examine_ok hmode'), bind_error (examine_error hmeaning')]
  obtain ⟨context, hstep⟩ :=
    step_native_error hs.get_ip (w.lookup _ _ interpret_word) heffect
  exact ⟨_, hstep⟩

/-- A literal is pushed. -/
theorem reaches_literal (hs : s.AtPrompt w) (hread : s.input.readToken = (some token, input))
    (hmode : s.mode = .ok .interpret) {v : Value} (hmeaning : s.classify token = .ok (.literal v)) :
    Reaches w.table s { s with input, parameters := s.parameters.push v } := by
  have hquiet := quiet_interpret (t := { s with
    input, parameters := s.parameters.push v, ip := s.nip }) hs hread hmode hmeaning rfl hs.halt
  have hback := reaches_prompted (s := { s with
    input, parameters := s.parameters.push v, ip := s.nip })
    ⟨hs.depth, hs.halt, hs.memory.toHasPrimitives⟩ hs.memory hs.nip
  rw [State.prompted, ← hs.ip, ← hs.nip] at hback
  exact (Reaches.single hquiet).trans hback

/-- A word that is executed goes on by itself. -/
theorem quiet_jump (hs : s.AtPrompt w) (hread : s.input.readToken = (some token, input))
    {entry : Entry} (hfind : s.dictionary.findVisible? token = some entry)
    (hmode : s.mode = .ok mode) (hexecuted : mode = .interpret ∨ entry.immediate = true) :
    Quiet w.table s { s with input, ip := entry.address } := by
  refine quiet_interpret hs hread hmode (classify_word hfind) ?_ hs.halt
  rw [act, if_pos hexecuted]
  rfl

/-- A primitive that is executed returns to the prompt, and all that it does it does in one step. -/
theorem quiet_executed (hs : s.AtPrompt w) (hread : s.input.readToken = (some token, input))
    {entry : Entry} (hfind : s.dictionary.findVisible? token = some entry)
    (hmode : s.mode = .ok mode) (hexecuted : mode = .interpret ∨ entry.immediate = true)
    {position : Nat} {word : Primitive} (haddress : entry.address = primitiveAddress position)
    (hword : w.words[position]? = some word) (hcontrol : word.control = .advance)
    (heffect : word.effect { s with input, ip := entry.address } = .ok () t)
    (hnip : t.nip = s.nip) (hdepth : t.depth = s.depth) (hhalt : t.halt? = none)
    (hmemory : t.memory.IsIntact w) :
    ∃ u v, Steady w.table s u ∧ Quiet w.table u v ∧ Steady w.table v (t.prompted w.kernel) := by
  have hjump := quiet_jump hs hread hfind hmode hexecuted
  have heffected := quiet_advance (s := { s with input, ip := entry.address }) hword hcontrol
    haddress hs.memory.toHasPrimitives heffect hhalt
  have hreturn := quiet_trampoline (s := { t with ip := entry.address + 1 })
    (w.lt_length hword) (congrArg (· + 1) haddress) hmemory.toHasPrimitives hhalt
  have hback : Steady w.table { t with ip := t.nip } (t.prompted w.kernel) :=
    steady_prompted (s := { t with ip := t.nip })
      ⟨hdepth ▸ hs.depth, hhalt, hmemory.toHasPrimitives⟩ hmemory (hnip.trans hs.nip)
  exact ⟨_, _, .single hjump rfl, heffected, (Steady.single hreturn rfl).trans hback⟩

theorem reaches_executed (hs : s.AtPrompt w) (hread : s.input.readToken = (some token, input))
    {entry : Entry} (hfind : s.dictionary.findVisible? token = some entry)
    (hmode : s.mode = .ok mode) (hexecuted : mode = .interpret ∨ entry.immediate = true)
    {position : Nat} {word : Primitive} (haddress : entry.address = primitiveAddress position)
    (hword : w.words[position]? = some word) (hcontrol : word.control = .advance)
    (heffect : word.effect { s with input, ip := entry.address } = .ok () t)
    (hnip : t.nip = s.nip) (hdepth : t.depth = s.depth) (hhalt : t.halt? = none)
    (hmemory : t.memory.IsIntact w) : Reaches w.table s (t.prompted w.kernel) := by
  obtain ⟨_, _, hjump, heffected, hback⟩ := quiet_executed hs hread hfind hmode hexecuted
    haddress hword hcontrol heffect hnip hdepth hhalt hmemory
  exact (hjump.reaches.trans (.single heffected)).trans hback.reaches

end Prompting

end ThreadedForth
