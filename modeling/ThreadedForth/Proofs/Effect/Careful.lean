import ThreadedForth.Proofs.Effect.Laws
import ThreadedForth.Proofs.Input.Reading
import ThreadedForth.Proofs.Memory.Layout

/-!
# Looking before taking

An effect that fails leaves behind whatever it had already done.  Two properties of an effect at a
state say that this is harmless.

* `Ensures memory x s Q`: from `s` the effect fails on input or output only, and then it leaves that
  memory; and if it does not fail, then `Q` holds of what it returns and leaves.
* `Careful x s`: if from `s` the effect fails on input or output, then it has not touched memory,
  and if it fails on anything else, then all it did was to read on in the input.

A word is careful if it first only looks, and can be sure of the rest once it begins to change the
state.  So there is a rule for each way of looking, and `Careful.of_ensures` for the rest.
-/

namespace ThreadedForth

/-- The states agree on everything but the input, in which the second is further on. -/
def State.ReadsTo (s t : State) : Prop := s.input.Advances t.input ∧ t = { s with input := t.input }

/-- At least `n` more cells can be compiled. -/
def State.HasRoom (s : State) (n : Nat) : Prop :=
  ∃ here, s.here = .ok here ∧ here.toInt + n ≤ Int64.maxValue.toInt

/-- The input or the output refused. -/
def Error.IsIo (error : Error) : Prop := ∃ reason, error.cause = .io reason

theorem State.readsTo_refl (s : State) : s.ReadsTo s := ⟨.refl _, rfl⟩

theorem State.readsTo_input {s : State} {input : Input} (h : s.input.Advances input) :
    s.ReadsTo { s with input } := ⟨h, rfl⟩

theorem State.ReadsTo.trans {s t u : State} (h : s.ReadsTo t) (h' : t.ReadsTo u) :
    s.ReadsTo u := by
  obtain ⟨hinput, ht⟩ := h
  obtain ⟨hinput', hu⟩ := h'
  refine ⟨hinput.trans hinput', ?_⟩
  rw [hu, ht]

theorem State.HasRoom.mono {s : State} {m n : Nat} (h : s.HasRoom n) (hle : m ≤ n) :
    s.HasRoom m := by
  obtain ⟨here, hhere, hroom⟩ := h
  exact ⟨here, hhere, by omega⟩

namespace Effect

variable {α β : Type} {x : Effect α} {f : α → Effect β} {s : State} {memory : Memory}

/-! ## Effects that can be sure of themselves -/

/-- The effect fails on input or output only, and then it leaves that memory; if it does not fail,
then what it returns and leaves is as said. -/
def Ensures (memory : Memory) (x : Effect α) (s : State) (Q : α → State → Prop) : Prop :=
  match x s with
  | .ok a t => Q a t
  | .error error t => error.IsIo ∧ t.memory = memory

theorem Ensures.of_ok {Q : α → State → Prop} {a : α} {t : State} (h : x s = .ok a t)
    (hQ : Q a t) : Ensures memory x s Q := by
  rw [Ensures, h]
  exact hQ

theorem Ensures.bind {Q : β → State → Prop}
    (h : Ensures memory x s fun a t => Ensures memory (f a) t Q) :
    Ensures memory (x >>= f) s Q := by
  unfold Ensures at h
  split at h
  · rename_i a t hx
    rw [Ensures, bind_ok hx]
    exact h
  · rename_i error t hx
    rw [Ensures, bind_error hx]
    exact h

theorem Ensures.discard {Q : Unit → State → Prop} (h : Ensures memory x s fun _ t => Q () t) :
    Ensures memory (discard x) s Q := by
  unfold Ensures at h
  split at h
  · rename_i a t hx
    exact .of_ok (discard_ok hx) h
  · rename_i error t hx
    rw [Ensures, discard_error hx]
    exact h

theorem Ensures.isIo {Q : α → State → Prop} (h : Ensures memory x s Q) {error : Error} {t : State}
    (herror : x s = .error error t) : error.IsIo ∧ t.memory = memory := by
  rwa [Ensures, herror] at h

/-- What is on the stack can be popped. -/
theorem Ensures.pop {Q : Value → State → Prop} {v : Value} {rest : Stack .parameter}
    (h : s.parameters = rest.push v) (hQ : Q v { s with parameters := rest }) :
    Ensures memory pop s Q := by
  refine .of_ok ?_ hQ
  rw [pop_apply, h, Stack.pop_push]

/-- Writing fails on output only. -/
theorem Ensures.write {Q : Unit → State → Prop} {text : String} (hmemory : s.memory = memory)
    (hQ : ∀ output, Q () { s with output }) : Ensures memory (write text) s Q := by
  change Ensures memory
    (liftM (s.output.write text) >>= fun output => modify ({ · with output })) s Q
  refine .bind ?_
  rcases hwrite : s.output.write text with cause | output
  · rw [Ensures, lift_error rfl]
    unfold Output.write at hwrite
    split at hwrite <;> cases hwrite
    exact ⟨⟨_, rfl⟩, hmemory⟩
  · exact .of_ok (lift_ok rfl) (.of_ok rfl (hQ output))

/-- A cell can be compiled if there is room for it. -/
theorem Ensures.compile {Q : Address → State → Prop} {cell : Cell} {n : Nat}
    (hroom : s.HasRoom (n + 1))
    (hQ : ∀ here t, t.HasRoom n → t.kernel? = s.kernel? → Q here t) :
    Ensures memory (compile cell) s Q := by
  obtain ⟨here, hhere, hle⟩ := hroom
  have hmax : here ≠ Int64.maxValue := by
    rintro rfl
    omega
  refine .of_ok (compile_ok hhere hmax) (hQ _ _ ⟨here + 1, here_compiled, ?_⟩ rfl)
  rw [Address.toInt_add_one (by omega)]
  omega

theorem Ensures.compilePush {Q : Unit → State → Prop} {v : Value} {kernel : Kernel} {n : Nat}
    (hkernel : s.kernel? = some kernel) (hroom : s.HasRoom (n + 2))
    (hQ : ∀ t, t.HasRoom n → t.kernel? = s.kernel? → Q () t) :
    Ensures memory (compilePush v) s Q := by
  have hread : s.kernel = .ok kernel := by rw [State.kernel, hkernel]
  refine .bind (.of_ok (examine_ok hread) (.bind (.discard (.compile (n := n + 1) hroom ?_))))
  intro _ t hroom' hsame
  refine .discard (.compile hroom' fun _ u hroom'' hsame' => hQ u hroom'' (hsame'.trans hsame))

/-! ## Effects that are careful -/

/-- If the effect fails on input or output, then it has not touched memory, and if it fails on
anything else, then all it did was to read on. -/
def Careful (x : Effect α) (s : State) : Prop :=
  ∀ ⦃error t⦄, x s = .error error t → error.IsIo ∧ t.memory = s.memory ∨ s.ReadsTo t

/-- A careful effect that fails leaves memory alone. -/
theorem Careful.memory_eq (h : Careful x s) {error : Error} {t : State}
    (herror : x s = .error error t) : t.memory = s.memory := by
  rcases h herror with ⟨-, hmemory⟩ | ⟨-, ht⟩
  · exact hmemory
  · rw [ht]

theorem Careful.of_ensures (h : Ensures s.memory x s fun _ _ => True) : Careful x s := by
  intro error t herror
  exact .inl (h.isIo herror)

/-- An effect that cannot fail is careful. -/
theorem Careful.of_ok {a : α} {t : State} (h : x s = .ok a t) : Careful x s :=
  .of_ensures (.of_ok h trivial)

/-- What fails at once has done nothing. -/
theorem Careful.of_error {error : Error} (h : x s = .error error s) : Careful x s := by
  intro error' t herror
  rw [h] at herror
  cases herror
  exact .inr s.readsTo_refl

theorem Careful.discard (h : Careful x s) : Careful (discard x) s := by
  intro error t herror
  rcases hx : x s with ⟨a, u⟩ | ⟨error', u⟩
  · rw [discard_ok hx] at herror
    cases herror
  · rw [discard_error hx] at herror
    cases herror
    exact h hx

/-- After a careful start that only read on, the rest has to be careful. -/
theorem Careful.bind (hx : Careful x s)
    (hf : ∀ a t, x s = .ok a t → s.ReadsTo t ∧ Careful (f a) t) : Careful (x >>= f) s := by
  intro error u herror
  rcases hxs : x s with ⟨a, t⟩ | ⟨error', t⟩
  · obtain ⟨hreads, hcareful⟩ := hf a t hxs
    rw [bind_ok hxs] at herror
    have hmemory : t.memory = s.memory := by rw [hreads.2]
    exact (hcareful herror).imp (fun hio => ⟨hio.1, hio.2.trans hmemory⟩) hreads.trans
  · rw [bind_error hxs] at herror
    cases herror
    exact hx hxs

/-- After a careful start that changed the state, the rest has to be sure of itself. -/
theorem Careful.bind_ensures (hx : Careful x s)
    (hf : ∀ a t, x s = .ok a t → Ensures s.memory (f a) t fun _ _ => True) :
    Careful (x >>= f) s := by
  intro error u herror
  rcases hxs : x s with ⟨a, t⟩ | ⟨error', t⟩
  · have hensures := hf a t hxs
    rw [bind_ok hxs] at herror
    exact .inl (hensures.isIo herror)
  · rw [bind_error hxs] at herror
    cases herror
    exact hx hxs

theorem Careful.examine_bind {reading : State → Except Cause α}
    (h : ∀ a, reading s = .ok a → Careful (f a) s) : Careful (examine reading >>= f) s := by
  rcases hread : reading s with cause | a
  · exact .of_error (bind_error (examine_error hread))
  · intro error t herror
    rw [bind_ok (examine_ok hread)] at herror
    exact h a hread herror

theorem Careful.lift_bind {reading : Except Cause α}
    (h : ∀ a, reading = .ok a → Careful (f a) s) : Careful (liftM reading >>= f) s := by
  rcases hread : reading with cause | a
  · exact .of_error (bind_error (lift_error rfl))
  · intro error t herror
    rw [bind_ok (lift_ok rfl)] at herror
    exact h a hread herror

theorem Careful.get_bind {f : State → Effect β} (h : Careful (f s) s) : Careful (get >>= f) s := h

theorem Careful.fail {cause : Cause} : Careful (fail cause : Effect α) s := .of_error rfl

/-! ## Reading source -/

/-- Reading a token only reads on, whether or not there is one. -/
theorem readToken?_apply (s : State) : ∃ input, s.input.Advances input ∧
    readToken? s = .ok s.input.readToken.1 { s with input } :=
  ⟨_, s.input.advances_readToken, rfl⟩

theorem readText?_apply (s : State) (delimiter : Char) : ∃ input, s.input.Advances input ∧
    readText? delimiter s = .ok (s.input.readText delimiter).1 { s with input } :=
  ⟨_, s.input.advances_readText delimiter, rfl⟩

theorem Careful.readToken?_bind {f : Option String → Effect β}
    (h : ∀ token t, s.ReadsTo t → Careful (f token) t) : Careful (readToken? >>= f) s := by
  obtain ⟨input, hadvances, hread⟩ := readToken?_apply s
  refine .bind (.of_ok hread) fun token t hok => ?_
  rw [hread] at hok
  cases hok
  exact ⟨s.readsTo_input hadvances, h _ _ (s.readsTo_input hadvances)⟩

/-- A word that needs a token only read on if there is none. -/
theorem Careful.readToken_bind {f : String → Effect β}
    (h : ∀ token t, s.ReadsTo t → Careful (f token) t) : Careful (readToken >>= f) s := by
  rw [readToken, bind_assoc]
  refine .readToken?_bind fun token? t hreads => ?_
  cases token? with
  | none => exact .bind .fail fun _ _ hok => by cases hok
  | some token => exact h token t hreads

end Effect

end ThreadedForth
