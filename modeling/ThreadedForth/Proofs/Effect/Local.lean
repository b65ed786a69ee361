import ThreadedForth.Proofs.Effect.Careful

/-!
# Words that only compute

Most words of the library know nothing of memory, of the source or of calls.  They look at the
parameter stack, and perhaps at the radix, and from that they compute the stack that they leave and
the text that they write.  Such a word `Computes` a function, which is fixed once and for all, so
what it does can be foretold without the machine: `alone` runs it on a parameter stack and nothing
else.
-/

namespace ThreadedForth

/-- What a word that only computes leaves: a stack, and texts to be written. -/
structure Reply where
  parameters : Stack .parameter
  texts : List String := []

namespace Effect

variable {α : Type} {s : State}

/-- Does what was computed.  Nothing is done if the computation failed. -/
def give (s : State) : Except Cause Reply → EStateM.Result Error State Unit
  | .error cause => .error { cause } s
  | .ok reply => reply.texts.forM write { s with parameters := reply.parameters }

/-- The word does what a function computes from the parameter stack and the radix. -/
def Computes (x : Effect Unit) (f : Stack .parameter → Except Cause Nat → Except Cause Reply) :
    Prop :=
  ∀ s, x s = give s (f s.parameters s.base)

/-- The word only computes. -/
def IsLocal (x : Effect Unit) : Prop := ∃ f, Computes x f

/-! ## Showing that a word only computes -/

theorem give_examine_bind {reading : State → Except Cause α} {f : α → Effect Unit}
    {g : α → Except Cause Reply} (h : ∀ a, reading s = .ok a → f a s = give s (g a)) :
    (examine reading >>= f) s = give s (reading s >>= g) := by
  rcases hread : reading s with cause | a
  · rw [bind_error (examine_error hread)]
    rfl
  · rw [bind_ok (examine_ok hread)]
    exact h a hread

theorem give_lift_bind {reading : Except Cause α} {f : α → Effect Unit}
    {g : α → Except Cause Reply} (h : ∀ a, reading = .ok a → f a s = give s (g a)) :
    (liftM reading >>= f) s = give s (reading >>= g) := by
  rcases hread : reading with cause | a
  · rw [bind_error (lift_error rfl)]
    rfl
  · rw [bind_ok (lift_ok rfl)]
    exact h a hread

/-! ## What follows for a word that only computes -/

/-- Writing any number of texts fails on output only. -/
theorem Ensures.forM_write {texts : List String} {memory : Memory} (hmemory : s.memory = memory) :
    Ensures memory (texts.forM Effect.write) s fun _ _ => True := by
  induction texts generalizing s with
  | nil => exact .of_ok rfl trivial
  | cons text texts ih =>
      change Ensures memory (Effect.write text >>= fun _ => texts.forM Effect.write) s _
      exact .bind (.write hmemory fun output => ih (s := { s with output }) hmemory)

/-- A word that only computes fails before it changes anything. -/
theorem IsLocal.careful {x : Effect Unit} (h : IsLocal x) (s : State) : Careful x s := by
  obtain ⟨f, hf⟩ := h
  intro error t herror
  rw [hf s] at herror
  rcases hreply : f s.parameters s.base with cause | reply
  · rw [hreply] at herror
    cases herror
    exact .inr s.readsTo_refl
  · rw [hreply] at herror
    have hwrite : Ensures s.memory (reply.texts.forM write)
        { s with parameters := reply.parameters } fun _ _ => True := .forM_write rfl
    exact .inl (hwrite.isIo herror)

/-! ## Running a word on a stack alone -/

/-- A machine with nothing but a parameter stack and the cell of `BASE`. -/
def bare (base : Cell) (parameters : Stack .parameter) : State :=
  { parameters, memory := ({} : Memory).set Variable.base.address base }

/-- The stack that a word leaves and the text that it writes if all it has is a parameter stack and
the cell of `BASE`. -/
def alone (x : Effect Unit) (base : Cell) (parameters : Stack .parameter) :
    Except Cause (Stack .parameter × String) :=
  match x (bare base parameters) with
  | .ok () t => .ok (t.parameters, t.output.text)
  | .error error _ => .error error.cause

theorem forM_write_apply {texts : List String} (hsink : s.output.allowance = none) :
    texts.forM write s =
      .ok () { s with output := ⟨s.output.text ++ String.join texts, none⟩ } := by
  induction texts generalizing s with
  | nil =>
      rw [String.join_nil, String.append_empty, ← hsink]
      rfl
  | cons text texts ih =>
      have hwrite : write text s =
          .ok () { s with output := ⟨s.output.text ++ text, none⟩ } := by
        have hok : s.output.write text = .ok ⟨s.output.text ++ text, none⟩ := by
          rw [Output.write, hsink]
          rfl
        rw [write, get_bind, bind_ok (lift_ok hok)]
        rfl
      change (write text >>= fun _ => texts.forM write) s = _
      rw [bind_ok hwrite, ih rfl, String.join_cons, String.append_assoc]

/-- A word that only computes does on every state what it does alone, if the sink takes all. -/
theorem IsLocal.apply {x : Effect Unit} (h : IsLocal x) {base : Cell}
    (hbase : s.memory.get Variable.base.address = base) (hsink : s.output.allowance = none) :
    x s = match alone x base s.parameters with
      | .ok (parameters, text) =>
        .ok () { s with parameters, output := ⟨s.output.text ++ text, none⟩ }
      | .error cause => .error { cause } s := by
  obtain ⟨f, hf⟩ := h
  have hsame : (bare base s.parameters).base = s.base := by
    refine base_congr ?_
    rw [bare, Memory.get_set_self, hbase]
  have hbare : x (bare base s.parameters) =
      give (bare base s.parameters) (f s.parameters s.base) := by
    rw [hf, hsame]
    rfl
  rw [hf s, alone, hbare]
  rcases f s.parameters s.base with cause | reply
  · rfl
  · have hhere : give s (.ok reply) = .ok () { s with
        parameters := reply.parameters
        output := ⟨s.output.text ++ String.join reply.texts, none⟩ } :=
      forM_write_apply (s := { s with parameters := reply.parameters }) hsink
    have hthere : give (bare base s.parameters) (.ok reply) = .ok () { bare base s.parameters with
        parameters := reply.parameters
        output := ⟨"" ++ String.join reply.texts, none⟩ } :=
      forM_write_apply (s := { bare base s.parameters with parameters := reply.parameters }) rfl
    rw [hhere, hthere]
    simp

theorem IsLocal.apply_ok {x : Effect Unit} (h : IsLocal x) {base : Cell}
    (hbase : s.memory.get Variable.base.address = base) (hsink : s.output.allowance = none)
    {parameters : Stack .parameter} {text : String}
    (halone : alone x base s.parameters = .ok (parameters, text)) :
    x s = .ok () { s with parameters, output := ⟨s.output.text ++ text, none⟩ } := by
  rw [h.apply hbase hsink, halone]

theorem IsLocal.apply_error {x : Effect Unit} (h : IsLocal x) {base : Cell}
    (hbase : s.memory.get Variable.base.address = base) (hsink : s.output.allowance = none)
    {cause : Cause} (halone : alone x base s.parameters = .error cause) :
    x s = .error { cause } s := by
  rw [h.apply hbase hsink, halone]

end Effect

end ThreadedForth
