import ThreadedForth.Proofs.Words.Making

/-!
# Words that keep the way back

A word that is called through a reference finds in `nip` where it is to return to.  Most words know
nothing of `nip`, so the trampoline behind them finds what the caller has noted there.  Only four
words change it: a return takes it from the return stack, a branch goes elsewhere, and a literal is
passed over.
-/

namespace ThreadedForth

namespace Effect

variable {α β : Type} {x : Effect α} {f : α → Effect β}

/-- The effect leaves `nip` alone, whether or not it fails. -/
def KeepsNip (x : Effect α) : Prop := ∀ s, (after x s).nip = s.nip

namespace KeepsNip

theorem bind (hx : KeepsNip x) (hf : ∀ a, KeepsNip (f a)) : KeepsNip (x >>= f) := by
  intro s
  have hbefore := hx s
  rcases h : x s with ⟨a, t⟩ | ⟨error, t⟩
  · rw [after_ok h] at hbefore
    rw [after_bind_ok h, hf a t, hbefore]
  · rw [after_error h] at hbefore
    rw [after_bind_error h, hbefore]

theorem of_pure (a : α) : KeepsNip (pure a : Effect α) := fun _ => rfl

theorem fail {cause : Cause} : KeepsNip (fail cause : Effect α) := fun _ => rfl

theorem examine (reading : State → Except Cause α) : KeepsNip (examine reading) := by
  intro s
  rcases h : reading s with cause | a
  · rw [after_error (examine_error h)]
  · rw [after_ok (examine_ok h)]

theorem lift (reading : Except Cause α) : KeepsNip (liftM reading : Effect α) :=
  examine fun _ => reading

theorem of_modify {change : State → State} (h : ∀ s, (change s).nip = s.nip) :
    KeepsNip (modify change : Effect Unit) := h

/-- What is done may depend on the state. -/
theorem get_bind {f : State → Effect β} (hf : ∀ s, KeepsNip (f s)) : KeepsNip (get >>= f) :=
  fun s => hf s s

theorem discard (h : KeepsNip x) : KeepsNip (discard x) := by
  change KeepsNip (x >>= fun _ => pure ())
  exact h.bind fun _ => of_pure ()

/-! ## What words are made of -/

theorem pop : KeepsNip pop := by
  intro s
  rcases h : s.parameters.pop with cause | ⟨v, parameters⟩
  · rw [after_error (by rw [pop_apply, h])]
  · rw [after_ok (by rw [pop_apply, h])]

theorem push (v : Value) : KeepsNip (push v) := fun _ => rfl

theorem takeInt : KeepsNip takeInt :=
  .bind (examine _) fun n => .bind pop.discard fun _ => of_pure n

theorem expected (reading : Input → Option α × Input) : KeepsNip (expected reading) := by
  intro s
  rw [after, Effect.expected]
  rcases reading s.input with ⟨_ | a, input⟩ <;> rfl

theorem readToken : KeepsNip readToken := by
  rw [readToken_eq]
  exact expected _

theorem write (text : String) : KeepsNip (write text) :=
  .get_bind fun _ => .bind (lift _) fun _ => .of_modify fun _ => rfl

theorem forM_write (texts : List String) : KeepsNip (texts.forM Effect.write) := by
  induction texts with
  | nil => exact of_pure ()
  | cons text texts ih => exact (write text).bind fun _ => ih

theorem compile (cell : Cell) : KeepsNip (compile cell) := by
  intro s
  rw [after, compile_apply]
  rcases s.here with cause | here
  · rfl
  · by_cases hmax : here = Int64.maxValue
    · simp only [if_pos hmax]
    · simp only [if_neg hmax]

theorem compilePush (v : Value) : KeepsNip (compilePush v) :=
  .bind (examine _) fun _ => .bind (compile _).discard fun _ => (compile _).discard

/-- A word that only computes changes the parameter stack and the output. -/
theorem of_isLocal {x : Effect Unit} (h : IsLocal x) : KeepsNip x := by
  obtain ⟨f, hf⟩ := h
  intro s
  rw [after, hf s]
  rcases f s.parameters s.base with cause | reply
  · rfl
  · exact forM_write reply.texts { s with parameters := reply.parameters }

end KeepsNip

end Effect

namespace Words

open Effect

/-- The words that change `nip`. -/
def nipWords : List String := ["EXIT", "LIT", "BRANCH", "0BRANCH"]

/-! ## Memory -/

theorem keepsNip_fetch : KeepsNip fetch :=
  .bind (.examine _) fun _ => .bind (.examine _) fun _ => .bind (.discard .pop) fun _ => .push _

theorem keepsNip_store : KeepsNip Words.store :=
  .bind (.examine _) fun _ => .bind .takeInt fun _ => .bind .pop fun _ => .of_modify fun _ => rfl

theorem keepsNip_plusStore : KeepsNip plusStore :=
  .bind (.examine _) fun _ => .bind (.lift _) fun _ => .bind (.examine _) fun _ =>
    .bind (.examine _) fun _ => .bind (.lift _) fun _ => .bind (.discard .pop) fun _ =>
    .bind (.discard .pop) fun _ => .of_modify fun _ => rfl

theorem keepsNip_comma : KeepsNip comma := .bind .pop fun _ => .discard (.compile _)

theorem keepsNip_compileComma : KeepsNip compileComma :=
  .bind .takeInt fun _ => .discard (.compile _)

theorem keepsNip_compileTimes (cell : Cell) (n : Nat) : KeepsNip (compileTimes cell n) := by
  induction n with
  | zero => exact .of_pure ()
  | succ n ih => exact .bind (.discard (.compile cell)) fun _ => ih

theorem keepsNip_allot : KeepsNip allot := by
  have hrest : ∀ n : Int64, KeepsNip (do
      let here ← examine State.here
      discard pop
      if n < 0 then writeVariable .here (clampedAdd here n)
      else compileTimes (.literal (.int 0)) n.toNatClampNeg) := by
    intro n
    refine .bind (.examine _) fun here => .bind (.discard .pop) fun _ => ?_
    split
    · exact .of_modify fun _ => rfl
    · exact keepsNip_compileTimes _ _
  refine .bind (.examine _) fun n => ?_
  dsimp only
  split
  · exact .bind .fail fun _ => hrest n
  · exact hrest n

/-! ## Defining and compiling -/

theorem keepsNip_requireCompiling (word : String) : KeepsNip (requireCompiling word) := by
  refine .bind (.examine _) fun mode => ?_
  split
  · exact .fail
  · exact .of_pure ()

theorem keepsNip_nameHere (name : String) (hidden : Bool) : KeepsNip (nameHere name hidden) :=
  .bind (.examine _) fun _ => .bind (.of_modify fun _ => rfl) fun _ => .of_modify fun _ => rfl

theorem keepsNip_colon : KeepsNip colon :=
  .bind (.examine _) fun _ => .bind .readToken fun _ => .bind (keepsNip_nameHere _ _) fun _ =>
    .bind (.discard (.compile _)) fun _ => .of_modify fun _ => rfl

theorem keepsNip_semicolon : KeepsNip semicolon :=
  .bind (keepsNip_requireCompiling _) fun _ => .bind (.examine _) fun _ =>
    .bind (.examine _) fun _ => .bind (.discard (.compile _)) fun _ =>
    .bind (.of_modify fun _ => rfl) fun _ => .of_modify fun _ => rfl

theorem keepsNip_immediate : KeepsNip immediate := by
  refine .bind (.examine _) fun latest => .get_bind fun s => ?_
  split
  · exact .of_modify fun _ => rfl
  · exact .fail

theorem keepsNip_toggleHidden : KeepsNip toggleHidden := by
  refine .bind (.examine _) fun address => .get_bind fun s => ?_
  split
  · exact .bind (.of_modify fun _ => rfl) fun _ => .discard .pop
  · exact .bind .fail fun _ => .discard .pop

theorem keepsNip_hide : KeepsNip hide := by
  refine .bind .readToken fun name => .get_bind fun s => ?_
  dsimp only
  split
  · exact .of_modify fun _ => rfl
  · exact .fail

theorem keepsNip_create : KeepsNip create :=
  .bind (.examine _) fun _ => .bind .readToken fun _ => .bind (keepsNip_nameHere _ _) fun _ =>
    .discard (.compile _)

theorem keepsNip_variableWord : KeepsNip variableWord :=
  .bind keepsNip_create fun _ => .discard (.compile _)

theorem keepsNip_constant : KeepsNip constant :=
  .bind (.examine _) fun _ => .bind (.discard (.examine _)) fun _ => .bind .readToken fun _ =>
    .bind .pop fun _ => .bind (keepsNip_nameHere _ _) fun _ => .bind (.discard (.compile _))
    fun _ => .discard (.compile _)

theorem keepsNip_dovar : KeepsNip dovar :=
  .get_bind fun _ => .bind (.push _) fun _ => .of_modify fun _ => rfl

theorem keepsNip_docon : KeepsNip docon :=
  .get_bind fun _ => .bind (.examine _) fun _ => .bind (.push _) fun _ => .of_modify fun _ => rfl

theorem keepsNip_literal : KeepsNip literal :=
  .bind (keepsNip_requireCompiling _) fun _ => .bind .pop fun _ => .compilePush _

theorem keepsNip_recurse : KeepsNip recurse :=
  .bind (keepsNip_requireCompiling _) fun _ => .bind (.examine _) fun _ => .discard (.compile _)

theorem keepsNip_addressOf (name : String) : KeepsNip (addressOf name) := by
  refine .get_bind fun s => ?_
  split
  · exact .of_pure _
  · exact .fail

theorem keepsNip_tick : KeepsNip tick :=
  .bind .readToken fun _ => .bind (keepsNip_addressOf _) fun _ => .push _

theorem keepsNip_bracketTick : KeepsNip bracketTick :=
  .bind (keepsNip_requireCompiling _) fun _ => .bind .readToken fun _ =>
    .bind (keepsNip_addressOf _) fun _ => .compilePush _

theorem keepsNip_forget : KeepsNip forget := by
  refine .bind .readToken fun name => .get_bind fun s => ?_
  split
  · exact .of_modify fun _ => rfl
  · exact .fail

/-! ## Stacks -/

theorem keepsNip_requestedParameter : KeepsNip requestedParameter :=
  .bind (.examine _) fun _ => .examine _

theorem keepsNip_requestedReturn : KeepsNip requestedReturn :=
  .bind (.examine _) fun _ => .examine _

theorem keepsNip_setParameterPointer : KeepsNip setParameterPointer :=
  .bind keepsNip_requestedParameter fun _ => .bind (.discard .pop) fun _ =>
    .bind (.examine _) fun _ => .of_modify fun _ => rfl

theorem keepsNip_setReturnPointer : KeepsNip setReturnPointer :=
  .bind keepsNip_requestedReturn fun _ => .bind (.discard .pop) fun _ =>
    .bind (.examine _) fun _ => .of_modify fun _ => rfl

theorem keepsNip_parameterItem : KeepsNip parameterItem :=
  .bind keepsNip_requestedParameter fun _ => .bind (.examine _) fun _ =>
    .bind (.discard .pop) fun _ => .push _

theorem keepsNip_returnItem : KeepsNip returnItem :=
  .bind keepsNip_requestedReturn fun _ => .bind (.examine _) fun _ =>
    .bind (.discard .pop) fun _ => .push _

theorem keepsNip_popReturn : KeepsNip popReturn :=
  .get_bind fun _ => .bind (.lift _) fun _ => .bind (.of_modify fun _ => rfl) fun _ => .of_pure _

/-! ## Input and output -/

theorem keepsNip_key : KeepsNip key := by
  refine .bind (fun _ => rfl) fun c => ?_
  cases c with
  | none => exact .fail
  | some c => exact .push _

theorem keepsNip_initialChar : KeepsNip initialChar := by
  refine .bind .readToken fun token => ?_
  split
  · exact .of_pure _
  · exact .fail

theorem keepsNip_emit : KeepsNip emit :=
  .bind (.examine _) fun _ => .bind (.lift _) fun _ => .bind (.discard .pop) fun _ => .write _

theorem keepsNip_quotedText : KeepsNip quotedText := by
  rw [quotedText_eq]
  exact .expected _

theorem keepsNip_dotQuote : KeepsNip dotQuote := by
  refine .bind keepsNip_quotedText fun text => .bind (.examine _) fun mode => ?_
  cases mode with
  | interpret => exact .write _
  | compile =>
      exact .bind (.examine _) fun _ => .bind (.compilePush _) fun _ => .discard (.compile _)

theorem keepsNip_stringQuote : KeepsNip stringQuote := by
  refine .bind keepsNip_quotedText fun text => .bind (.examine _) fun mode => ?_
  cases mode with
  | interpret => exact .push _
  | compile => exact .compilePush _

theorem keepsNip_words : KeepsNip words :=
  .get_bind fun _ => .bind (.write _) fun _ => .write _

theorem keepsNip_see : KeepsNip see := by
  refine .bind .readToken fun name => .get_bind fun s => ?_
  split
  · exact .bind (.examine _) fun _ => .bind (.write _) fun _ => .write _
  · exact .fail

/-! ## Interpreting -/

theorem keepsNip_act (mode : Mode) (meaning : Meaning) : KeepsNip (act mode meaning) := by
  cases meaning with
  | word entry =>
      rw [act]
      split
      · exact .of_modify fun _ => rfl
      · exact .bind (.discard (.compile _)) fun _ => .of_modify fun _ => rfl
  | literal v =>
      cases mode with
      | interpret => exact .bind (.push _) fun _ => .of_modify fun _ => rfl
      | compile => exact .bind (.compilePush _) fun _ => .of_modify fun _ => rfl

theorem keepsNip_interpret : KeepsNip interpret := by
  refine .bind (fun _ => rfl) fun token? => ?_
  cases token? with
  | none => exact .of_modify fun _ => rfl
  | some token =>
      exact .bind (.examine _) fun _ => .bind (.examine _) fun _ => keepsNip_act _ _

/-! ## All words -/

theorem keepsNip_of_mem_kernelWords : ∀ word ∈ kernelWords, word.name ∉ nipWords →
    KeepsNip word.effect := by
  simp only [kernelWords, List.forall_mem_cons]
  refine ⟨fun _ => .of_modify fun _ => rfl, fun _ => .of_modify fun _ => rfl,
    fun h => absurd (by decide) h, fun h => absurd (by decide) h, fun h => absurd (by decide) h,
    fun h => absurd (by decide) h, fun _ => .bind .takeInt fun _ => .of_modify fun _ => rfl,
    fun _ => keepsNip_interpret, fun _ => .bind (.examine _) fun _ => .of_modify fun _ => rfl,
    fun _ => .of_modify fun _ => rfl, fun _ => .push _, fun _ => .push _, fun _ => .push _,
    fun _ => .push _, fun _ => keepsNip_fetch, fun _ => keepsNip_store, fun _ => keepsNip_comma,
    fun _ => keepsNip_compileComma, fun _ => keepsNip_allot, fun _ => keepsNip_colon,
    fun _ => keepsNip_semicolon, fun _ => .of_modify fun _ => rfl, fun _ => .of_modify fun _ => rfl,
    fun _ => keepsNip_immediate, fun _ => keepsNip_toggleHidden, fun _ => keepsNip_hide,
    fun _ => keepsNip_create, fun _ => keepsNip_variableWord, fun _ => keepsNip_constant,
    fun _ => keepsNip_dovar, fun _ => keepsNip_docon, fun _ => keepsNip_literal,
    fun _ => keepsNip_recurse, fun _ => keepsNip_tick, fun _ => keepsNip_bracketTick,
    fun _ => keepsNip_forget, fun _ => .bind (.examine _) fun _ => .push _,
    fun _ => keepsNip_setParameterPointer, fun _ => .bind (.examine _) fun _ => .push _,
    fun _ => keepsNip_setReturnPointer, fun _ => keepsNip_parameterItem,
    fun _ => keepsNip_returnItem, fun _ => .bind .pop fun _ => .of_modify fun _ => rfl,
    fun _ => .bind keepsNip_popReturn fun _ => .push _,
    fun _ => .bind (.examine _) fun _ => .push _, fun _ => .discard keepsNip_popReturn,
    fun _ => keepsNip_key, fun _ => .bind .readToken fun _ => .push _,
    fun _ => .bind keepsNip_initialChar fun _ => .push _,
    fun _ => .bind (keepsNip_requireCompiling _) fun _ => .bind keepsNip_initialChar fun _ =>
      .compilePush _,
    fun _ => keepsNip_emit, fun _ => .of_isLocal isLocal_type, fun _ => keepsNip_dotQuote,
    fun _ => keepsNip_stringQuote, fun _ _ => rfl, fun _ => .of_modify fun _ => rfl,
    fun _ => keepsNip_words, fun _ => keepsNip_see, ?_⟩
  exact fun _ h => by cases h

theorem keepsNip_of_mem_libraryWords : ∀ word ∈ libraryWords, KeepsNip word.effect := by
  intro word hword
  by_cases hname : word.name = "+!"
  · have heffect : ∀ word ∈ libraryWords, word.name = "+!" → word.effect = plusStore := by
      simp [libraryWords]
    rw [heffect word hword hname]
    exact keepsNip_plusStore
  · exact .of_isLocal (isLocal_of_mem_libraryWords word hword hname)

/-- Every word leaves `nip` alone, but for the few that return, branch or have an operand. -/
theorem keepsNip_of_mem_vocabulary {word : Primitive} (h : word ∈ kernelWords ++ libraryWords)
    (hname : word.name ∉ nipWords) : KeepsNip word.effect := by
  rcases List.mem_append.mp h with hkernel | hlibrary
  · exact keepsNip_of_mem_kernelWords word hkernel hname
  · exact keepsNip_of_mem_libraryWords word hlibrary

end Words

end ThreadedForth
