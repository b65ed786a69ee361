import ThreadedForth.Interpreter
import ThreadedForth.Words.Text

/-!
# Running effects step by step

An effect applied to a state is a result, and a sequence of effects is run by running its first part
and going on from what that leaves.  These equations are all that later proofs use of how effects
are made.
-/

namespace ThreadedForth.Effect

variable {α β : Type} {x : Effect α} {f : α → Effect β} {s t : State}

/-! ## Sequences -/

theorem bind_ok {a : α} (h : x s = .ok a t) : (x >>= f) s = f a t := by
  simp only [bind, EStateM.bind, h]

theorem bind_error {error : Error} (h : x s = .error error t) :
    (x >>= f) s = .error error t := by
  simp only [bind, EStateM.bind, h]

theorem discard_ok {a : α} (h : x s = .ok a t) : discard x s = .ok () t := by
  change EStateM.map (fun _ => ()) x s = _
  simp only [EStateM.map, h]

theorem discard_error {error : Error} (h : x s = .error error t) :
    discard x s = .error error t := by
  change EStateM.map (fun _ => ()) x s = _
  simp only [EStateM.map, h]

theorem get_bind {f : State → Effect β} : (get >>= f) s = f s s := rfl

theorem lift_ok {reading : Except Cause α} {a : α} (h : reading = .ok a) :
    (liftM reading : Effect α) s = .ok a s := by
  rw [h]
  rfl

theorem lift_error {reading : Except Cause α} {cause : Cause} (h : reading = .error cause) :
    (liftM reading : Effect α) s = .error { cause } s := by
  rw [h]
  rfl

/-! ## Readings -/

theorem eq_int_of_toInt {v : Value} {n : Int64} (h : v.toInt = .ok n) : v = .int n := by
  cases v <;> cases h
  rfl

/-- A variable that can be read holds an integer. -/
theorem get_of_readVariable {v : Variable} {n : Int64} (h : s.readVariable v = .ok n) :
    s.memory.get v.address = .literal (.int n) := by
  unfold State.readVariable at h
  split at h
  · rename_i held hheld
    rw [hheld, eq_int_of_toInt h]
  · cases h

/-- What `HERE` holds is where the next cell goes. -/
theorem here_of_get {here : Address}
    (h : s.memory.get Variable.here.address = .literal (.int here)) : s.here = .ok here := by
  simp only [State.here, State.readVariable, h]
  rfl

/-- Zero in `STATE` is interpret mode. -/
theorem mode_of_get (h : s.memory.get Variable.state.address = .literal (.int 0)) :
    s.mode = .ok .interpret := by
  simp only [State.mode, State.readVariable, h]
  rfl

/-- The radix depends on the cell of `BASE` only. -/
theorem base_congr (h : s.memory.get Variable.base.address = t.memory.get Variable.base.address) :
    s.base = t.base := by
  simp only [State.base, State.readVariable, h]

/-- The mode depends on the cell of `STATE` only. -/
theorem mode_congr
    (h : s.memory.get Variable.state.address = t.memory.get Variable.state.address) :
    s.mode = t.mode := by
  simp only [State.mode, State.readVariable, h]

/-- What a token means depends on the word that it names and the cell of `BASE` only. -/
theorem classify_congr {token : String}
    (hfind : s.dictionary.findVisible? token = t.dictionary.findVisible? token)
    (h : s.memory.get Variable.base.address = t.memory.get Variable.base.address) :
    s.classify token = t.classify token := by
  rw [State.classify, State.classify, hfind, base_congr h]

/-- A token that names a visible word is that word. -/
theorem classify_word {token : String} {entry : Entry}
    (hfind : s.dictionary.findVisible? token = some entry) :
    s.classify token = .ok (.word entry) := by
  rw [State.classify, hfind]

/-- A numeral that names no word is an integer. -/
theorem classify_integer {token : String} {radix : Nat} {n : Int64}
    (hfind : s.dictionary.findVisible? token = none) (hbase : s.base = .ok radix)
    (hread : Numeral.read? radix token = some n) : s.classify token = .ok (.literal (.int n)) := by
  rw [State.classify, hfind, hbase]
  simp only [bind, Except.bind, hread]

/-! ## Reading source -/

theorem readToken?_ok {token? : Option String} {input : Input}
    (h : s.input.readToken = (token?, input)) : readToken? s = .ok token? { s with input } := by
  change EStateM.Result.ok s.input.readToken.1 { s with input := s.input.readToken.2 } = _
  rw [h]

theorem readToken_ok {token : String} {input : Input}
    (h : s.input.readToken = (some token, input)) : readToken s = .ok token { s with input } := by
  rw [readToken, bind_ok (readToken?_ok h)]
  rfl

theorem quotedText_ok {text : String} {input : Input}
    (h : s.input.readText '"' = (some text, input)) :
    Words.quotedText s = .ok text { s with input } := by
  have hread : readText? '"' s = .ok (some text) { s with input } := by
    change EStateM.Result.ok (s.input.readText '"').1
      { s with input := (s.input.readText '"').2 } = _
    rw [h]
  rw [Words.quotedText, bind_ok hread]
  rfl

/-! ## Operands -/

theorem topInt_of_push {n : Int64} {rest : Stack .parameter}
    (h : s.parameters = rest.push (.int n)) : s.topInt = .ok n := by
  rw [State.topInt, h]
  rfl

theorem takeInt_ok {n : Int64} {rest : Stack .parameter}
    (h : s.parameters = rest.push (.int n)) :
    takeInt s = .ok n { s with parameters := rest } := by
  have hpop : pop s = .ok (.int n) { s with parameters := rest } := by
    rw [pop_apply, h, Stack.pop_push]
  rw [takeInt, topInt, bind_ok (examine_ok (topInt_of_push h)), bind_ok (discard_ok hpop)]
  rfl

theorem topInt_eq_ok {n : Int64} (h : s.topInt = .ok n) :
    ∃ rest : Stack .parameter, s.parameters = rest.push (.int n) := by
  rcases hparameters : s.parameters with ⟨_ | ⟨v, items⟩⟩ <;>
    rw [State.topInt, hparameters] at h
  · cases h
  · exact ⟨⟨items⟩, by rw [eq_int_of_toInt h]; rfl⟩

theorem takeInt_error {cause : Cause} (h : s.topInt = .error cause) :
    takeInt s = .error { cause } s := by
  rw [takeInt, topInt, bind_error (examine_error h)]

/-! ## Compiling -/

/-- Compiling leaves the next address in `HERE`. -/
theorem here_compiled {cell : Cell} {here : Address} :
    ({ s with memory := s.memory.set here cell }.writeVariable .here (here + 1)).here =
      .ok (here + 1) := by
  simp [State.here, State.readVariable, State.writeVariable, Value.toInt, Value.expect,
    Value.asInt?]

end ThreadedForth.Effect
