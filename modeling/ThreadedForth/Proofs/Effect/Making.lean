import Mathlib.Logic.Relation
import ThreadedForth.Proofs.Effect.Local
import ThreadedForth.Proofs.Machine.Surroundings
import ThreadedForth.Proofs.Memory.Growth

/-!
# What words are made of

There are many words, but they touch memory, the dictionary, the call links and the input in a few
ways only.  `State.Changes` lists the ways in which memory, the dictionary, the call links and the
request to halt are ever changed.  Some of them are reserved for words that have the `Ability`.
`MadeOf` says that an effect is put together from changes that pay no attention to their
surroundings, from readings of the input that fail if the input does not hold what they want, and
from writing text.

What holds of every change, every reading and every text that is written then holds of every word.
-/

namespace ThreadedForth

/-! ## Changes -/

/-- Enters a name at `HERE` and compiles the codeword. -/
def Words.header (name : String) (hidden : Bool) (codeword : Cell) : Effect Unit := do
  nameHere name hidden
  discard <| Effect.compile codeword

/-- What only a few words are able to do. -/
inductive Ability where
  /-- To halt the machine. -/
  | halt
  /-- To write to any address. -/
  | patch
  /-- To move `HERE` anywhere. -/
  | retreat
  /-- To enter a name. -/
  | define
  /-- To change the return stack or the depth. -/
  | link
  deriving DecidableEq

/-- The words that have an ability. -/
def Ability.words : Ability → List String
  | halt => ["BYE", "INTERPRET"]
  | patch => ["!", "+!"]
  | retreat => ["ALLOT"]
  | define => [":", "CREATE", "VARIABLE", "CONSTANT"]
  | link => ["DOCOL", "EXIT", "QUIT", "RSP!", ">R", "R>", "RDROP"]

namespace State

/-- A name is entered and its codeword compiled, unless there is no room for the codeword. -/
def headed (s : State) (here : Address) (name : String) (hidden : Bool) (codeword : Cell) : State :=
  let named := { s with dictionary := s.dictionary.define name here false hidden }.writeVariable
    .latest here
  if here = Int64.maxValue then named
  else { named with memory := named.memory.compiled here codeword }

/-- One of the ways in which words change memory, the dictionary, the call links and the request to
halt. -/
inductive Changes (able : Ability → Prop) (s : State) : State → Prop
  /-- None of them is changed. -/
  | elsewhere {t : State} (memory : t.memory = s.memory) (dictionary : t.dictionary = s.dictionary)
      (kernel : t.kernel? = s.kernel?) (halt : t.halt? = s.halt?) (returns : t.returns = s.returns)
      (depth : t.depth = s.depth) : Changes able s t
  /-- Only the call links are changed. -/
  | link (h : able .link) {t : State} (memory : t.memory = s.memory)
      (dictionary : t.dictionary = s.dictionary) (kernel : t.kernel? = s.kernel?)
      (halt : t.halt? = s.halt?) : Changes able s t
  | halt (h : able .halt) (halt : Halt) : Changes able s { s with halt? := some halt }
  | mode (mode : Mode) : Changes able s (s.setMode mode)
  | compile {here : Address} (hhere : s.here = .ok here) (hmax : here ≠ Int64.maxValue)
      (cell : Cell) : Changes able s { s with memory := s.memory.compiled here cell }
  | name (h : able .define) {here : Address} (hhere : s.here = .ok here) (name : String)
      (hidden : Bool) (codeword : Cell) : Changes able s (s.headed here name hidden codeword)
  | flag {address : Address} {change : Entry → Entry} {dictionary : Dictionary}
      (hchange : ∀ entry, (change entry).name = entry.name ∧ (change entry).address = entry.address)
      (h : s.dictionary.modify? address change = some dictionary) :
      Changes able s { s with dictionary }
  | forget {name : String} {dictionary : Dictionary}
      (h : s.dictionary.remove? name = some dictionary) : Changes able s { s with dictionary }
  | patch (h : able .patch) (address : Address) (v : Value) :
      Changes able s { s with memory := s.memory.set address (.literal v) }
  | retreat (h : able .retreat) (n : Int64) : Changes able s (s.writeVariable .here n)

/-- Some changes, one after the other. -/
def Becomes (able : Ability → Prop) : State → State → Prop :=
  Relation.ReflTransGen (Changes able)

section Headed

variable (s : State) (here : Address) (name : String) (hidden : Bool) (codeword : Cell)

@[simp] theorem headed_kernel? : (s.headed here name hidden codeword).kernel? = s.kernel? := by
  rw [headed]
  split <;> rfl

@[simp] theorem headed_halt? : (s.headed here name hidden codeword).halt? = s.halt? := by
  rw [headed]
  split <;> rfl

@[simp] theorem headed_returns : (s.headed here name hidden codeword).returns = s.returns := by
  rw [headed]
  split <;> rfl

@[simp] theorem headed_depth : (s.headed here name hidden codeword).depth = s.depth := by
  rw [headed]
  split <;> rfl

end Headed

variable {able : Ability → Prop} {s t : State}

theorem Changes.refl (s : State) : Changes able s s :=
  .elsewhere rfl rfl rfl rfl rfl rfl

theorem Changes.becomes (h : s.Changes able t) : s.Becomes able t := Relation.ReflTransGen.single h

/-- What the machine knows of its kernel never changes. -/
theorem Changes.kernel?_eq (h : s.Changes able t) : t.kernel? = s.kernel? := by
  cases h with
  | elsewhere _ _ hkernel => exact hkernel
  | link _ _ _ hkernel => exact hkernel
  | name => exact headed_kernel? ..
  | _ => rfl

/-- Without the ability to halt the machine, no halt is asked for. -/
theorem Changes.halt?_eq (h : s.Changes able t) (hable : ¬ able .halt) : t.halt? = s.halt? := by
  cases h with
  | elsewhere _ _ _ hhalt => exact hhalt
  | link _ _ _ _ hhalt => exact hhalt
  | halt h => exact absurd h hable
  | name => exact headed_halt? ..
  | _ => rfl

/-- Without the ability to change the call links, they stay. -/
theorem Changes.links_eq (h : s.Changes able t) (hable : ¬ able .link) :
    t.returns = s.returns ∧ t.depth = s.depth := by
  cases h with
  | elsewhere _ _ _ _ hreturns hdepth => exact ⟨hreturns, hdepth⟩
  | link h => exact absurd h hable
  | name => exact ⟨headed_returns .., headed_depth ..⟩
  | _ => exact ⟨rfl, rfl⟩

theorem Becomes.kernel?_eq (h : s.Becomes able t) : t.kernel? = s.kernel? := by
  induction h with
  | refl => rfl
  | tail _ hchange ih => exact hchange.kernel?_eq.trans ih

theorem Becomes.halt?_eq (h : s.Becomes able t) (hable : ¬ able .halt) : t.halt? = s.halt? := by
  induction h with
  | refl => rfl
  | tail _ hchange ih => exact (hchange.halt?_eq hable).trans ih

theorem Becomes.links_eq (h : s.Becomes able t) (hable : ¬ able .link) :
    t.returns = s.returns ∧ t.depth = s.depth := by
  induction h with
  | refl => exact ⟨rfl, rfl⟩
  | tail _ hchange ih =>
      obtain ⟨hreturns, hdepth⟩ := hchange.links_eq hable
      exact ⟨hreturns.trans ih.1, hdepth.trans ih.2⟩

/-! ### Cells that compiling has passed -/

/-- `HERE`, if it holds an address at all, is past this one. -/
def HasPassed (s : State) (address : Address) : Prop :=
  ∀ here, s.here = .ok here → address.toInt < here.toInt

variable {address : Address}

theorem here_congr
    (h : t.memory.get Variable.here.address = s.memory.get Variable.here.address) :
    t.here = s.here := by
  rw [here, here, readVariable, readVariable, h]

theorem here_writeVariable {v : Variable} (hv : v ≠ .here) (n : Int64) :
    (s.writeVariable v n).here = s.here := by
  refine here_congr (Memory.get_set_of_ne _ ?_ _)
  cases v <;> first | exact absurd rfl hv | decide

theorem HasPassed.congr (h : s.HasPassed address) (hhere : t.here = s.here) :
    t.HasPassed address := by
  rw [HasPassed, hhere]
  exact h

theorem get_writeVariable (hlow : 4 ≤ address.toInt) (v : Variable) (n : Int64) :
    (s.writeVariable v n).memory.get address = s.memory.get address := by
  refine Memory.get_set_of_ne _ ?_ _
  rintro rfl
  cases v <;> exact absurd hlow (by decide)

/-- Compiling moves on from a cell that it has passed. -/
theorem HasPassed.compiled (h : s.HasPassed address) (hlow : 4 ≤ address.toInt) {here : Address}
    (hhere : s.here = .ok here) (hmax : here ≠ Int64.maxValue) (cell : Cell) :
    HasPassed { s with memory := s.memory.compiled here cell } address ∧
      (s.memory.compiled here cell).get address = s.memory.get address := by
  have hlt := h here hhere
  have hnext := Address.lt_add_one hmax
  rw [Int64.lt_iff_toInt_lt] at hnext
  have hother : here ≠ address := by
    rintro rfl
    omega
  have hne : Variable.here.address ≠ address := by
    rintro rfl
    exact absurd hlow (by decide)
  refine ⟨fun here' hhere' => ?_, ?_⟩
  · have hmoved : State.here { s with memory := s.memory.compiled here cell } = .ok (here + 1) :=
      Effect.here_of_get (Memory.get_compiled_here ..)
    cases hmoved.symm.trans hhere'
    omega
  · rw [Memory.compiled, Memory.get_set_of_ne _ hne, Memory.get_set_of_ne _ hother]

/-- Without the abilities to move `HERE` and to write to any address, a cell that compiling has
passed stays. -/
theorem Changes.get_eq (h : s.Changes able t) (hretreat : ¬ able .retreat) (hpatch : ¬ able .patch)
    (hlow : 4 ≤ address.toInt) (hpassed : s.HasPassed address) :
    t.HasPassed address ∧ t.memory.get address = s.memory.get address := by
  cases h with
  | elsewhere hmemory =>
      exact ⟨hpassed.congr (here_congr (by rw [hmemory])), by rw [hmemory]⟩
  | link _ hmemory => exact ⟨hpassed.congr (here_congr (by rw [hmemory])), by rw [hmemory]⟩
  | halt | flag | forget => exact ⟨hpassed.congr rfl, rfl⟩
  | mode => exact ⟨hpassed.congr (here_writeVariable (by decide) _), get_writeVariable hlow ..⟩
  | compile hhere hmax cell => exact hpassed.compiled hlow hhere hmax cell
  | @name _ here hhere name hidden codeword =>
      let entered : State := { s with dictionary := s.dictionary.define name here false hidden }
      have hsame : (entered.writeVariable .latest here).here = s.here :=
        here_writeVariable (by decide) _
      have hget : (entered.writeVariable .latest here).memory.get address = s.memory.get address :=
        get_writeVariable hlow ..
      rw [headed]
      split
      · exact ⟨hpassed.congr hsame, hget⟩
      · rename_i hmax
        obtain ⟨hnext, hget'⟩ :=
          (hpassed.congr hsame).compiled hlow (hsame.trans hhere) hmax codeword
        exact ⟨hnext, hget'.trans hget⟩
  | patch h => exact absurd h hpatch
  | retreat h => exact absurd h hretreat

theorem Becomes.get_eq (h : s.Becomes able t) (hretreat : ¬ able .retreat) (hpatch : ¬ able .patch)
    (hlow : 4 ≤ address.toInt) (hpassed : s.HasPassed address) :
    t.HasPassed address ∧ t.memory.get address = s.memory.get address := by
  induction h with
  | refl => exact ⟨hpassed, rfl⟩
  | tail _ hchange ih =>
      obtain ⟨hnext, hsame⟩ := hchange.get_eq hretreat hpatch hlow ih.1
      exact ⟨hnext, hsame.trans ih.2⟩

end State

namespace Effect

variable {α β : Type} {x : Effect α} {f : α → Effect β} {s : State}

/-- What an effect leaves, whether or not it fails. -/
def after (x : Effect α) (s : State) : State :=
  match x s with
  | .ok _ t => t
  | .error _ t => t

theorem after_ok {a : α} {t : State} (h : x s = .ok a t) : after x s = t := by rw [after, h]

theorem after_error {error : Error} {t : State} (h : x s = .error error t) : after x s = t := by
  rw [after, h]

theorem after_bind_ok {a : α} {t : State} (h : x s = .ok a t) :
    after (x >>= f) s = after (f a) t := by
  rw [after, bind_ok h, after]

theorem after_bind_error {error : Error} {t : State} (h : x s = .error error t) :
    after (x >>= f) s = t := after_error (bind_error h)

/-! ## Paying no attention to the surroundings -/

/-- The same result in other surroundings. -/
def within (around : Surroundings) : EStateM.Result Error State α → EStateM.Result Error State α
  | .ok a s => .ok a (s.within around)
  | .error error s => .error error (s.within around)

/-- The effect does the same whatever the surroundings are, and leaves them alone. -/
def Blind (x : Effect α) : Prop := ∀ s around, x (s.within around) = within around (x s)

theorem Blind.bind (hx : Blind x) (hf : ∀ a, Blind (f a)) : Blind (x >>= f) := by
  intro s around
  have hsame := hx s around
  rcases h : x s with ⟨a, t⟩ | ⟨error, t⟩
  · rw [h] at hsame
    rw [bind_ok h, bind_ok hsame]
    exact hf a t around
  · rw [h] at hsame
    rw [bind_error h, bind_error hsame]
    rfl

theorem Blind.examine {reading : State → Except Cause α}
    (h : ∀ s around, reading (s.within around) = reading s) : Blind (examine reading) := by
  intro s around
  have hsame := h s around
  rcases hreading : reading s with cause | a
  · rw [hreading] at hsame
    rw [examine_error hreading, examine_error hsame]
    rfl
  · rw [hreading] at hsame
    rw [examine_ok hreading, examine_ok hsame]
    rfl

theorem Blind.modify {change : State → State}
    (h : ∀ s around, change (s.within around) = (change s).within around) :
    Blind (modify change : Effect Unit) :=
  fun s around => congrArg (EStateM.Result.ok ()) (h s around)

theorem Blind.fail {cause : Cause} : Blind (fail cause : Effect α) := fun _ _ => rfl

theorem Blind.discard (hx : Blind x) : Blind (discard x) := by
  change Blind (x >>= fun _ => pure ())
  exact hx.bind fun _ _ _ => rfl

/-- Compiling fails without a `HERE` and at the end of the address space, before it changes
anything. -/
theorem compile_apply (cell : Cell) (s : State) :
    compile cell s = match s.here with
      | .error cause => .error { cause } s
      | .ok here =>
        if here = Int64.maxValue then
          .error { cause := .internal "address space exhausted" } s
        else .ok here { s with memory := s.memory.compiled here cell } := by
  rcases h : s.here with cause | here
  · rw [Effect.compile, bind_error (examine_error h)]
  · dsimp only
    split
    · rename_i hmax
      rw [Effect.compile, bind_ok (examine_ok h), if_pos hmax]
      rfl
    · rename_i hmax
      exact compile_ok h hmax

theorem Blind.compile (cell : Cell) : Blind (compile cell) := by
  intro s around
  have hsame : (s.within around).here = s.here := rfl
  rw [compile_apply, compile_apply, hsame]
  rcases s.here with cause | here
  · rfl
  · dsimp only
    split <;> rfl

/-- An effect that pays no attention to the surroundings does not change them. -/
theorem Blind.surroundings_after (h : Blind x) (s : State) :
    (after x s).surroundings = s.surroundings := by
  have hsame := h s s.surroundings
  rw [State.within_surroundings] at hsame
  rw [after]
  rcases hx : x s with ⟨a, t⟩ | ⟨error, t⟩
  · rw [hx] at hsame
    injection hsame with _ ht
    rw [ht, State.surroundings_within]
  · rw [hx] at hsame
    injection hsame with _ ht
    rw [ht, State.surroundings_within]

/-! ## Entering a name -/

section Heading

variable {name : String} {hidden : Bool} {codeword : Cell}

theorem after_header_error {cause : Cause} (h : s.here = .error cause) :
    after (Words.header name hidden codeword) s = s := by
  have herror : Words.header name hidden codeword s = .error { cause } s :=
    bind_error (bind_error (examine_error h))
  exact after_error herror

theorem after_header {here : Address} (h : s.here = .ok here) :
    after (Words.header name hidden codeword) s = s.headed here name hidden codeword := by
  let named := { s with dictionary := s.dictionary.define name here false hidden }.writeVariable
    .latest here
  have hnamed : Words.nameHere name hidden s = .ok () named := bind_ok (examine_ok h)
  have hsame : named.here = .ok here := (State.here_writeVariable (by decide) here).trans h
  rw [after, Words.header, bind_ok hnamed, State.headed]
  by_cases hmax : here = Int64.maxValue
  · have herror := compile_apply codeword named
    simp only [hsame, if_pos hmax] at herror
    rw [discard_error herror, if_pos hmax]
  · have hok := compile_apply codeword named
    simp only [hsame, if_neg hmax] at hok
    rw [discard_ok hok, if_neg hmax]

end Heading

/-! ## Reading the input -/

/-- Delivers what a reading of the input found; it had to find something. -/
def expected (reading : Input → Option α × Input) : Effect α := fun s =>
  match reading s.input with
  | (some a, input) => .ok a { s with input }
  | (none, input) => .error { cause := .endOfInput } { s with input }

theorem readToken_eq : readToken = expected Input.readToken := by
  funext s
  rcases h : s.input.readToken with ⟨_ | token, input⟩
  · simp only [readToken, bind_ok (readToken?_ok h), expected, h]
    rfl
  · rw [readToken_ok h, expected, h]

theorem quotedText_eq : Words.quotedText = expected (Input.readText '"') := by
  funext s
  rcases h : s.input.readText '"' with ⟨_ | text, input⟩
  · have hread : readText? '"' s = .ok none { s with input } := by
      change EStateM.Result.ok (s.input.readText '"').1
        { s with input := (s.input.readText '"').2 } = _
      rw [h]
    simp only [Words.quotedText, bind_ok hread, expected, h]
    rfl
  · rw [quotedText_ok h, expected, h]

/-! ## What effects are made of -/

/-- Writes the names that are found, in the order of the dictionary. -/
def writeNames : Effect Unit := do
  write (" ".intercalate (← get).dictionary.visibleNames)

theorem write_apply (text : String) (s : State) :
    write text s = match s.output.write text with
      | .ok output => .ok () { s with output }
      | .error cause => .error { cause } s := by
  rw [write, get_bind]
  rcases h : s.output.write text with cause | output
  · rw [bind_error (lift_error rfl)]
  · rw [bind_ok (lift_ok rfl)]
    rfl

theorem writeNames_apply (s : State) :
    writeNames s = write (" ".intercalate s.dictionary.visibleNames) s := rfl

/-- The effect is put together from changes that pay no attention to the surroundings, from readings
of the input, and from writing text. -/
inductive MadeOf (able : Ability → Prop) : {α : Type} → Effect α → Prop
  | change {α : Type} {x : Effect α} (hblind : Blind x)
      (hchange : ∀ s : State, s.Changes able (after x s)) : MadeOf able x
  | read {α : Type} {reading : Input → Option α × Input} (h : Insisted reading) :
      MadeOf able (expected reading)
  | dropLine : MadeOf able dropLine
  | write (text : String) : MadeOf able (write text)
  | writeNames : MadeOf able writeNames
  | bind {α β : Type} {x : Effect α} {f : α → Effect β} (hx : MadeOf able x)
      (hf : ∀ a, MadeOf able (f a)) : MadeOf able (x >>= f)

namespace MadeOf

variable {able : Ability → Prop}

/-! ### Effects without privileges -/

theorem examine {reading : State → Except Cause α}
    (h : ∀ s around, reading (s.within around) = reading s) : MadeOf able (examine reading) := by
  refine .change (.examine h) fun s => ?_
  rcases hreading : reading s with cause | a
  · rw [after_error (examine_error hreading)]
    exact .refl s
  · rw [after_ok (examine_ok hreading)]
    exact .refl s

theorem of_pure (a : α) : MadeOf able (pure a : Effect α) :=
  .change (fun _ _ => rfl) fun s => .refl s

theorem fail {cause : Cause} : MadeOf able (fail cause : Effect α) :=
  .change .fail fun s => .refl s

theorem lift (reading : Except Cause α) : MadeOf able (liftM reading : Effect α) := by
  change MadeOf able (Effect.examine fun _ => reading)
  exact examine fun _ _ => rfl

theorem of_modify {change : State → State}
    (hblind : ∀ s around, change (s.within around) = (change s).within around)
    (hchange : ∀ s : State, s.Changes able (change s)) :
    MadeOf able (modify change : Effect Unit) :=
  .change (.modify hblind) hchange

/-- What is done may depend on the state, but not on its surroundings. -/
theorem get_bind {f : State → Effect β} (hblind : ∀ s around, f (s.within around) = f s)
    (hf : ∀ s, MadeOf able (f s)) : MadeOf able (get >>= f) := by
  let nowhere : Surroundings := ⟨.ofString "", {}, default⟩
  have heq : (get >>= f) = (Effect.examine (fun s => .ok (s.within nowhere)) >>= f) := by
    funext s
    have hread : Effect.examine (fun s : State => .ok (s.within nowhere)) s =
        .ok (s.within nowhere) s := rfl
    rw [Effect.get_bind, bind_ok hread]
    exact (congrFun (hblind s nowhere) s).symm
  rw [heq]
  exact .bind (examine fun _ _ => rfl) hf

theorem discard (h : MadeOf able x) : MadeOf able (discard x) := by
  change MadeOf able (x >>= fun _ => pure ())
  exact h.bind fun _ => of_pure ()

theorem pop : MadeOf able pop := by
  refine .change (fun s around => ?_) fun s => ?_
  · have hsame : (s.within around).parameters = s.parameters := rfl
    rw [pop_apply, pop_apply, hsame]
    rcases s.parameters.pop with cause | ⟨v, rest⟩ <;> rfl
  · rcases h : s.parameters.pop with cause | ⟨v, rest⟩
    · rw [after_error (by rw [pop_apply, h])]
      exact .refl s
    · rw [after_ok (by rw [pop_apply, h])]
      exact .elsewhere rfl rfl rfl rfl rfl rfl

theorem push (v : Value) : MadeOf able (push v) :=
  of_modify (fun _ _ => rfl) fun _ => .elsewhere rfl rfl rfl rfl rfl rfl

theorem takeInt : MadeOf able takeInt :=
  .bind (.examine fun _ _ => rfl) fun n => .bind pop.discard fun _ => of_pure n

theorem forM_write (texts : List String) : MadeOf able (texts.forM Effect.write) := by
  induction texts with
  | nil => exact of_pure ()
  | cons text texts ih => exact (write text).bind fun _ => ih

/-- A word that only computes changes the parameter stack and the output. -/
theorem of_isLocal {x : Effect Unit} (h : IsLocal x) : MadeOf able x := by
  obtain ⟨f, hf⟩ := h
  have heq : x = (do
      let reply ← Effect.examine fun s => f s.parameters s.base
      modify fun s => { s with parameters := reply.parameters }
      reply.texts.forM Effect.write) := by
    funext s
    rw [hf s]
    rcases hreply : f s.parameters s.base with cause | reply
    · rw [bind_error (examine_error hreply)]
      rfl
    · rw [bind_ok (examine_ok hreply)]
      rfl
  rw [heq]
  refine .bind (.examine fun _ _ => rfl) fun reply => .bind ?_ fun _ => forM_write _
  exact of_modify (fun _ _ => rfl) fun _ => .elsewhere rfl rfl rfl rfl rfl rfl

/-! ### Effects that compile -/

theorem setMode (mode : Mode) : MadeOf able (setMode mode) :=
  of_modify (fun _ _ => rfl) fun _ => .mode mode

theorem compile (cell : Cell) : MadeOf able (compile cell) := by
  refine .change (.compile cell) fun s => ?_
  rw [after, compile_apply]
  rcases h : s.here with cause | here
  · exact .refl s
  · by_cases hmax : here = Int64.maxValue
    · simp only [if_pos hmax]
      exact .refl s
    · simp only [if_neg hmax]
      exact .compile h hmax cell

theorem compilePush (v : Value) : MadeOf able (compilePush v) :=
  .bind (.examine fun _ _ => rfl) fun _ => .bind (compile _).discard fun _ => (compile _).discard

theorem header (h : able .define) (name : String) (hidden : Bool) (codeword : Cell) :
    MadeOf able (Words.header name hidden codeword) := by
  refine .change (.bind (.bind (.examine fun _ _ => rfl) fun here => ?_) fun _ =>
    (Blind.compile codeword).discard) fun s => ?_
  · exact .bind (.modify fun _ _ => rfl) fun _ => .modify fun _ _ => rfl
  · rcases hhere : s.here with cause | here
    · rw [after_header_error hhere]
      exact .refl s
    · rw [after_header hhere]
      exact .name h hhere name hidden codeword

end MadeOf

/-- Effects that are made of changes leave what some changes make. -/
theorem MadeOf.becomes {able : Ability → Prop} (h : MadeOf able x) (s : State) :
    s.Becomes able (after x s) := by
  induction h generalizing s with
  | change _ hchange => exact (hchange s).becomes
  | @read α reading _ =>
      refine State.Changes.becomes ?_
      rw [after, expected]
      rcases reading s.input with ⟨_ | a, input⟩ <;> exact .elsewhere rfl rfl rfl rfl rfl rfl
  | dropLine => exact State.Changes.becomes (.elsewhere rfl rfl rfl rfl rfl rfl)
  | write text =>
      refine State.Changes.becomes ?_
      rw [after, write_apply]
      rcases s.output.write text with cause | output
      · exact .refl s
      · exact .elsewhere rfl rfl rfl rfl rfl rfl
  | writeNames =>
      refine State.Changes.becomes ?_
      rw [after, writeNames_apply, write_apply]
      rcases s.output.write (" ".intercalate s.dictionary.visibleNames) with cause | output
      · exact .refl s
      · exact .elsewhere rfl rfl rfl rfl rfl rfl
  | @bind α β x f _ _ ihx ihf =>
      rcases h : x s with ⟨a, t⟩ | ⟨error, t⟩
      · rw [after, bind_ok h]
        have hx := ihx s
        rw [after_ok h] at hx
        exact hx.trans (ihf a t)
      · rw [after_error (bind_error h), ← after_error h]
        exact ihx s

/-! ## Effects that enter one name -/

/-- The effect enters a name at most once, and does nothing else that it would have to be able to
do. -/
def NamesOnce (x : Effect α) : Prop :=
  ∀ s : State, s.Becomes (fun _ => False) (after x s) ∨
    ∃ (t : State) (here : Address) (name : String) (hidden : Bool) (codeword : Cell),
      s.Becomes (fun _ => False) t ∧ t.here = .ok here ∧
      (t.headed here name hidden codeword).Becomes (fun _ => False) (after x s)

theorem NamesOnce.header (name : String) (hidden : Bool) (codeword : Cell) :
    NamesOnce (Words.header name hidden codeword) := by
  intro s
  rcases hhere : s.here with cause | here
  · rw [after_header_error hhere]
    exact .inl .refl
  · rw [after_header hhere]
    exact .inr ⟨s, here, name, hidden, codeword, .refl, hhere, .refl⟩

/-- Something may come before the name. -/
theorem NamesOnce.after_madeOf (hx : MadeOf (fun _ => False) x) (hf : ∀ a, NamesOnce (f a)) :
    NamesOnce (x >>= f) := by
  intro s
  have hbefore := hx.becomes s
  rcases h : x s with ⟨a, t⟩ | ⟨error, t⟩
  · rw [after, bind_ok h]
    rw [after_ok h] at hbefore
    rcases hf a t with hnone | ⟨u, here, name, hidden, codeword, hbecomes, hhere, hrest⟩
    · exact .inl (hbefore.trans hnone)
    · exact .inr ⟨u, here, name, hidden, codeword, hbefore.trans hbecomes, hhere, hrest⟩
  · rw [after_error (bind_error h), ← after_error h]
    exact .inl hbefore

/-- Something may come after the name. -/
theorem NamesOnce.bind (hx : NamesOnce x) (hf : ∀ a, MadeOf (fun _ => False) (f a)) :
    NamesOnce (x >>= f) := by
  intro s
  rcases h : x s with ⟨a, t⟩ | ⟨error, t⟩
  · have hrest := (hf a).becomes t
    rw [after, bind_ok h]
    rcases hx s with hnone | ⟨u, here, name, hidden, codeword, hbecomes, hhere, hafter⟩
    · rw [after_ok h] at hnone
      exact .inl (hnone.trans hrest)
    · rw [after_ok h] at hafter
      exact .inr ⟨u, here, name, hidden, codeword, hbecomes, hhere, hafter.trans hrest⟩
  · rw [after_error (bind_error h), ← after_error h]
    exact hx s

end Effect

end ThreadedForth
