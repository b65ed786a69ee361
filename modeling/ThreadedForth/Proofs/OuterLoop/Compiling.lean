import Mathlib.Data.List.Forall2
import ThreadedForth.Proofs.Memory.Growth
import ThreadedForth.Proofs.OuterLoop.Prompt

/-!
# Compiling a definition

Between `:` and `;` every token appends cells at `HERE` and returns to the prompt.  `Compiles` says
this of some input: the machine gets from one prompt to another by appending cells, and the rest of
the state is not changed but for the input that was read.

Since the cells are appended above those of the primitives and of the outer loop, what the machine
needs to get on stays as it is, and compiling can be put together from its parts.
-/

namespace ThreadedForth

open Effect

/-- A definition is in progress, and the next cell goes to an address above the outer loop. -/
structure State.IsCompiling (s : State) (w : Outfit) (here : Address) : Prop
    extends s.AtPrompt w where
  kernel : s.kernel? = some w.kernel
  mode : s.mode = .ok .compile
  next : s.memory.get Variable.here.address = .literal (.int here)
  low : w.past ≤ here.toInt

/-- The machine reads on to that input, appends the cells, and is at the prompt again. -/
def State.Compiles (s : State) (table : PrimitiveTable) (here : Address) (cells : List Cell)
    (input : Input) : Prop :=
  ∃ memory, s.memory.Extends memory here cells ∧ Reaches table s { s with memory, input }

/-- What is appended for a token that is not executed: a call of the word, or the literal together
with `LIT`. -/
def Meaning.cells : Meaning → List Cell
  | .word entry => [.reference entry.address]
  | .literal v => [.reference (kernelAddress "LIT"), .literal v]

/-- The token is not executed while a definition is in progress. -/
def Meaning.IsPassive : Meaning → Prop
  | .word entry => entry.immediate = false
  | .literal _ => True

section Compiling

variable {w : Outfit} {s : State} {here : Address} {cells first second : List Cell}
variable {middle input : Input}
variable {token : String} {memory : Memory}

/-! ## What stays -/

/-- The variables lie below. -/
theorem State.IsCompiling.four_le (hs : s.IsCompiling w here) : 4 ≤ here.toInt :=
  w.four_le_of_past_le hs.low

/-- While cells are appended, a definition remains in progress. -/
theorem State.IsCompiling.grow (hs : s.IsCompiling w here)
    (hextends : s.memory.Extends memory here cells)
    (hroom : here.toInt + cells.length ≤ Int64.maxValue.toInt) (input : Input) :
    State.IsCompiling { s with memory, input } w (here + Int64.ofNat cells.length) := by
  have hlow := hs.low
  have hfour := hs.four_le
  have hmemory : memory.IsIntact w := hs.memory.congr fun address hfour hhigh =>
    hextends.same_of_lt (by omega) (by omega)
  refine ⟨⟨⟨hs.ip, hs.nip, hs.depth, hs.halt⟩, hmemory⟩, hs.kernel, ?_, hextends.next, ?_⟩
  · have hstate : memory.get Variable.state.address = s.memory.get Variable.state.address :=
      hextends.same_of_lt (by decide) (Int.lt_of_lt_of_le (by decide) hfour)
    rw [← hs.mode]
    exact mode_congr hstate
  · rw [Address.toInt_add_ofNat hroom]
    omega

/-! ## Putting parts together -/

theorem State.IsCompiling.compiles_nil (hs : s.IsCompiling w here) :
    s.Compiles w.table here [] s.input :=
  ⟨s.memory, Memory.extends_nil hs.next, .refl s⟩

/-- What is compiled first does not disturb what is compiled next. -/
theorem State.Compiles.trans (h : s.Compiles w.table here first middle)
    (hs : s.IsCompiling w here)
    (h' : ∀ memory, s.memory.Extends memory here first →
      State.Compiles { s with memory, input := middle } w.table
        (here + Int64.ofNat first.length) second input)
    (hroom : here.toInt + (first ++ second).length ≤ Int64.maxValue.toInt) :
    s.Compiles w.table here (first ++ second) input := by
  obtain ⟨between, hfirst, hreaches⟩ := h
  obtain ⟨memory, hsecond, hreaches'⟩ := h' between hfirst
  have hfour := hs.four_le
  exact ⟨memory, hfirst.trans hsecond (by omega) hroom, hreaches.trans hreaches'⟩

/-- What compiles one item after another compiles any number of them, if it does not mind that cells
were appended and input was read. -/
theorem compiles_all {P : State → Item → List Cell → Prop}
    (hone : ∀ {s here item cells rest}, s.IsCompiling w here → P s item cells →
      item.IsNext s.input rest → here.toInt + cells.length ≤ Int64.maxValue.toInt →
      s.Compiles w.table here cells rest)
    (hcongr : ∀ {s item cells} (memory input), P s item cells →
      memory.get Variable.base.address = s.memory.get Variable.base.address →
      P { s with memory, input } item cells)
    {items : List Item} {rows : List (List Cell)} (hs : s.IsCompiling w here)
    (hitems : List.Forall₂ (P s) items rows) (hdelivers : s.input.Delivers items input)
    (hroom : here.toInt + rows.flatten.length ≤ Int64.maxValue.toInt) :
    s.Compiles w.table here rows.flatten input := by
  induction items generalizing s here rows with
  | nil =>
      cases hitems
      cases hdelivers
      exact hs.compiles_nil
  | cons item items ih =>
      obtain ⟨row, rows, hitem, hmore, rfl⟩ := List.forall₂_cons_left_iff.mp hitems
      obtain ⟨middle, hnext, hdelivers⟩ := Input.delivers_cons hdelivers
      have hfour := hs.four_le
      have hlength : (row :: rows).flatten.length = row.length + rows.flatten.length := by simp
      have hfirst := hone hs hitem hnext (by omega)
      refine hfirst.trans hs (fun memory hextends => ?_) hroom
      have hend : (here + Int64.ofNat row.length).toInt = here.toInt + row.length :=
        Address.toInt_add_ofNat (by omega)
      have hbase : memory.get Variable.base.address = s.memory.get Variable.base.address :=
        hextends.same_of_lt (by decide) (Int.lt_of_lt_of_le (by decide) hfour)
      exact ih (hs.grow hextends (by omega) middle)
        (hmore.imp fun _ _ h => hcongr memory middle h hbase) hdelivers (by omega)

/-! ## One token -/

/-- A token that is not executed is appended. -/
theorem act_compile (hs : s.IsCompiling w here) {meaning : Meaning} (hpassive : meaning.IsPassive)
    (hroom : here.toInt + meaning.cells.length ≤ Int64.maxValue.toInt) (input : Input) :
    ∃ memory, s.memory.Extends memory here meaning.cells ∧
      act .compile meaning { s with input } = .ok () { s with input, memory, ip := s.nip } := by
  have hfour := hs.four_le
  cases meaning with
  | word entry =>
      have himmediate : entry.immediate = false := hpassive
      have hneither : ¬(Mode.compile = .interpret ∨ entry.immediate = true) := by
        simp [himmediate]
      have hone : here.toInt + 1 ≤ Int64.maxValue.toInt := hroom
      obtain ⟨memory, hextends, hcompile⟩ :=
        compile_extends (s := { s with input }) (.reference entry.address) hs.next (by omega)
          (by omega)
      refine ⟨memory, hextends, ?_⟩
      rw [act, if_neg hneither, bind_ok (discard_ok hcompile)]
      rfl
  | literal v =>
      obtain ⟨memory, hextends, hcompile⟩ := compilePush_extends (s := { s with input }) (v := v)
        hs.kernel hs.next (by omega) hroom
      refine ⟨memory, hextends, ?_⟩
      change (compilePush v >>= fun _ => resume) _ = _
      rw [bind_ok hcompile]
      rfl

/-- After it was appended the machine is back at the prompt, and no name was touched. -/
theorem steady_compiled (hs : s.IsCompiling w here)
    (hread : s.input.readToken = (some token, input)) {meaning : Meaning}
    (hmeaning : s.classify token = .ok meaning) (hpassive : meaning.IsPassive)
    (hroom : here.toInt + meaning.cells.length ≤ Int64.maxValue.toInt) :
    ∃ memory, s.memory.Extends memory here meaning.cells ∧
      Steady w.table s { s with memory, input } := by
  obtain ⟨memory, hextends, hact⟩ := act_compile hs hpassive hroom input
  have hgrown := hs.grow hextends hroom input
  have hquiet := quiet_interpret hs.toAtPrompt hread hs.mode hmeaning hact hs.halt
  have hback := steady_prompted (s := { s with input, memory, ip := s.nip })
    ⟨hs.depth, hs.halt, hgrown.memory.toHasPrimitives⟩ hgrown.memory hs.nip
  rw [State.prompted, ← hs.ip, ← hs.nip] at hback
  exact ⟨memory, hextends, (Steady.single hquiet rfl).trans hback⟩

/-- A literal is compiled together with `LIT`. -/
theorem compiles_literal (hs : s.IsCompiling w here)
    (hread : s.input.readToken = (some token, input)) {v : Value}
    (hmeaning : s.classify token = .ok (.literal v))
    (hroom : here.toInt + 2 ≤ Int64.maxValue.toInt) :
    s.Compiles w.table here [.reference (kernelAddress "LIT"), .literal v] input := by
  obtain ⟨memory, hextends, hsteady⟩ := steady_compiled hs hread hmeaning trivial hroom
  exact ⟨memory, hextends, hsteady.reaches⟩

/-- A word that is not immediate is compiled as a call. -/
theorem compiles_word (hs : s.IsCompiling w here)
    (hread : s.input.readToken = (some token, input)) {entry : Entry}
    (hmeaning : s.classify token = .ok (.word entry)) (himmediate : entry.immediate = false)
    (hroom : here.toInt + 1 ≤ Int64.maxValue.toInt) :
    s.Compiles w.table here [.reference entry.address] input := by
  obtain ⟨memory, hextends, hsteady⟩ := steady_compiled hs hread hmeaning himmediate hroom
  exact ⟨memory, hextends, hsteady.reaches⟩

/-- An immediate primitive compiles what its effect appends. -/
theorem compiles_of_effect (hs : s.IsCompiling w here)
    (hread : s.input.readToken = (some token, middle)) {entry : Entry}
    (hfind : s.dictionary.findVisible? token = some entry) (himmediate : entry.immediate = true)
    {position : Nat} {word : Primitive} (haddress : entry.address = primitiveAddress position)
    (hword : w.words[position]? = some word) (hcontrol : word.control = .advance)
    (hextends : s.memory.Extends memory here cells)
    (heffect : word.effect { s with input := middle, ip := entry.address } =
      .ok () { s with input, memory, ip := entry.address })
    (hroom : here.toInt + cells.length ≤ Int64.maxValue.toInt) :
    s.Compiles w.table here cells input := by
  have hgrown := hs.grow hextends hroom input
  have hback := reaches_executed hs.toAtPrompt hread hfind hs.mode (.inr himmediate) haddress hword
    hcontrol heffect rfl rfl hs.halt hgrown.memory
  rw [State.prompted, ← hs.ip, ← hs.nip] at hback
  exact ⟨memory, hextends, hback⟩

end Compiling

end ThreadedForth
