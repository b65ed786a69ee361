import ThreadedForth.Proofs.Memory.Growth
import ThreadedForth.Proofs.Structured.Execution

/-!
# The words of control at work

The words that compile control structures are definitions of the prelude, and what they do is done
by the machine, word for word, while a definition is in progress.  Their code is a straight line.
What a straight line does to the parameters and to memory is what its words do one after the other,
and `Acts` says this of code at whatever address below the definitions of the program.

```text
0BRANCH COMPILE,              compiles a branch
HERE @                        takes down where compiling goes on
0 ,                           leaves room for a distance
- ,                           compiles the distance back
DUP HERE @ SWAP - SWAP !      fills in the distance to here
```

The words of control are put together from these five pieces.
-/

namespace ThreadedForth

open Effect

/-! ## The words -/

inductive ControlWord where
  | ifWord
  | thenWord
  | elseWord
  | beginWord
  | untilWord
  | againWord
  | whileWord
  | repeatWord
  deriving DecidableEq

namespace ControlWord

def all : List ControlWord :=
  [ifWord, thenWord, elseWord, beginWord, untilWord, againWord, whileWord, repeatWord]

def name : ControlWord → String
  | ifWord => "IF"
  | thenWord => "THEN"
  | elseWord => "ELSE"
  | beginWord => "BEGIN"
  | untilWord => "UNTIL"
  | againWord => "AGAIN"
  | whileWord => "WHILE"
  | repeatWord => "REPEAT"

/-- Where the word is on a machine whose first source is the prelude. -/
def address : ControlWord → Address
  | ifWord => 219
  | thenWord => 229
  | elseWord => 238
  | beginWord => 256
  | untilWord => 260
  | againWord => 269
  | whileWord => 278
  | repeatWord => 288

/-- The address after the prelude. -/
def past : Int := 317

/-! The pieces that the words are made of, from the kernel's `COMPILE,` 17, `HERE` 10, `@` 14,
`,` 16 and `!` 15 and the library's `-` 59, `DUP` 87 and `SWAP` 88. -/

def compileCall (target : Address) : Code := .seq (.push (.int target)) (.word 17)

def readHere : Code := .seq (.word 10) (.word 14)

def reserve : Code := .seq (.push (.int 0)) (.word 16)

def compileBack : Code := .seq (.word 59) (.word 16)

def resolve : Code :=
  .seq (.word 87) (.seq readHere (.seq (.word 88) (.seq (.word 59) (.seq (.word 88) (.word 15)))))

/-- The code of the word between `DOCOL` and `EXIT`. -/
def body : ControlWord → Code
  | ifWord | whileWord =>
    .seq (compileCall standardKernel.zeroBranch) (.seq readHere reserve)
  | thenWord => resolve
  | elseWord =>
    .seq (compileCall standardKernel.branch)
      (.seq readHere (.seq reserve (.seq (.word 88) resolve)))
  | beginWord => readHere
  | untilWord => .seq (compileCall standardKernel.zeroBranch) (.seq readHere compileBack)
  | againWord => .seq (compileCall standardKernel.branch) (.seq readHere compileBack)
  | repeatWord =>
    .seq (compileCall standardKernel.branch)
      (.seq (.word 88) (.seq readHere (.seq compileBack resolve)))

/-- All of the word lies above the outer loop and below the definitions of the program. -/
theorem address_range (word : ControlWord) :
    219 ≤ word.address.toInt ∧ word.address.toInt + word.body.definition.length ≤ past := by
  cases word <;> decide

end ControlWord

/-! ## Straight lines -/

/-- What the words of control work on. -/
structure Bench where
  parameters : Stack .parameter
  memory : Memory

/-- The state with the registers at a place and a bench to work on. -/
def State.onBench (s : State) (ip nip : Address) (bench : Bench) : State :=
  { s with ip, nip, parameters := bench.parameters, memory := bench.memory }

/-- The cells of the primitives, the outer loop and the prelude are as they were. -/
def Memory.Keeps (before after : Memory) : Prop :=
  ∀ address : Address, 4 ≤ address.toInt → address.toInt < ControlWord.past →
    after.get address = before.get address

/-- Wherever it is in the prelude, the code changes the bench in that way and nothing else. -/
def Code.Acts (code : Code) (before after : Bench) : Prop :=
  before.memory.Keeps after.memory ∧
    ∀ (s : State) (a nip : Address), s.depth ≠ 0 → s.halt? = none →
      before.memory.HasPrimitives .standard → before.memory.Holds a code.cells → 4 ≤ a.toInt →
      a.toInt + code.cells.length ≤ ControlWord.past →
      ∃ nip', Reaches standardTable (s.onBench a nip before)
        (s.onBench (a + Int64.ofNat code.cells.length) nip' after)

section Acting

variable {before middle after : Bench} {first second : Code} {parameters : Stack .parameter}
variable {memory other : Memory} {here address target : Address}

theorem Memory.keeps_refl (memory : Memory) : memory.Keeps memory := fun _ _ _ => rfl

theorem Memory.Keeps.trans {one two three : Memory} (h : one.Keeps two) (h' : two.Keeps three) :
    one.Keeps three := by
  intro address hfour hpast
  rw [h' address hfour hpast, h address hfour hpast]

theorem Memory.Keeps.hasPrimitives (h : memory.Keeps other)
    (hmemory : memory.HasPrimitives .standard) :
    other.HasPrimitives .standard := by
  refine hmemory.congr fun address hfour hhigh => h address hfour ?_
  have hloop : Outfit.standard.outerLoop.toInt = 216 := rfl
  have hpast : ControlWord.past = 317 := rfl
  omega

theorem Memory.Keeps.holds (h : memory.Keeps other) {cells : List Cell}
    (hcells : memory.Holds address cells) (hfour : 4 ≤ address.toInt)
    (hpast : address.toInt + cells.length ≤ ControlWord.past) : other.Holds address cells := by
  refine hcells.congr fun n hn => ?_
  have hmax : Int64.maxValue.toInt = 9223372036854775807 := rfl
  have hvalue : ControlWord.past = 317 := rfl
  have hplace : (address + Int64.ofNat n).toInt = address.toInt + n :=
    Address.toInt_add_ofNat (by omega)
  exact h _ (by omega) (by omega)

/-- What lies above the prelude may be written. -/
theorem Memory.keeps_set (hlow : ControlWord.past ≤ address.toInt) (cell : Cell) :
    memory.Keeps (memory.set address cell) := by
  intro read hfour hpast
  refine Memory.get_set_of_ne _ ?_ _
  rintro rfl
  omega

theorem Memory.Extends.keeps {cells : List Cell} (h : memory.Extends other here cells)
    (hlow : ControlWord.past ≤ here.toInt) : memory.Keeps other := by
  intro address hfour hpast
  exact h.same_of_lt (by omega) (by omega)

theorem Code.Acts.seq (h : first.Acts before middle) (h' : second.Acts middle after) :
    (Code.seq first second).Acts before after := by
  obtain ⟨hkeeps, hreaches⟩ := h
  obtain ⟨hkeeps', hreaches'⟩ := h'
  refine ⟨hkeeps.trans hkeeps', fun s a nip hdepth hhalt hprimitives hcells hfour hpast => ?_⟩
  obtain ⟨hone, htwo⟩ := Memory.holds_append.mp hcells
  rw [Code.length_cells_seq] at hpast ⊢
  have hmax : Int64.maxValue.toInt = 9223372036854775807 := rfl
  have hvalue : ControlWord.past = 317 := rfl
  have hplace : (a + Int64.ofNat first.cells.length).toInt = a.toInt + first.cells.length :=
    Address.toInt_add_ofNat (by omega)
  obtain ⟨nip', hfirst⟩ := hreaches s a nip hdepth hhalt hprimitives hone hfour (by omega)
  obtain ⟨nip'', hsecond⟩ := hreaches' s _ nip' hdepth hhalt (hkeeps.hasPrimitives hprimitives)
    (hkeeps.holds htwo (by omega) (by omega)) (by omega) (by omega)
  rw [Address.add_ofNat_add] at hsecond
  exact ⟨nip'', hfirst.trans hsecond⟩

theorem acts_push (v : Value) :
    (Code.push v).Acts ⟨parameters, memory⟩ ⟨parameters.push v, memory⟩ := by
  refine ⟨memory.keeps_refl, fun s a nip hdepth hhalt hprimitives hcells _ _ => ?_⟩
  have hmove := reaches_lit (s := s.onBench a nip ⟨parameters, memory⟩)
    ⟨hdepth, hhalt, hprimitives⟩ hcells.1 hcells.2.1
  have hpast : a + 1 + 1 = a + Int64.ofNat 2 := by grind
  refine ⟨a + 1 + 1, ?_⟩
  rw [Code.length_cells_push, ← hpast]
  exact hmove

/-- A primitive acts as its effect does. -/
theorem acts_word {position : Nat} {word : Primitive} (hword : vocabulary[position]? = some word)
    (hcontrol : word.control = .advance) (hkeeps : before.memory.Keeps after.memory)
    (heffect : ∀ s : State,
      word.effect { s with parameters := before.parameters, memory := before.memory } =
        .ok () { s with parameters := after.parameters, memory := after.memory }) :
    (Code.word position).Acts before after := by
  refine ⟨hkeeps, fun s a nip hdepth hhalt hprimitives hcells _ _ => ⟨a + 1, ?_⟩⟩
  have heffect' := heffect ((s.onBench a nip before).called (primitiveAddress position))
  exact reaches_call (s := s.onBench a nip before) ⟨hdepth, hhalt, hprimitives⟩ hword hcontrol
    hcells.1 heffect' hhalt (hkeeps.hasPrimitives hprimitives)

/-! ### The words that control words are made of -/

theorem acts_here : (Code.word 10).Acts ⟨parameters, memory⟩
    ⟨parameters.push (.int Variable.here.address), memory⟩ := by
  have hword : vocabulary[10]? =
    some { name := "HERE", effect := Words.pushAddress .here } := rfl
  exact acts_word hword rfl memory.keeps_refl fun _ => rfl

theorem acts_minus {a b : Int64} :
    (Code.word 59).Acts ⟨(parameters.push (.int a)).push (.int b), memory⟩
      ⟨parameters.push (.int (a - b)), memory⟩ := by
  have hword : vocabulary[59]? =
    some { name := "-", effect := Words.arithmetic Number.minus } := rfl
  exact acts_word hword rfl memory.keeps_refl fun _ => rfl

theorem acts_dup {v : Value} : (Code.word 87).Acts ⟨parameters.push v, memory⟩
    ⟨(parameters.push v).push v, memory⟩ := by
  have hword : vocabulary[87]? = some { name := "DUP", effect := Words.dup } := rfl
  exact acts_word hword rfl memory.keeps_refl fun _ => rfl

theorem acts_swap {v w : Value} : (Code.word 88).Acts ⟨(parameters.push v).push w, memory⟩
    ⟨(parameters.push w).push v, memory⟩ := by
  have hword : vocabulary[88]? =
    some { name := "SWAP", effect := Words.rearrange 2 [1, 0] } := rfl
  exact acts_word hword rfl memory.keeps_refl fun _ => rfl

theorem acts_store {v : Value} (hlow : ControlWord.past ≤ address.toInt) :
    (Code.word 15).Acts ⟨(parameters.push v).push (.int address), memory⟩
      ⟨parameters, memory.set address (.literal v)⟩ := by
  have hword : vocabulary[15]? = some { name := "!", effect := Words.store } := rfl
  exact acts_word hword rfl (Memory.keeps_set hlow _) fun _ => rfl

theorem acts_fetch {v : Value} (hcell : memory.get address = .literal v) :
    (Code.word 14).Acts ⟨parameters.push (.int address), memory⟩ ⟨parameters.push v, memory⟩ := by
  have hword : vocabulary[14]? = some { name := "@", effect := Words.fetch } := rfl
  refine acts_word hword rfl memory.keeps_refl fun s => ?_
  let before : State := { s with parameters := parameters.push (.int address), memory }
  have hfetch : before.fetch address = .ok v := by
    rw [State.fetch, hcell]
    rfl
  have htop : before.topInt = .ok address := rfl
  change Words.fetch before = _
  rw [Words.fetch, topInt, bind_ok (examine_ok htop), bind_ok (examine_ok hfetch),
    bind_ok (Words.discard_pop_ok rfl)]
  rfl

/-- Compiling a cell acts on memory only. -/
theorem compile_onBench (hhere : memory.get Variable.here.address = .literal (.int here))
    (hlow : ControlWord.past ≤ here.toInt) (hroom : here.toInt < Int64.maxValue.toInt)
    (cell : Cell) (s : State) :
    memory.Keeps (memory.compiled here cell) ∧
      Functor.discard (compile cell) { s with memory } =
        .ok () { s with memory := memory.compiled here cell } := by
  have hpast : ControlWord.past = 317 := rfl
  have hmax : here ≠ Int64.maxValue := by
    rintro rfl
    omega
  exact ⟨(Memory.extends_compiled (by omega) hroom).keeps hlow,
    discard_ok (compile_ok (s := { s with memory }) (here_of_get hhere) hmax)⟩

theorem acts_comma {v : Value} (hhere : memory.get Variable.here.address = .literal (.int here))
    (hlow : ControlWord.past ≤ here.toInt) (hroom : here.toInt < Int64.maxValue.toInt) :
    (Code.word 16).Acts ⟨parameters.push v, memory⟩
      ⟨parameters, memory.compiled here (.literal v)⟩ := by
  have hword : vocabulary[16]? = some { name := ",", effect := Words.comma } := rfl
  have hcompile (s : State) := compile_onBench hhere hlow hroom (.literal v) { s with parameters }
  exact acts_word hword rfl (hcompile {}).1 fun s => (hcompile s).2

theorem acts_compileComma (hhere : memory.get Variable.here.address = .literal (.int here))
    (hlow : ControlWord.past ≤ here.toInt) (hroom : here.toInt < Int64.maxValue.toInt) :
    (Code.word 17).Acts ⟨parameters.push (.int target), memory⟩
      ⟨parameters, memory.compiled here (.reference target)⟩ := by
  have hword : vocabulary[17]? = some { name := "COMPILE,", effect := Words.compileComma } := rfl
  have hcompile (s : State) :=
    compile_onBench hhere hlow hroom (.reference target) { s with parameters }
  exact acts_word hword rfl (hcompile {}).1 fun s => (hcompile s).2

/-! ### The pieces -/

theorem acts_compileCall (hhere : memory.get Variable.here.address = .literal (.int here))
    (hlow : ControlWord.past ≤ here.toInt) (hroom : here.toInt < Int64.maxValue.toInt) :
    (ControlWord.compileCall target).Acts ⟨parameters, memory⟩
      ⟨parameters, memory.compiled here (.reference target)⟩ :=
  (acts_push _).seq (acts_compileComma hhere hlow hroom)

theorem acts_readHere (hhere : memory.get Variable.here.address = .literal (.int here)) :
    ControlWord.readHere.Acts ⟨parameters, memory⟩ ⟨parameters.push (.int here), memory⟩ :=
  acts_here.seq (acts_fetch hhere)

theorem acts_reserve (hhere : memory.get Variable.here.address = .literal (.int here))
    (hlow : ControlWord.past ≤ here.toInt) (hroom : here.toInt < Int64.maxValue.toInt) :
    ControlWord.reserve.Acts ⟨parameters, memory⟩
      ⟨parameters, memory.compiled here (.literal (.int 0))⟩ :=
  (acts_push _).seq (acts_comma hhere hlow hroom)

/-- The distance is counted from the cell that holds it. -/
theorem acts_compileBack (hhere : memory.get Variable.here.address = .literal (.int here))
    (hlow : ControlWord.past ≤ here.toInt) (hroom : here.toInt < Int64.maxValue.toInt) :
    ControlWord.compileBack.Acts ⟨(parameters.push (.int target)).push (.int here), memory⟩
      ⟨parameters, memory.compiled here (.literal (.int (target - here)))⟩ :=
  acts_minus.seq (acts_comma hhere hlow hroom)

theorem acts_resolve (hhere : memory.get Variable.here.address = .literal (.int here))
    (hlow : ControlWord.past ≤ address.toInt) :
    ControlWord.resolve.Acts ⟨parameters.push (.int address), memory⟩
      ⟨parameters, memory.set address (.literal (.int (here - address)))⟩ :=
  acts_dup.seq ((acts_readHere hhere).seq
    (acts_swap.seq (acts_minus.seq (acts_swap.seq (acts_store hlow)))))

end Acting

end ThreadedForth
