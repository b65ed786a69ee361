import ThreadedForth.Proofs.OuterLoop.Evaluating
import ThreadedForth.Proofs.OuterLoop.Executing
import ThreadedForth.Proofs.Prelude.ControlWords

/-!
# Programs with control structures

A program is what may stand between `: name` and `;`.  The words of control are executed while it is
compiled, and what they have to remember from one to another they leave on the parameter stack,
above whatever lies there: where a loop begins, and where a distance has still to be filled in.

## Strategy

`Builds` says of a state in which a definition is in progress that the machine appends cells and
comes to some prompt with some parameters.  A program `Builds` its code and leaves the parameters
alone, and this is the induction hypothesis: inside a structure the parameters are not the same as
outside of it, but what is inside does not notice.

* **Appending.**  What is built after some cells is built from a state that is like the first one
  but for these cells, so one state is followed through a whole structure.
* **Filling in.**  The cell for a distance is appended when a branch is compiled and written again
  when the target is known.  By `Extends.patch` it may be taken as appended with its final content.
-/

namespace ThreadedForth

open Effect

/-! ## Programs and their code -/

inductive Program where
  | skip
  | seq (first second : Program)
  /-- A literal, or a word that is not executed while it is compiled. -/
  | token (text : String)
  | recurse
  | ifThen (body : Program)
  | ifElse (yes no : Program)
  | untilLoop (body : Program)
  | whileLoop (test body : Program)
  | again (body : Program)

namespace Program

/-- How the program is written. -/
def items : Program → List Item
  | skip => []
  | seq first second => first.items ++ second.items
  | token text => [.token text]
  | recurse => [.token "RECURSE"]
  | ifThen body => .token "IF" :: body.items ++ [.token "THEN"]
  | ifElse yes no => .token "IF" :: yes.items ++ .token "ELSE" :: no.items ++ [.token "THEN"]
  | untilLoop body => .token "BEGIN" :: body.items ++ [.token "UNTIL"]
  | whileLoop test body =>
    .token "BEGIN" :: test.items ++ .token "WHILE" :: body.items ++ [.token "REPEAT"]
  | again body => .token "BEGIN" :: body.items ++ [.token "AGAIN"]

/-- The code of the program in a definition at an address, if tokens have that meaning. -/
inductive Translates (meaning : String → Except Cause Meaning) (start : Address) :
    Program → Code → Prop
  | skip : Translates meaning start .skip .skip
  | seq {first second one two} (hfirst : Translates meaning start first one)
      (hsecond : Translates meaning start second two) :
      Translates meaning start (.seq first second) (.seq one two)
  | literal {text v} (hmeaning : meaning text = .ok (.literal v)) :
      Translates meaning start (.token text) (.push v)
  | word {text entry} (hmeaning : meaning text = .ok (.word entry))
      (himmediate : entry.immediate = false) :
      Translates meaning start (.token text) (.call entry.address)
  | recurse : Translates meaning start .recurse (.call start)
  | ifThen {body code} (hbody : Translates meaning start body code) :
      Translates meaning start (.ifThen body) (.ifThen code)
  | ifElse {yes no one two} (hyes : Translates meaning start yes one)
      (hno : Translates meaning start no two) :
      Translates meaning start (.ifElse yes no) (.ifElse one two)
  | untilLoop {body code} (hbody : Translates meaning start body code) :
      Translates meaning start (.untilLoop body) (.untilLoop code)
  | whileLoop {test body one two} (htest : Translates meaning start test one)
      (hbody : Translates meaning start body two) :
      Translates meaning start (.whileLoop test body) (.whileLoop one two)
  | again {body code} (hbody : Translates meaning start body code) :
      Translates meaning start (.again body) (.again code)

end Program

/-- The words of control are in place. -/
def Memory.HasControl (memory : Memory) : Prop :=
  ∀ word : ControlWord, memory.Holds word.address word.body.definition

/-- The words of control have their names. -/
def Dictionary.HasControl (dictionary : Dictionary) : Prop :=
  ∀ word : ControlWord, dictionary.Resolves word.name word.address true

/-! ## Building -/

/-- A definition at an address is in progress, and the words of control can be used. -/
structure State.IsBuilding (s : State) (meaning : String → Except Cause Meaning)
    (start here : Address) : Prop extends s.IsCompiling .standard here where
  meaning : ∀ token, s.classify token = meaning token
  latest : s.memory.get Variable.latest.address = .literal (.int start)
  definitions : s.memory.HasControl
  words : s.dictionary.HasControl
  recurse : s.dictionary.Resolves "RECURSE" (kernelAddress "RECURSE") true
  above : ControlWord.past ≤ here.toInt

/-- The machine reads on to that input, appends the cells, and is at the prompt again with other
parameters. -/
def State.Builds (s : State) (here : Address) (cells : List Cell) (parameters : Stack .parameter)
    (input : Input) : Prop :=
  ∃ memory, s.memory.Extends memory here cells ∧
    Reaches standardTable s { s with memory, input, parameters }

section Building

variable {s : State} {meaning : String → Except Cause Meaning} {start here : Address}
variable {cells first second : List Cell} {parameters others : Stack .parameter}
variable {memory : Memory} {input middle rest : Input}

theorem Memory.Keeps.hasControl {before after : Memory} (h : before.Keeps after)
    (hcontrol : before.HasControl) : after.HasControl := by
  intro word
  obtain ⟨hlow, hhigh⟩ := word.address_range
  exact h.holds (hcontrol word) (by omega) hhigh

theorem Memory.Keeps.isIntact {before after : Memory} (h : before.Keeps after)
    (hmemory : before.IsIntact .standard) : after.IsIntact .standard := by
  refine hmemory.congr fun address hfour hhigh => h address hfour ?_
  rw [Outfit.standard_past] at hhigh
  have hpast : ControlWord.past = 317 := rfl
  omega

/-- While cells are appended, a definition remains in progress. -/
theorem State.IsBuilding.grow (hs : s.IsBuilding meaning start here)
    (hextends : s.memory.Extends memory here cells)
    (hroom : here.toInt + cells.length ≤ Int64.maxValue.toInt) (input : Input)
    (parameters : Stack .parameter) :
    State.IsBuilding { s with memory, input, parameters } meaning start
      (here + Int64.ofNat cells.length) := by
  have hgrown := hs.toIsCompiling.grow hextends hroom input
  have hkeeps := hextends.keeps hs.above
  have habove := hs.above
  have hpast : ControlWord.past = 317 := rfl
  have hsame : ∀ v : Variable, v ≠ .here → memory.get v.address = s.memory.get v.address := by
    intro v hv
    have hpositive : 0 < v.address.toInt ∧ v.address.toInt < 317 := by
      cases v <;> first | exact absurd rfl hv | decide
    exact hextends.same_of_lt hpositive.1 (by omega)
  refine ⟨⟨⟨⟨hs.ip, hs.nip, hs.depth, hs.halt⟩, hgrown.memory⟩, hs.kernel, hgrown.mode,
    hgrown.next, hgrown.low⟩, fun token => ?_, ?_, hkeeps.hasControl hs.definitions, hs.words,
    hs.recurse, ?_⟩
  · rw [← hs.meaning]
    exact classify_congr rfl (hsame .base (by decide))
  · rw [← hs.latest]
    exact hsame .latest (by decide)
  · rw [Address.toInt_add_ofNat hroom]
    omega

theorem State.IsBuilding.builds_nil (hs : s.IsBuilding meaning start here) :
    s.Builds here [] s.parameters s.input :=
  ⟨s.memory, Memory.extends_nil hs.next, .refl s⟩

/-- What is built first does not disturb what is built next. -/
theorem State.Builds.append (h : s.Builds here first parameters middle)
    (hs : s.IsBuilding meaning start here)
    (h' : ∀ memory,
      State.IsBuilding { s with memory, input := middle, parameters } meaning start
        (here + Int64.ofNat first.length) →
      (here + Int64.ofNat first.length).toInt + second.length ≤ Int64.maxValue.toInt →
      State.Builds { s with memory, input := middle, parameters }
        (here + Int64.ofNat first.length) second others rest)
    (hroom : here.toInt + (first.length + second.length) ≤ Int64.maxValue.toInt) :
    s.Builds here (first ++ second) others rest := by
  obtain ⟨between, hfirst, hreaches⟩ := h
  have hnext : (here + Int64.ofNat first.length).toInt = here.toInt + first.length :=
    Address.toInt_add_ofNat (by omega)
  obtain ⟨memory, hsecond, hreaches'⟩ :=
    h' between (hs.grow hfirst (by omega) middle parameters) (by omega)
  have hlow : 219 ≤ here.toInt := hs.low
  exact ⟨memory, hfirst.trans hsecond (by omega) (by rw [List.length_append]; omega),
    hreaches.trans hreaches'⟩

/-! ### One word of control -/

/-- A word of control that is read works on the parameters and the memory of the prompt. -/
theorem reaches_control (hs : s.IsBuilding meaning start here) (word : ControlWord)
    (hread : s.input.readToken = (some word.name, rest))
    (hacts : word.body.Acts ⟨s.parameters, s.memory⟩ ⟨parameters, memory⟩) :
    Reaches standardTable s { s with input := rest, parameters, memory } := by
  obtain ⟨entry, hfind, haddress, himmediate⟩ := hs.words word
  obtain ⟨hkeeps, hreaches⟩ := hacts
  have hholds := hs.definitions word
  obtain ⟨hlow, hhigh⟩ := word.address_range
  have hlength : word.body.definition.length = word.body.cells.length + 2 := by
    simp [Code.definition]
  have hmax : Int64.maxValue.toInt = 9223372036854775807 := rfl
  have hpast : ControlWord.past = 317 := rfl
  have hone : (word.address + 1).toInt = word.address.toInt + 1 := Address.toInt_add_one (by omega)
  -- in
  have hdocol : s.memory.get entry.address = .native standardKernel.docol := by
    rw [haddress]
    exact hholds.1
  have hbegun := reaches_begun hs.toAtPrompt hread hfind hs.mode (.inr himmediate) hdocol
  rw [haddress] at hbegun
  -- along the line
  have hinside := (Memory.holds_append.mp hholds.2).1
  obtain ⟨nip, hline⟩ := hreaches (s.begun standardKernel rest) (word.address + 1) s.nip
    (Nat.succ_ne_zero _) hs.halt hs.memory.toHasPrimitives hinside (by omega) (by omega)
  -- and out
  have hintact : memory.IsIntact .standard := hkeeps.isIntact hs.memory
  have hexit := (Memory.holds_append.mp (hkeeps.hasControl hs.definitions word).2).2.1
  have hback := reaches_prompted_of_exit
    (s := (s.begun standardKernel rest).onBench
      (word.address + 1 + Int64.ofNat word.body.cells.length) nip ⟨parameters, memory⟩)
    ⟨Nat.succ_ne_zero _, hs.halt, hintact.toHasPrimitives⟩ hintact hexit rfl
    (Nat.succ_lt_succ (Nat.pos_of_ne_zero hs.depth))
  rw [State.prompted, ← hs.ip, ← hs.nip] at hback
  exact (hbegun.trans hline).trans hback

/-- What the words that begin a conditional compile: a branch without a distance. -/
theorem builds_forward (hs : s.IsBuilding meaning start here) (word : ControlWord)
    (hread : s.input.readToken = (some word.name, rest))
    (hbody : word.body = .seq (ControlWord.compileCall standardKernel.zeroBranch)
      (.seq ControlWord.readHere ControlWord.reserve))
    (hroom : here.toInt + 2 ≤ Int64.maxValue.toInt) :
    s.Builds here (Code.jump standardKernel.zeroBranch 0) (s.parameters.push (.int (here + 1)))
      rest := by
  have habove := hs.above
  have hpast : ControlWord.past = 317 := rfl
  have hone : (here + 1).toInt = here.toInt + 1 := Address.toInt_add_one (by omega)
  refine ⟨_, Memory.extends_compiled_two (by omega) hroom, reaches_control hs word hread ?_⟩
  rw [hbody]
  exact (acts_compileCall hs.next habove (by omega)).seq
    ((acts_readHere (Memory.get_compiled_here ..)).seq
      (acts_reserve (Memory.get_compiled_here ..) (by omega) (by omega)))

/-- `BEGIN` compiles nothing. -/
theorem builds_begin (hs : s.IsBuilding meaning start here)
    (hread : s.input.readToken = (some "BEGIN", rest)) :
    s.Builds here [] (s.parameters.push (.int here)) rest :=
  ⟨s.memory, Memory.extends_nil hs.next,
    reaches_control hs .beginWord hread (acts_readHere hs.next)⟩

/-- What the words that end a loop compile: a branch back. -/
theorem builds_back (hs : s.IsBuilding meaning start here) (word : ControlWord)
    (hread : s.input.readToken = (some word.name, rest)) {branch : Address}
    (hbody : word.body = .seq (ControlWord.compileCall branch)
      (.seq ControlWord.readHere ControlWord.compileBack))
    (hroom : here.toInt + 2 ≤ Int64.maxValue.toInt) {target : Address}
    (hparameters : s.parameters = parameters.push (.int target)) :
    s.Builds here (Code.jump branch (target - (here + 1))) parameters rest := by
  have habove := hs.above
  have hpast : ControlWord.past = 317 := rfl
  have hone : (here + 1).toInt = here.toInt + 1 := Address.toInt_add_one (by omega)
  refine ⟨_, Memory.extends_compiled_two (by omega) hroom, reaches_control hs word hread ?_⟩
  rw [hbody, hparameters]
  exact (acts_compileCall hs.next habove (by omega)).seq
    ((acts_readHere (Memory.get_compiled_here ..)).seq
      (acts_compileBack (Memory.get_compiled_here ..) (by omega) (by omega)))

/-- `THEN` fills in a distance. -/
theorem reaches_then (hs : s.IsBuilding meaning start here)
    (hread : s.input.readToken = (some "THEN", rest)) {address : Address}
    (hparameters : s.parameters = parameters.push (.int address))
    (hlow : ControlWord.past ≤ address.toInt) :
    Reaches standardTable s { s with
      input := rest
      parameters
      memory := s.memory.set address (.literal (.int (here - address))) } := by
  refine reaches_control hs .thenWord hread ?_
  rw [hparameters]
  exact acts_resolve hs.next hlow

/-- `ELSE` compiles a branch and fills in the distance of another one. -/
theorem reaches_else (hs : s.IsBuilding meaning start here)
    (hread : s.input.readToken = (some "ELSE", rest))
    (hroom : here.toInt + 2 ≤ Int64.maxValue.toInt) {address : Address}
    (hparameters : s.parameters = parameters.push (.int address))
    (hlow : ControlWord.past ≤ address.toInt) :
    ∃ memory, s.memory.Extends memory here (Code.jump standardKernel.branch 0) ∧
      Reaches standardTable s { s with
        input := rest
        parameters := parameters.push (.int (here + 1))
        memory := memory.set address (.literal (.int (here + 1 + 1 - address))) } := by
  have habove := hs.above
  have hpast : ControlWord.past = 317 := rfl
  have hone : (here + 1).toInt = here.toInt + 1 := Address.toInt_add_one (by omega)
  refine ⟨_, Memory.extends_compiled_two (by omega) hroom,
    reaches_control hs .elseWord hread ?_⟩
  rw [hparameters]
  exact (acts_compileCall hs.next habove (by omega)).seq
    ((acts_readHere (Memory.get_compiled_here ..)).seq
      ((acts_reserve (Memory.get_compiled_here ..) (by omega) (by omega)).seq
        (acts_swap.seq (acts_resolve (Memory.get_compiled_here ..) hlow))))

/-- `REPEAT` compiles a branch back and fills in the distance of another one. -/
theorem reaches_repeat (hs : s.IsBuilding meaning start here)
    (hread : s.input.readToken = (some "REPEAT", rest))
    (hroom : here.toInt + 2 ≤ Int64.maxValue.toInt) {address target : Address}
    (hparameters : s.parameters = (parameters.push (.int target)).push (.int address))
    (hlow : ControlWord.past ≤ address.toInt) :
    ∃ memory,
      s.memory.Extends memory here (Code.jump standardKernel.branch (target - (here + 1))) ∧
      Reaches standardTable s { s with
        input := rest
        parameters
        memory := memory.set address (.literal (.int (here + 1 + 1 - address))) } := by
  have habove := hs.above
  have hpast : ControlWord.past = 317 := rfl
  have hone : (here + 1).toInt = here.toInt + 1 := Address.toInt_add_one (by omega)
  refine ⟨_, Memory.extends_compiled_two (by omega) hroom,
    reaches_control hs .repeatWord hread ?_⟩
  rw [hparameters]
  exact (acts_compileCall hs.next habove (by omega)).seq
    (acts_swap.seq ((acts_readHere (Memory.get_compiled_here ..)).seq
      ((acts_compileBack (Memory.get_compiled_here ..) (by omega) (by omega)).seq
        (acts_resolve (Memory.get_compiled_here ..) hlow))))

/-! ### Distances that are filled in -/

/-- An address among cells that were appended lies above the prelude. -/
theorem State.IsBuilding.past_le (hs : s.IsBuilding meaning start here) {n : Nat}
    (hroom : here.toInt + n ≤ Int64.maxValue.toInt) :
    ControlWord.past ≤ (here + Int64.ofNat n).toInt := by
  have habove := hs.above
  rw [Address.toInt_add_ofNat hroom]
  omega

theorem State.Builds.forward (h : s.Builds here cells parameters middle)
    (hs : s.IsBuilding meaning start here) (word : ControlWord)
    (hread : middle.readToken = (some word.name, rest))
    (hbody : word.body = .seq (ControlWord.compileCall standardKernel.zeroBranch)
      (.seq ControlWord.readHere ControlWord.reserve))
    (hroom : here.toInt + (cells.length + 2) ≤ Int64.maxValue.toInt) :
    s.Builds here (cells ++ Code.jump standardKernel.zeroBranch 0)
      (parameters.push (.int (here + Int64.ofNat (cells.length + 1)))) rest := by
  refine h.append hs (fun memory hu hroom => ?_) hroom
  rw [← Address.add_ofNat_add]
  exact builds_forward hu word hread hbody hroom

theorem State.Builds.back (h : s.Builds here cells (parameters.push (.int here)) middle)
    (hs : s.IsBuilding meaning start here) (word : ControlWord)
    (hread : middle.readToken = (some word.name, rest)) {branch : Address}
    (hbody : word.body = .seq (ControlWord.compileCall branch)
      (.seq ControlWord.readHere ControlWord.compileBack))
    (hroom : here.toInt + (cells.length + 2) ≤ Int64.maxValue.toInt) :
    s.Builds here (cells ++ Code.jump branch (-Int64.ofNat (cells.length + 1))) parameters
      rest := by
  refine h.append hs (fun memory hu hroom => ?_) hroom
  have hdistance : -Int64.ofNat (cells.length + 1) =
      here - (here + Int64.ofNat cells.length + 1) := by
    grind [Int64.ofNat_add]
  rw [hdistance]
  exact builds_back hu word hread hbody hroom rfl

theorem State.Builds.thenWord {cell : Cell}
    (h : s.Builds here (first ++ cell :: second)
      (parameters.push (.int (here + Int64.ofNat first.length))) middle)
    (hs : s.IsBuilding meaning start here) (hread : middle.readToken = (some "THEN", rest))
    (hroom : here.toInt + (first.length + second.length + 1) ≤ Int64.maxValue.toInt) :
    s.Builds here (first ++ .literal (.int (Int64.ofNat (second.length + 1))) :: second) parameters
      rest := by
  obtain ⟨memory, hextends, hreaches⟩ := h
  have hlow : 219 ≤ here.toInt := hs.low
  have hlength : (first ++ cell :: second).length = first.length + (second.length + 1) := by simp
  have hroom' : here.toInt + (first ++ cell :: second).length ≤ Int64.maxValue.toInt := by omega
  have hu :=
    hs.grow hextends hroom' middle (parameters.push (.int (here + Int64.ofNat first.length)))
  have hthen := reaches_then hu hread rfl (hs.past_le (n := first.length) (by omega))
  have hdistance : here + Int64.ofNat (first ++ cell :: second).length -
      (here + Int64.ofNat first.length) = Int64.ofNat (second.length + 1) := by
    rw [hlength]
    grind [Int64.ofNat_add]
  rw [hdistance] at hthen
  exact ⟨_, hextends.patch (by omega) hroom' _, hreaches.trans hthen⟩

theorem State.Builds.elseWord {cell : Cell}
    (h : s.Builds here (first ++ cell :: second)
      (parameters.push (.int (here + Int64.ofNat first.length))) middle)
    (hs : s.IsBuilding meaning start here) (hread : middle.readToken = (some "ELSE", rest))
    (hroom : here.toInt + (first.length + second.length + 3) ≤ Int64.maxValue.toInt) :
    s.Builds here
      (first ++ .literal (.int (Int64.ofNat (second.length + 3))) ::
        (second ++ Code.jump standardKernel.branch 0))
      (parameters.push (.int (here + Int64.ofNat (first.length + second.length + 2)))) rest := by
  obtain ⟨memory, hextends, hreaches⟩ := h
  have hlow : 219 ≤ here.toInt := hs.low
  have hlength : (first ++ cell :: second).length = first.length + (second.length + 1) := by simp
  have hroom' : here.toInt + (first ++ cell :: second).length ≤ Int64.maxValue.toInt := by omega
  have hnext : (here + Int64.ofNat (first ++ cell :: second).length).toInt =
      here.toInt + (first ++ cell :: second).length := Address.toInt_add_ofNat hroom'
  have hu :=
    hs.grow hextends hroom' middle (parameters.push (.int (here + Int64.ofNat first.length)))
  obtain ⟨memory', hextends', helse⟩ :=
    reaches_else hu hread (by omega) rfl (hs.past_le (n := first.length) (by omega))
  have hplace : here + Int64.ofNat (first ++ cell :: second).length + 1 =
      here + Int64.ofNat (first.length + second.length + 2) := by
    rw [hlength]
    grind [Int64.ofNat_add]
  have hdistance : here + Int64.ofNat (first.length + second.length + 2) + 1 -
      (here + Int64.ofNat first.length) = Int64.ofNat (second.length + 3) := by
    grind [Int64.ofNat_add]
  rw [hplace, hdistance] at helse
  have hboth := hextends.trans hextends' (by omega) (by simp; omega)
  rw [List.append_assoc, List.cons_append] at hboth
  exact ⟨_, hboth.patch (by omega) (by simp; omega) _, hreaches.trans helse⟩

theorem State.Builds.repeatWord {cell : Cell}
    (h : s.Builds here (first ++ cell :: second)
      ((parameters.push (.int here)).push (.int (here + Int64.ofNat first.length))) middle)
    (hs : s.IsBuilding meaning start here) (hread : middle.readToken = (some "REPEAT", rest))
    (hroom : here.toInt + (first.length + second.length + 3) ≤ Int64.maxValue.toInt) :
    s.Builds here
      (first ++ .literal (.int (Int64.ofNat (second.length + 3))) ::
        (second ++ Code.jump standardKernel.branch
          (-Int64.ofNat (first.length + second.length + 2)))) parameters rest := by
  obtain ⟨memory, hextends, hreaches⟩ := h
  have hlow : 219 ≤ here.toInt := hs.low
  have hlength : (first ++ cell :: second).length = first.length + (second.length + 1) := by simp
  have hroom' : here.toInt + (first ++ cell :: second).length ≤ Int64.maxValue.toInt := by omega
  have hnext : (here + Int64.ofNat (first ++ cell :: second).length).toInt =
      here.toInt + (first ++ cell :: second).length := Address.toInt_add_ofNat hroom'
  have hu := hs.grow hextends hroom' middle
    ((parameters.push (.int here)).push (.int (here + Int64.ofNat first.length)))
  obtain ⟨memory', hextends', hrepeat⟩ :=
    reaches_repeat hu hread (by omega) rfl (hs.past_le (n := first.length) (by omega))
  have hback : here - (here + Int64.ofNat (first ++ cell :: second).length + 1) =
      -Int64.ofNat (first.length + second.length + 2) := by
    rw [hlength]
    grind [Int64.ofNat_add]
  have hdistance : here + Int64.ofNat (first ++ cell :: second).length + 1 + 1 -
      (here + Int64.ofNat first.length) = Int64.ofNat (second.length + 3) := by
    rw [hlength]
    grind [Int64.ofNat_add]
  rw [hback] at hextends'
  rw [hdistance] at hrepeat
  have hboth := hextends.trans hextends' (by omega) (by simp; omega)
  rw [List.append_assoc, List.cons_append] at hboth
  exact ⟨_, hboth.patch (by omega) (by simp; omega) _, hreaches.trans hrepeat⟩

/-! ## Programs -/

/-- `RECURSE` compiles a call of the definition in progress. -/
theorem compiles_recurse (hs : s.IsBuilding meaning start here)
    (hread : s.input.readToken = (some "RECURSE", rest))
    (hroom : here.toInt + 1 ≤ Int64.maxValue.toInt) :
    s.Compiles standardTable here [.reference start] rest := by
  have hlow : 219 ≤ here.toInt := hs.low
  obtain ⟨entry, hfind, haddress, himmediate⟩ := hs.recurse
  have hword : vocabulary[32]? =
    some { name := "RECURSE", immediate := true, effect := Words.recurse } := rfl
  let u : State := { s with input := rest, ip := entry.address }
  have hcompiling : Words.requireCompiling "RECURSE" u = .ok () u := by
    rw [Words.requireCompiling, bind_ok (examine_ok (s := u) hs.mode)]
    rfl
  have hlatest : u.latest = .ok start := by
    simp only [u, State.latest, State.readVariable, hs.latest]
    rfl
  obtain ⟨memory, hextends, hcompile⟩ :=
    compile_extends (s := u) (.reference start) hs.next (by omega) (by omega)
  have heffect : Words.recurse u = .ok () { u with memory } := by
    rw [Words.recurse, bind_ok hcompiling, bind_ok (examine_ok hlatest)]
    exact discard_ok hcompile
  exact compiles_of_effect hs.toIsCompiling hread hfind himmediate haddress hword rfl hextends
    heffect hroom

/-- Wherever a definition is in progress, the program becomes that code, and the parameters are not
changed. -/
def Program.Becomes (meaning : String → Except Cause Meaning) (start : Address) (program : Program)
    (code : Code) : Prop :=
  ∀ {s : State} {here : Address} {rest : Input}, s.IsBuilding meaning start here →
    s.input.Delivers program.items rest →
    here.toInt + code.cells.length ≤ Int64.maxValue.toInt →
    s.Builds here code.cells s.parameters rest

namespace Program

variable {body yes no test : Program} {code one two : Code}

theorem Becomes.ifThen (h : Becomes meaning start body code) :
    Becomes meaning start (.ifThen body) (.ifThen code) := by
  intro s here rest hs hdelivers hroom
  obtain ⟨_, ⟨hif⟩, hdelivers⟩ := Input.delivers_cons hdelivers
  obtain ⟨closing, hbody, hdelivers⟩ := Input.delivers_append hdelivers
  obtain ⟨_, ⟨hthen⟩, ⟨⟩⟩ := Input.delivers_cons hdelivers
  rw [Code.length_cells_ifThen] at hroom
  have hinside := (hs.builds_nil.forward hs .ifWord hif rfl (by simp; omega)).append hs
    (fun _ hu hroom => h hu hbody hroom) (by simp; omega)
  have hpending : s.Builds here
      ([.reference standardKernel.zeroBranch] ++ .literal (.int 0) :: code.cells)
      (s.parameters.push (.int (here + Int64.ofNat 1))) closing := hinside
  exact hpending.thenWord hs hthen (by rw [List.length_singleton]; omega)

theorem Becomes.ifElse (hyes : Becomes meaning start yes one) (hno : Becomes meaning start no two) :
    Becomes meaning start (.ifElse yes no) (.ifElse one two) := by
  intro s here rest hs hdelivers hroom
  obtain ⟨_, ⟨hif⟩, hdelivers⟩ := Input.delivers_cons hdelivers
  obtain ⟨closing, hdelivers, hclose⟩ := Input.delivers_append hdelivers
  obtain ⟨_, ⟨hthen⟩, ⟨⟩⟩ := Input.delivers_cons hclose
  obtain ⟨turning, hfirst, hdelivers⟩ := Input.delivers_append hdelivers
  obtain ⟨_, ⟨helse⟩, hsecond⟩ := Input.delivers_cons hdelivers
  rw [Code.length_cells_ifElse] at hroom
  have hinside := (hs.builds_nil.forward hs .ifWord hif rfl (by simp; omega)).append hs
    (fun _ hu hroom => hyes hu hfirst hroom) (by simp; omega)
  have hpending : s.Builds here
      ([.reference standardKernel.zeroBranch] ++ .literal (.int 0) :: one.cells)
      (s.parameters.push (.int (here + Int64.ofNat 1))) turning := hinside
  have hturned := (hpending.elseWord hs helse (by rw [List.length_singleton]; omega)).append hs
    (fun _ hu hroom => hno hu hsecond hroom) (by simp; omega)
  -- the distance that is missing now is that of the second branch
  let before := Code.jump standardKernel.zeroBranch (Int64.ofNat (one.cells.length + 3)) ++
    one.cells ++ [.reference standardKernel.branch]
  have hlength : before.length = 1 + one.cells.length + 2 := by
    simp [before]
    omega
  have hpending' : s.Builds here (before ++ .literal (.int 0) :: two.cells)
      (s.parameters.push (.int (here + Int64.ofNat before.length))) closing := by
    rw [hlength]
    simpa [Code.jump, before, Stack.push] using hturned
  have hcells : (Code.ifElse one two).cells =
      before ++ .literal (.int (Int64.ofNat (two.cells.length + 1))) :: two.cells := by
    simp [Code.cells, Code.jump, before]
  rw [hcells]
  exact hpending'.thenWord hs hthen (by omega)

theorem Becomes.untilLoop (h : Becomes meaning start body code) :
    Becomes meaning start (.untilLoop body) (.untilLoop code) := by
  intro s here rest hs hdelivers hroom
  obtain ⟨_, ⟨hbegin⟩, hdelivers⟩ := Input.delivers_cons hdelivers
  obtain ⟨_, hbody, hdelivers⟩ := Input.delivers_append hdelivers
  obtain ⟨_, ⟨huntil⟩, ⟨⟩⟩ := Input.delivers_cons hdelivers
  rw [Code.length_cells_untilLoop] at hroom
  have hinside := (builds_begin hs hbegin).append hs (fun _ hu hroom => h hu hbody hroom)
    (by simp; omega)
  exact hinside.back hs .untilWord huntil rfl hroom

theorem Becomes.again (h : Becomes meaning start body code) :
    Becomes meaning start (.again body) (.again code) := by
  intro s here rest hs hdelivers hroom
  obtain ⟨_, ⟨hbegin⟩, hdelivers⟩ := Input.delivers_cons hdelivers
  obtain ⟨_, hbody, hdelivers⟩ := Input.delivers_append hdelivers
  obtain ⟨_, ⟨hagain⟩, ⟨⟩⟩ := Input.delivers_cons hdelivers
  rw [Code.length_cells_again] at hroom
  have hinside := (builds_begin hs hbegin).append hs (fun _ hu hroom => h hu hbody hroom)
    (by simp; omega)
  exact hinside.back hs .againWord hagain rfl hroom

theorem Becomes.whileLoop (htest : Becomes meaning start test one)
    (hbody : Becomes meaning start body two) :
    Becomes meaning start (.whileLoop test body) (.whileLoop one two) := by
  intro s here rest hs hdelivers hroom
  obtain ⟨_, ⟨hbegin⟩, hdelivers⟩ := Input.delivers_cons hdelivers
  obtain ⟨closing, hdelivers, hclose⟩ := Input.delivers_append hdelivers
  obtain ⟨_, ⟨hrepeat⟩, ⟨⟩⟩ := Input.delivers_cons hclose
  obtain ⟨_, hfirst, hdelivers⟩ := Input.delivers_append hdelivers
  obtain ⟨_, ⟨hwhile⟩, hsecond⟩ := Input.delivers_cons hdelivers
  rw [Code.length_cells_whileLoop] at hroom
  have htested := (builds_begin hs hbegin).append hs (fun _ hu hroom => htest hu hfirst hroom)
    (by simp; omega)
  have hinside := (htested.forward hs .whileWord hwhile rfl (by simp; omega)).append hs
    (fun _ hu hroom => hbody hu hsecond hroom) (by simp; omega)
  let before := one.cells ++ [.reference standardKernel.zeroBranch]
  have hlength : before.length = one.cells.length + 1 := by simp [before]
  have hpending : s.Builds here (before ++ .literal (.int 0) :: two.cells)
      ((s.parameters.push (.int here)).push (.int (here + Int64.ofNat before.length))) closing := by
    rw [hlength]
    simpa [Code.jump, before, Stack.push] using hinside
  have hcells : (Code.whileLoop one two).cells =
      before ++ .literal (.int (Int64.ofNat (two.cells.length + 3))) ::
        (two.cells ++ Code.jump standardKernel.branch
          (-Int64.ofNat (before.length + two.cells.length + 2))) := by
    have hdistance : one.cells.length + two.cells.length + 3 =
        before.length + two.cells.length + 2 := by omega
    rw [Code.cells, hdistance]
    simp [Code.jump, before]
  rw [hcells]
  exact hpending.repeatWord hs hrepeat (by omega)

/-- A program becomes its code. -/
theorem becomes_of_translates {program : Program}
    (h : Translates meaning start program code) : Becomes meaning start program code := by
  induction h with
  | skip =>
      intro s here rest hs hdelivers _
      cases hdelivers
      exact hs.builds_nil
  | seq _ _ ihfirst ihsecond =>
      intro s here rest hs hdelivers hroom
      obtain ⟨middle, hfirst, hsecond⟩ := Input.delivers_append hdelivers
      rw [Code.length_cells_seq] at hroom
      exact (ihfirst hs hfirst (by omega)).append hs
        (fun _ hu hroom => ihsecond hu hsecond hroom) (by omega)
  | literal hmeaning =>
      intro s here rest hs hdelivers hroom
      obtain ⟨_, ⟨hread⟩, ⟨⟩⟩ := Input.delivers_cons hdelivers
      exact compiles_literal hs.toIsCompiling hread ((hs.meaning _).trans hmeaning) hroom
  | word hmeaning himmediate =>
      intro s here rest hs hdelivers hroom
      obtain ⟨_, ⟨hread⟩, ⟨⟩⟩ := Input.delivers_cons hdelivers
      exact compiles_word hs.toIsCompiling hread ((hs.meaning _).trans hmeaning) himmediate hroom
  | recurse =>
      intro s here rest hs hdelivers hroom
      obtain ⟨_, ⟨hread⟩, ⟨⟩⟩ := Input.delivers_cons hdelivers
      exact compiles_recurse hs hread hroom
  | ifThen _ ih => exact ih.ifThen
  | ifElse _ _ ihyes ihno => exact ihyes.ifElse ihno
  | untilLoop _ ih => exact ih.untilLoop
  | whileLoop _ _ ihtest ihbody => exact ihtest.whileLoop ihbody
  | again _ ih => exact ih.again

end Program

end Building

/-! ## The definition -/

/-- Opening a definition keeps the prelude. -/
theorem Memory.keeps_opened (memory : Memory) (here : Address) :
    memory.Keeps (memory.opened here) := by
  intro address hfour _
  have hne : ∀ other : Address, other.toInt < 4 → other ≠ address := by
    rintro other hother rfl
    omega
  exact Memory.get_opened (hne _ (by decide)) (hne _ (by decide))

section Defining

variable {m : Machine} {here : Address} {name source : String} {memory : Memory}

/-- After `:` the words of control can be used. -/
theorem isBuilding_opened (hm : m.IsReady .standard here) (habove : ControlWord.past ≤ here.toInt)
    (hdefinitions : m.state.memory.HasControl) (hwords : m.state.dictionary.HasControl)
    (hrecurse : m.state.dictionary.Resolves "RECURSE" (kernelAddress "RECURSE") true)
    (hroom : here.toInt < Int64.maxValue.toInt)
    (hextends : (m.state.memory.opened here).Extends memory here [.native standardKernel.docol])
    (name source : String) (opened : Input) :
    State.IsBuilding { m.prompted standardKernel source with
      memory, dictionary := m.state.dictionary.define name here false true, input := opened }
      m.state.classify here (here + 1) := by
  have hcompiling := isCompiling_opened (hm.atPrompt source) hm.kernel hm.low hroom hextends
    (m.state.dictionary.define name here false true) opened
  have hkeeps : m.state.memory.Keeps memory :=
    (Memory.keeps_opened _ _).trans (hextends.keeps habove)
  refine ⟨hcompiling, fun token => ?_, hextends.latest hm.four_le, hkeeps.hasControl hdefinitions,
    fun word => (hwords word).define_hidden name here, hrecurse.define_hidden name here, ?_⟩
  · exact classify_congr (Dictionary.findVisible?_define_hidden ..) (hextends.base hm.four_le)
  · rw [Address.toInt_add_one hroom]
    omega

/-- A definition whose body is a program becomes the definition of its code. -/
theorem interprets_program (hm : m.IsReady .standard here) (habove : ControlWord.past ≤ here.toInt)
    (hdefinitions : m.state.memory.HasControl) (hwords : m.state.dictionary.HasControl)
    {immediate : Bool} (hcolon : m.state.dictionary.Resolves ":" (kernelAddress ":") immediate)
    (hsemicolon : m.state.dictionary.Resolves ";" (kernelAddress ";") true)
    (hrecurse : m.state.dictionary.Resolves "RECURSE" (kernelAddress "RECURSE") true)
    {program : Program} {code : Code}
    (htranslates : Program.Translates m.state.classify here program code)
    (hroom : here.toInt + (code.cells.length + 2) ≤ Int64.maxValue.toInt)
    (hsource : Spells (.token ":" :: .token name :: program.items ++ [.token ";"]) source.toList) :
    ∃ after, m.Interprets source after ∧ m.Defines after .standard name here code.definition := by
  have hone : (here + 1).toInt = here.toInt + 1 := Address.toInt_add_one (by omega)
  refine hm.interprets_definition hcolon hsemicolon hroom hsource
    fun memory opened closed hitems hextends => ?_
  have hbuilding := isBuilding_opened hm habove hdefinitions hwords hrecurse (by omega) hextends
    name source opened
  exact Program.becomes_of_translates htranslates hbuilding hitems (by omega)

end Defining

end ThreadedForth
