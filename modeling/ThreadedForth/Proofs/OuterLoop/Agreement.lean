import ThreadedForth.Proofs.Machine.Executing
import ThreadedForth.Proofs.OuterLoop.Executing
import ThreadedForth.Proofs.OuterLoop.Items

/-!
# Compiling agrees with interpreting

Items can be interpreted directly, or they can be made a definition that is executed afterwards.  On
the first way the outer loop reads them one by one, on the second way it is `DOCOL`, `LIT` and
`EXIT` that walk through their code; and in the end there is no difference.

## Strategy

* **The code decides.**  By `interprets_items` what becomes of the items is what becomes of their
  code, and whether it ends or stops at a word is known before the definition is executed.
* **The same desk.**  The definition is executed at a prompt where the parameters and the output are
  still those of the machine before the definition, so the code is run on the same desk.
* **The same radix.**  A definition does not touch `BASE`.

The name of the definition may be that of a word among the items.  While the definition is in
progress the name is hidden, and afterwards its code has addresses and no names.
-/

namespace ThreadedForth

open Effect

namespace Code

/-- One piece of code in a sequence, and those before it. -/
theorem holds_sequence {memory : Memory} {a : Address} {codes : List Code} {n : Nat} {code : Code}
    (hcells : memory.Holds a (sequence codes).cells) (hcode : codes[n]? = some code) :
    memory.Holds a (sequence (codes.take n)).cells ∧
      memory.Holds (a + Int64.ofNat (sequence (codes.take n)).cells.length) code.cells := by
  obtain ⟨hn, rfl⟩ := List.getElem?_eq_some_iff.mp hcode
  have hsplit : (sequence codes).cells = (sequence (codes.take n)).cells ++
      (codes[n].cells ++ (sequence (codes.drop (n + 1))).cells) := by
    simp only [cells_sequence]
    rw [← List.flatMap_cons, ← List.flatMap_append, List.getElem_cons_drop, List.take_append_drop]
  rw [hsplit] at hcells
  obtain ⟨hbefore, hafter⟩ := Memory.holds_append.mp hcells
  exact ⟨hbefore, (Memory.holds_append.mp hafter).1⟩

end Code

section Executing

variable {s : State} {base : Cell} {token : String} {rest : Input} {entry : Entry}

/-! ## A definition that is executed at the prompt -/

theorem State.IsInterpreting.contains (hs : s.IsInterpreting base) :
    s.memory.Contains (fun _ => none) base :=
  ⟨hs.memory.toHasPrimitives, hs.base, fun _ _ h => by cases h⟩

/-- Its code begins on the desk that there is. -/
theorem State.IsInterpreting.reaches_begun (hs : s.IsInterpreting base)
    (hread : s.input.readToken = (some token, rest))
    (hfind : s.dictionary.findVisible? token = some entry)
    (hcell : s.memory.get entry.address = .native standardKernel.docol) :
    Reaches standardTable s
      ((s.begun standardKernel rest).working (entry.address + 1) s.nip s.desk) := by
  have hbegun := ThreadedForth.reaches_begun hs.toAtPrompt hread hfind hs.mode (.inl rfl) hcell
  rw [State.working, State.desk, State.begun, ← hs.sink]
  exact hbegun

theorem State.IsInterpreting.inCode_begun (hs : s.IsInterpreting base) (input : Input) :
    (s.begun standardKernel input).InCode .standard :=
  ⟨Nat.succ_ne_zero _, hs.halt, hs.memory.toHasPrimitives⟩

/-- If its code ends, then so does the definition, and the machine is at the prompt again. -/
theorem reaches_executed_definition (hs : s.IsInterpreting base)
    (hread : s.input.readToken = (some token, rest))
    (hfind : s.dictionary.findVisible? token = some entry) {code : Code} {after : Desk}
    (hholds : s.memory.Holds entry.address code.definition)
    (hruns : Runs (fun _ => none) base code s.desk .done after) :
    Reaches standardTable s (s.served rest after) := by
  obtain ⟨hdocol, hcells⟩ := hholds
  obtain ⟨hinside, hexit, -⟩ := Memory.holds_append.mp hcells
  have hcode := hs.inCode_begun rest
  have hdepth : 1 < s.depth + 1 := Nat.succ_lt_succ (Nat.pos_of_ne_zero hs.depth)
  have hbegun := hs.reaches_begun hread hfind hdocol
  obtain ⟨nip, hend⟩ := performs_of_runs hruns hcode hs.contains hinside
  have hback := reaches_prompted_of_exit
    (hcode.working (entry.address + 1 + Int64.ofNat code.cells.length) nip after) hs.memory hexit
    rfl hdepth
  rw [State.prompted, ← hs.ip, ← hs.nip] at hback
  exact (hbegun.trans hend).trans hback

/-- If its code stops at a word, then so does the definition, at the cell of that word. -/
theorem fails_executed_definition (hs : s.IsInterpreting base)
    (hread : s.input.readToken = (some token, rest))
    (hfind : s.dictionary.findVisible? token = some entry) {codes : List Code} {n : Nat}
    {stopped : Desk} {position : Nat} {cause : Cause}
    (hholds : s.memory.Holds entry.address (Code.sequence codes).definition)
    (hstops : Code.StopsAt base codes n s.desk stopped position cause) :
    ∃ t, Reaches standardTable s t ∧ Fails standardTable t cause ∧
      t.parameters = stopped.parameters ∧
      t.output = ⟨stopped.text, none⟩ ∧ t.ip = primitiveAddress position ∧
      t.nip = entry.address + 1 +
        Int64.ofNat (Code.sequence (codes.take n)).cells.length + 1 := by
  obtain ⟨hdocol, hcells⟩ := hholds
  obtain ⟨hinside, -⟩ := Memory.holds_append.mp hcells
  obtain ⟨hbefore, hcell⟩ := Code.holds_sequence hinside hstops.piece
  obtain ⟨word, hword, hcomputing, halone⟩ := hstops.word
  obtain ⟨-, hlocal⟩ := computes_of_mem_computingWords hcomputing
  have hcode := hs.inCode_begun rest
  obtain ⟨nip, hend⟩ := performs_of_runs hstops.before hcode hs.contains hbefore
  let a := entry.address + 1 + Int64.ofNat (Code.sequence (codes.take n)).cells.length
  have heffect := hlocal.apply_error
    (s := ((s.begun standardKernel rest).working a nip stopped).called (primitiveAddress position))
      hs.base rfl
    halone
  obtain ⟨hcalled, hfails⟩ :=
    reaches_call_error (hcode.working a nip stopped) hword hcell.1 heffect
  have hbegun := hs.reaches_begun hread hfind hdocol
  exact ⟨_, (hbegun.trans hend).trans hcalled, hfails, rfl, rfl, rfl, rfl⟩

end Executing

/-! ## The body of the definition -/

theorem Dictionary.Quotes.define_hidden {dictionary : Dictionary} (h : dictionary.Quotes)
    (name : String) (address : Address) : (dictionary.define name address false true).Quotes :=
  ⟨h.print.define_hidden name address, h.string.define_hidden name address⟩

section Defining

variable {m defined : Machine} {here : Address} {name source : String} {cells : List Cell}
variable {items : List Item} {codes : List Code}

/-- The items are compiled although the name of the definition hides among them. -/
theorem compiles_body (hm : m.IsReady .standard here) (hquotes : m.state.dictionary.Quotes)
    (hmeans : List.Forall₂ m.state.Means items codes)
    (hroom : here.toInt + ((Code.sequence codes).cells.length + 2) ≤ Int64.maxValue.toInt)
    {memory : Memory}
    (hextends : (m.state.memory.opened here).Extends memory here [.native standardKernel.docol])
    {opened closed : Input} (hitems : opened.Delivers items closed) :
    State.Compiles { m.prompted standardKernel source with
      memory, dictionary := m.state.dictionary.define name here false true, input := opened }
      standardTable (here + 1) (Code.sequence codes).cells closed := by
  have hcompiling := isCompiling_opened (hm.atPrompt source) hm.kernel hm.low (by omega) hextends
    (m.state.dictionary.define name here false true) opened
  have hfind (other : String) :
      (m.state.dictionary.define name here false true).findVisible? other =
        m.state.dictionary.findVisible? other :=
    Dictionary.findVisible?_define_hidden ..
  have hone : (here + 1).toInt = here.toInt + 1 := Address.toInt_add_one (by omega)
  exact compiles_items hcompiling (hquotes.define_hidden name here)
    (State.Means.congr_all hmeans hfind (hextends.base hm.four_le)) hitems (by omega)

/-- The name has its new meaning. -/
theorem Machine.Defines.findVisible? (h : m.Defines defined .standard name here cells) :
    defined.state.dictionary.findVisible? name =
      some ⟨Dictionary.fold name, here, false, false⟩ := by
  rw [Dictionary.findVisible?, h.dictionary, if_pos rfl]
  rfl

theorem Machine.Defines.base (h : m.Defines defined .standard name here cells)
    (hlow : 4 ≤ here.toInt) :
    defined.state.memory.get Variable.base.address = m.state.memory.get Variable.base.address :=
  h.memory.same _ (by decide) (by decide) (by decide) (.inl (Int.lt_of_lt_of_le (by decide) hlow))

end Defining

/-! ## The theorem -/

/-- **Compiling and then running agrees with interpreting.**  Let a machine be ready for source, and
let there be items each of which is a literal, a word of the library that only computes, or a
quotation.

Then they can be made a definition of any name.  If the machine interprets the items to their end,
then the machine with the definition, given the name of the definition, ends with the same
parameters, the same returns and the same text.  If instead a first item fails, then the definition
fails at the cell of that item for the same reason, with the same parameters and the same text. -/
theorem compiling_agrees_with_interpreting {m : Machine} {here : Address}
    (hm : m.IsReady .standard here)
    {immediate : Bool} (hcolon : m.state.dictionary.Resolves ":" (kernelAddress ":") immediate)
    (hsemicolon : m.state.dictionary.Resolves ";" (kernelAddress ";") true)
    (hquotes : m.state.dictionary.Quotes) (hsink : m.state.output.allowance = none)
    {items : List Item} {codes : List Code}
    (hmeans : List.Forall₂ m.state.Means items codes)
    (hroom : here.toInt + ((Code.sequence codes).cells.length + 2) ≤ Int64.maxValue.toInt)
    {name direct defining calling : String} (hdirect : Spells items direct.toList)
    (hdefining : Spells (.token ":" :: .token name :: items ++ [.token ";"]) defining.toList)
    (hcalling : Spells [.token name] calling.toList) :
    ∃ defined, m.Interprets defining defined ∧
      m.Defines defined .standard name here (Code.sequence codes).definition ∧
      ((∃ interpreted called,
          m.Interprets direct interpreted ∧ defined.Interprets calling called ∧
          called.state.parameters = interpreted.state.parameters ∧
          called.state.returns = interpreted.state.returns ∧
          called.state.output.text = interpreted.state.output.text ∧
          interpreted.recovered = m.recovered ∧ called.recovered = m.recovered) ∨
        ∃ n cause s t, n < items.length ∧
          m.FirstFails direct s cause ∧ defined.FirstFails calling t cause ∧
          t.parameters = s.parameters ∧ t.output.text = s.output.text ∧
          (∃ rest last, s.input.Delivers (items.drop (n + 1)) rest ∧
            rest.readToken = (none, last)) ∧
          t.ip = s.ip ∧ t.nip = here + 1 +
            Int64.ofNat (Code.sequence (codes.take n)).cells.length + 1) := by
  let base := m.state.memory.get Variable.base.address
  -- the definition
  obtain ⟨defined, hdefined, hdefines⟩ := hm.interprets_definition hcolon hsemicolon hroom hdefining
    fun memory opened closed hitems hextends =>
      compiles_body hm hquotes hmeans hroom hextends hitems
  refine ⟨defined, hdefined, hdefines, ?_⟩
  -- the two prompts have the same desk
  have hs : (m.prompted standardKernel direct).IsInterpreting base :=
    ⟨hm.atPrompt direct, hm.mode, rfl, hsink⟩
  have ht : (defined.prompted standardKernel calling).IsInterpreting base :=
    ⟨hdefines.ready.atPrompt calling, hdefines.ready.mode, hdefines.base hm.four_le,
      (congrArg Output.allowance hdefines.output).trans hsink⟩
  have hdesk : (m.prompted standardKernel direct).desk =
      (defined.prompted standardKernel calling).desk := by
    change Desk.mk m.state.parameters m.state.output.text =
      Desk.mk defined.state.parameters defined.state.output.text
    rw [hdefines.parameters, hdefines.output]
  obtain ⟨rest, last, hdelivers, hend⟩ := hdirect.delivers false
  obtain ⟨rest', last', hname, hend'⟩ := hcalling.delivers false
  obtain ⟨_, ⟨hread⟩, ⟨⟩⟩ := Input.delivers_cons hname
  have hholds := hdefines.memory.holds
  have hmeans' : List.Forall₂ (m.prompted standardKernel direct).Means items codes :=
    State.Means.congr_all hmeans (fun _ => rfl) rfl
  rcases interprets_items hs hquotes hmeans' hdelivers with ⟨after, hruns, hreaches⟩ |
    ⟨n, stopped, position, cause, input, hstops, hleft, hreaches, hfails⟩
  · rw [hdesk] at hruns
    have hcalled := reaches_executed_definition ht hread hdefines.findVisible? hholds hruns
    refine .inl ⟨_, _, hm.interprets hreaches (hs.served rest after).toAtPrompt hend,
      hdefines.ready.interprets hcalled (ht.served rest' after).toAtPrompt hend', ?_⟩
    rw [Machine.state_tell, Machine.state_tell, Machine.recovered_tell, Machine.recovered_tell]
    exact ⟨rfl, hdefines.returns, rfl, rfl, hdefines.recovered⟩
  · rw [hdesk] at hstops
    obtain ⟨t, hcalled, hfails', hparameters, houtput, hip, hnip⟩ :=
      fails_executed_definition ht hread hdefines.findVisible? hholds hstops
    have hn : n < items.length := by
      rw [hmeans.length_eq]
      exact (List.getElem?_eq_some_iff.mp hstops.piece).1
    exact .inr ⟨n, cause, _, t, hn, hm.firstFails hreaches hfails,
      hdefines.ready.firstFails hcalled hfails', hparameters, congrArg Output.text houtput,
      ⟨rest, last, hleft, hend⟩, hip, hnip⟩

/-- A word `*` that doubles, by means of the old `*`.  Interpreting the items gives 42, and so does
the word. -/
theorem compiling_agrees_with_interpreting_doubling :
    ∃ m defined interpreted called : Machine, m.state.parameters = ⟨[.int 21]⟩ ∧
      m.Interprets ": * 2 * ; " defined ∧
      m.Interprets "2 * " interpreted ∧ interpreted.state.parameters = ⟨[.int 42]⟩ ∧
      defined.Interprets "* " called ∧ called.state.parameters = ⟨[.int 42]⟩ ∧
      called.state.output.text = interpreted.state.output.text := by
  let m := Machine.waiting ⟨[.int 21]⟩
  have hresolves : ∀ position (h : position < vocabulary.length),
      vocabulary[position].hidden = false → m.state.dictionary.Resolves vocabulary[position].name
        (primitiveAddress position) vocabulary[position].immediate :=
    fun _ => Machine.resolves_waiting _
  have hcolon := hresolves 19 (by decide) rfl
  have hsemicolon := hresolves 20 (by decide) rfl
  have hquotes : m.state.dictionary.Quotes :=
    ⟨hresolves 52 (by decide) rfl, hresolves 53 (by decide) rfl⟩
  have hsink : m.state.output.allowance = none := by decide +kernel
  have htwo : m.state.classify "2" = .ok (.literal (.int 2)) := by
    have hfind : Machine.booted.state.dictionary.findVisible? "2" = none := by decide +kernel
    have hbase : m.state.base = .ok 10 := Machine.base_waiting _
    exact classify_integer hfind hbase (by decide +kernel)
  have htimes : m.state.Means (.token "*") (.word 60) :=
    .word (Machine.findVisible?_booted 60 (by decide) rfl) rfl rfl rfl
      (List.mem_of_getElem? (i := 2) rfl) (by decide)
  have hmeans : List.Forall₂ m.state.Means [.token "2", .token "*"] [.push (.int 2), .word 60] :=
    .cons (.literal htwo) (.cons htimes .nil)
  have hdirect : Spells [.token "2", .token "*"] "2 * ".toList := spells_separated (by decide)
  have hdefining : Spells [.token ":", .token "*", .token "2", .token "*", .token ";"]
      ": * 2 * ; ".toList := spells_separated (by decide)
  have hcalling : Spells [.token "*"] "* ".toList := spells_separated (by decide)
  obtain ⟨defined, hdefined, -, houtcome⟩ :=
    compiling_agrees_with_interpreting (Machine.isReady_waiting _) hcolon hsemicolon hquotes
      hsink hmeans (by decide) hdirect hdefining hcalling
  -- the items are interpreted to their end, so it is the first case
  have hrun : (m.runSource 40 "2 * ").map
      (fun outcome => (outcome.1.toOption, outcome.2.recovered.size, outcome.2.state.parameters)) =
        some (some .endOfInput, 0, ⟨[.int 42]⟩) := by decide +kernel
  obtain ⟨⟨cause | halt, done⟩, hended, hdone⟩ := Option.map_eq_some_iff.mp hrun
  · cases hdone
  injection hdone with hhalt hrest
  injection hrest with hsize hparameters
  obtain rfl : halt = .endOfInput := Option.some.inj hhalt
  have hkernel := (Machine.isReady_waiting ⟨[.int 21]⟩).kernel
  have hinterprets : m.Interprets "2 * " done :=
    Machine.interprets_of_runSource hkernel (by decide +kernel) hended
  have hnone : m.recovered.size = 0 := by decide +kernel
  have hrecovered : done.recovered = m.recovered :=
    (Array.eq_empty_of_size_eq_zero hsize).trans (Array.eq_empty_of_size_eq_zero hnone).symm
  rcases houtcome with ⟨interpreted, called, hdirect, hcalled, hsame, -, htext, -⟩ |
    ⟨_, cause, s, t, -, hfails, -⟩
  · have hstate := (hdirect.unique hinterprets).1
    have hforty : interpreted.state.parameters = ⟨[.int 42]⟩ := hstate ▸ hparameters
    exact ⟨m, defined, interpreted, called, rfl, hdefined, hdirect, hforty, hcalled,
      hsame.trans hforty, htext⟩
  · exact absurd hfails (hinterprets.not_firstFails hkernel hrecovered)

end ThreadedForth
