import Mathlib.Data.List.Forall2
import ThreadedForth.Proofs.OuterLoop.Evaluating
import ThreadedForth.Proofs.Structured.Calls

/-!
# Items and their code

An item that is interpreted acts at once, and an item that is compiled becomes code that acts later.
The two ways have nothing in common but the meaning of the item, and `Means` says which code that
is.  What is proved here of each way, first for one item and then for a list of them, is what the
code does by itself.

Neither way depends on the other, so nothing is said here about the state in which an item is
interpreted and the one in which its code is run being alike.
-/

namespace ThreadedForth

open Effect

/-- One piece of code after the other. -/
def Code.sequence (codes : List Code) : Code := codes.foldr .seq .skip

theorem Code.cells_sequence (codes : List Code) :
    (sequence codes).cells = codes.flatMap cells := by
  induction codes with
  | nil => rfl
  | cons code codes ih =>
      rw [List.flatMap_cons, ← ih]
      rfl

/-- The code that an item is compiled to, if it is a literal, a word of the library that only
computes, or a quotation. -/
inductive State.Means (s : State) : Item → Code → Prop
  | literal {token v} (hmeaning : s.classify token = .ok (.literal v)) :
      s.Means (.token token) (.push v)
  | word {token entry position word} (hfind : s.dictionary.findVisible? token = some entry)
      (himmediate : entry.immediate = false) (haddress : entry.address = primitiveAddress position)
      (hword : vocabulary[position]? = some word) (hlibrary : word ∈ libraryWords)
      (hname : word.name ≠ "+!") : s.Means (.token token) (.word position)
  | string {text} : s.Means (.string text) (.push (.string text))
  | print {text} : s.Means (.print text) (.seq (.push (.string text)) (.word 51))

/-- The words that begin quotations are those of the kernel. -/
structure Dictionary.Quotes (dictionary : Dictionary) : Prop where
  print : dictionary.Resolves ".\"" (kernelAddress ".\"") true
  string : dictionary.Resolves "S\"" (kernelAddress "S\"") true

/-- At one of the pieces of code a word fails, with that desk before it. -/
structure Code.StopsAt (base : Cell) (codes : List Code) (n : Nat) (start stopped : Desk)
    (position : Nat) (cause : Cause) : Prop where
  piece : codes[n]? = some (.word position)
  before : Runs (fun _ => none) base (sequence (codes.take n)) start .done stopped
  word : ∃ word, vocabulary[position]? = some word ∧ word ∈ computingWords ∧
    word.effect.alone base stopped.parameters = .error cause

section Items

variable {s t : State} {here : Address} {base : Cell} {item : Item} {code : Code} {rest : Input}
variable {items : List Item} {codes : List Code}

/-! ## Meaning -/

theorem mem_computingWords_of_library {word : Primitive} (h : word ∈ libraryWords)
    (hname : word.name ≠ "+!") : word ∈ computingWords :=
  List.mem_append.mpr (.inr (List.mem_filter.mpr ⟨h, by simpa using hname⟩))

/-- What items mean depends on what names mean and on the radix. -/
theorem State.Means.congr (h : s.Means item code)
    (hfind : ∀ name, t.dictionary.findVisible? name = s.dictionary.findVisible? name)
    (hbase : t.memory.get Variable.base.address = s.memory.get Variable.base.address) :
    t.Means item code := by
  cases h with
  | literal hmeaning => exact .literal ((classify_congr (hfind _) hbase).trans hmeaning)
  | word hfind' himmediate haddress hword hlibrary hname =>
      exact .word ((hfind _).trans hfind') himmediate haddress hword hlibrary hname
  | string => exact .string
  | print => exact .print

theorem State.Means.congr_all (h : List.Forall₂ s.Means items codes)
    (hfind : ∀ name, t.dictionary.findVisible? name = s.dictionary.findVisible? name)
    (hbase : t.memory.get Variable.base.address = s.memory.get Variable.base.address) :
    List.Forall₂ t.Means items codes :=
  h.imp fun _ _ hmeans => hmeans.congr hfind hbase

/-- Code that pushes a text and types it writes the text. -/
theorem runs_print (definitions : Address → Option Code) (base : Cell) (text : String)
    (desk : Desk) :
    Runs definitions base (.seq (.push (.string text)) (.word 51)) desk .done
      { desk with text := desk.text ++ text } := by
  have hkernel : kernelWords[51]? = some { name := "TYPE", effect := Words.type } := rfl
  have hmem : { name := "TYPE", effect := Words.type } ∈ computingWords :=
    List.mem_append.mpr (.inl (List.mem_filter.mpr ⟨List.mem_of_getElem? hkernel, rfl⟩))
  have halone : Words.type.alone base (desk.parameters.push (.string text)) =
      .ok (desk.parameters, "" ++ text) := rfl
  rw [String.empty_append] at halone
  have hword : vocabulary[51]? = some { name := "TYPE", effect := Words.type } := rfl
  exact .seq .push (.word hword hmem halone)

/-! ## Interpreting -/

theorem stringQuote_ok {text : String} (htext : s.input.readText '"' = (some text, rest))
    (hmode : s.mode = .ok .interpret) :
    Words.stringQuote s =
      .ok () { s with input := rest, parameters := s.parameters.push (.string text) } := by
  have hmode' : State.mode { s with input := rest } = .ok .interpret := hmode
  rw [Words.stringQuote, bind_ok (quotedText_ok htext), bind_ok (examine_ok hmode')]
  rfl

theorem dotQuote_ok {text : String} (htext : s.input.readText '"' = (some text, rest))
    (hmode : s.mode = .ok .interpret) (hsink : s.output.allowance = none) :
    Words.dotQuote s =
      .ok () { s with input := rest, output := ⟨s.output.text ++ text, none⟩ } := by
  have hmode' : State.mode { s with input := rest } = .ok .interpret := hmode
  have hwrite : s.output.write text = .ok ⟨s.output.text ++ text, none⟩ := by
    rw [Output.write, hsink]
    rfl
  rw [Words.dotQuote, bind_ok (quotedText_ok htext), bind_ok (examine_ok hmode')]
  change Effect.write text _ = _
  rw [Effect.write, get_bind, bind_ok (lift_ok hwrite)]
  rfl

/-- What interpreting leaves of a state: the rest of the input, and a desk. -/
abbrev State.served (s : State) (input : Input) (desk : Desk) : State :=
  { s with input, parameters := desk.parameters, output := ⟨desk.text, none⟩ }

/-- The state in which a primitive is about to be executed that was read. -/
abbrev State.jumped (s : State) (input : Input) (position : Nat) : State :=
  { s with input, ip := primitiveAddress position }

/-- The prompt at which items can be interpreted. -/
structure State.IsInterpreting (s : State) (base : Cell) : Prop extends s.AtPrompt .standard where
  mode : s.mode = .ok .interpret
  base : s.memory.get Variable.base.address = base
  sink : s.output.allowance = none

theorem State.IsInterpreting.served (hs : s.IsInterpreting base) (input : Input) (desk : Desk) :
    (s.served input desk).IsInterpreting base :=
  ⟨⟨⟨hs.ip, hs.nip, hs.depth, hs.halt⟩, hs.memory⟩, hs.mode, hs.base, rfl⟩

theorem State.IsInterpreting.served_desk (hs : s.IsInterpreting base) (input : Input) :
    s.served input s.desk = { s with input } := by
  rw [State.served, State.desk, ← hs.sink]

/-- A primitive that is executed at the prompt and that only changes the desk. -/
theorem reaches_served (hs : s.IsInterpreting base) {token : String} {middle : Input}
    (hread : s.input.readToken = (some token, middle)) {entry : Entry}
    (hfind : s.dictionary.findVisible? token = some entry) {position : Nat} {word : Primitive}
    (haddress : entry.address = primitiveAddress position)
    (hword : vocabulary[position]? = some word) (hcontrol : word.control = .advance) {after : Desk}
    (heffect : word.effect { s with input := middle, ip := entry.address } =
      .ok () { s.served rest after with ip := entry.address }) :
    Reaches standardTable s (s.served rest after) := by
  have hback := reaches_executed hs.toAtPrompt hread hfind hs.mode (.inl rfl) haddress hword
    hcontrol heffect rfl rfl hs.halt hs.memory
  rw [State.prompted, ← hs.ip, ← hs.nip] at hback
  exact hback

/-- A word that only computes does so, or it fails before it changes anything. -/
theorem interprets_word (hs : s.IsInterpreting base) {token : String}
    (hread : s.input.readToken = (some token, rest)) {entry : Entry}
    (hfind : s.dictionary.findVisible? token = some entry) {position : Nat} {word : Primitive}
    (haddress : entry.address = primitiveAddress position)
    (hword : vocabulary[position]? = some word) (hcomputing : word ∈ computingWords) :
    (∃ parameters text, word.effect.alone base s.parameters = .ok (parameters, text) ∧
      Reaches standardTable s (s.served rest ⟨parameters, s.output.text ++ text⟩)) ∨
    ∃ cause, word.effect.alone base s.parameters = .error cause ∧
      Reaches standardTable s (s.jumped rest position) ∧
        Fails standardTable (s.jumped rest position) cause := by
  obtain ⟨hcontrol, hlocal⟩ := computes_of_mem_computingWords hcomputing
  rcases halone : word.effect.alone base s.parameters with cause | ⟨parameters, text⟩
  · refine .inr ⟨cause, rfl, ?_, ?_⟩
    · have hjump := quiet_jump hs.toAtPrompt hread hfind hs.mode (.inl rfl)
      rw [haddress] at hjump
      exact .single hjump
    · have heffect := hlocal.apply_error (s := s.jumped rest position) hs.base hs.sink halone
      have hcell := hs.memory.primitive position (Outfit.lt_length (w := .standard) hword)
      obtain ⟨context, hstep⟩ := step_native_error (s := s.jumped rest position) hcell
        (Outfit.standard.lookup _ _ hword) heffect
      exact ⟨_, hstep⟩
  · have heffect := hlocal.apply_ok (s := { s with input := rest, ip := entry.address })
      hs.base hs.sink halone
    exact .inl ⟨parameters, text, rfl,
      reaches_served hs hread hfind haddress hword hcontrol heffect⟩

/-- A literal is pushed, and the output is as it was. -/
theorem interprets_literal (hs : s.IsInterpreting base) {token : String}
    (hread : s.input.readToken = (some token, rest)) {v : Value}
    (hmeaning : s.classify token = .ok (.literal v)) :
    Reaches standardTable s (s.served rest ⟨s.parameters.push v, s.output.text⟩) := by
  have hsame : (⟨s.output.text, none⟩ : Output) = s.output := by rw [← hs.sink]
  rw [State.served, hsame]
  exact reaches_literal hs.toAtPrompt hread hs.mode hmeaning

/-- An item that is interpreted does what its code does, or it is a word that fails. -/
theorem interprets_item (hs : s.IsInterpreting base) (hquotes : s.dictionary.Quotes)
    (hmeans : s.Means item code) (hnext : item.IsNext s.input rest) :
    (∃ after, Runs (fun _ => none) base code s.desk .done after ∧
      Reaches standardTable s (s.served rest after)) ∨
    ∃ position word cause, code = .word position ∧ vocabulary[position]? = some word ∧
      word ∈ computingWords ∧ word.effect.alone base s.parameters = .error cause ∧
      Reaches standardTable s (s.jumped rest position) ∧
        Fails standardTable (s.jumped rest position) cause := by
  cases hmeans with
  | @literal token v hmeaning =>
      cases hnext with
      | token hread => exact .inl ⟨_, .push, interprets_literal hs hread hmeaning⟩
  | @word token entry position word hfind _ haddress hword hlibrary hname =>
      cases hnext with
      | token hread =>
          have hcomputing := mem_computingWords_of_library hlibrary hname
          rcases interprets_word hs hread hfind haddress hword hcomputing with
            ⟨parameters, text, halone, hreaches⟩ | ⟨cause, halone, hreaches, hfails⟩
          · exact .inl ⟨_, .word hword hcomputing halone, hreaches⟩
          · exact .inr ⟨position, word, cause, rfl, hword, hcomputing, halone, hreaches, hfails⟩
  | @string text =>
      cases hnext with
      | @string _ _ middle _ hread htext =>
          obtain ⟨entry, hfind, haddress, -⟩ := hquotes.string
          have hword : vocabulary[53]? =
            some { name := "S\"", immediate := true, effect := Words.stringQuote } := rfl
          have heffect := stringQuote_ok (s := { s with input := middle, ip := entry.address })
            htext hs.mode
          have hsame : (⟨s.output.text, none⟩ : Output) = s.output := by rw [← hs.sink]
          refine .inl ⟨_, .push, reaches_served hs hread hfind haddress hword rfl ?_⟩
          rw [State.served, State.desk, hsame]
          exact heffect
  | @print text =>
      cases hnext with
      | @print _ _ middle _ hread htext =>
          obtain ⟨entry, hfind, haddress, -⟩ := hquotes.print
          have hword : vocabulary[52]? =
            some { name := ".\"", immediate := true, effect := Words.dotQuote } := rfl
          have heffect := dotQuote_ok (s := { s with input := middle, ip := entry.address })
            htext hs.mode hs.sink
          exact .inl ⟨_, runs_print _ _ _ _,
            reaches_served hs hread hfind haddress hword rfl heffect⟩

/-- Items that are interpreted do what their code does one after the other, up to the first one that
fails. -/
theorem interprets_items (hs : s.IsInterpreting base) (hquotes : s.dictionary.Quotes)
    (hmeans : List.Forall₂ s.Means items codes) (hdelivers : s.input.Delivers items rest) :
    (∃ after, Runs (fun _ => none) base (.sequence codes) s.desk .done after ∧
      Reaches standardTable s (s.served rest after)) ∨
    ∃ n stopped position cause input, Code.StopsAt base codes n s.desk stopped position cause ∧
      input.Delivers (items.drop (n + 1)) rest ∧
      Reaches standardTable s ((s.served input stopped).jumped input position) ∧
      Fails standardTable ((s.served input stopped).jumped input position) cause := by
  induction items generalizing s codes with
  | nil =>
      cases hmeans
      cases hdelivers
      refine .inl ⟨_, .skip, ?_⟩
      rw [hs.served_desk]
      exact .refl _
  | cons item items ih =>
      obtain ⟨code, codes, hitem, hmore, rfl⟩ := List.forall₂_cons_left_iff.mp hmeans
      obtain ⟨middle, hnext, hdelivers⟩ := Input.delivers_cons hdelivers
      rcases interprets_item hs hquotes hitem hnext with ⟨after, hruns, hreaches⟩ |
        ⟨position, word, cause, rfl, hword, hcomputing, halone, hreaches, hfails⟩
      · have hlater := State.Means.congr_all (t := s.served middle after) hmore (fun _ => rfl) rfl
        rcases ih (hs.served middle after) hquotes hlater hdelivers with
          ⟨after', hruns', hreaches'⟩ |
          ⟨n, stopped, position, cause, input, hstops, hleft, hreaches', hfails⟩
        · exact .inl ⟨after', .seq hruns hruns', hreaches.trans hreaches'⟩
        · exact .inr ⟨n + 1, stopped, position, cause, input,
            ⟨hstops.piece, .seq hruns hstops.before, hstops.word⟩, hleft,
            hreaches.trans hreaches', hfails⟩
      · refine .inr ⟨0, s.desk, position, cause, middle,
          ⟨rfl, .skip, word, hword, hcomputing, halone⟩, hdelivers, ?_⟩
        rw [hs.served_desk]
        exact ⟨hreaches, hfails⟩

/-! ## Compiling -/

theorem stringQuote_compiles {w : Outfit} {text : String} (hkernel : s.kernel? = some w.kernel)
    (hmode : s.mode = .ok .compile) (htext : s.input.readText '"' = (some text, rest))
    (hhere : s.memory.get Variable.here.address = .literal (.int here)) (hlow : 0 < here.toInt)
    (hroom : here.toInt + 2 ≤ Int64.maxValue.toInt) :
    ∃ memory, s.memory.Extends memory here
        [.reference (kernelAddress "LIT"), .literal (.string text)] ∧
      Words.stringQuote s = .ok () { s with memory, input := rest } := by
  have hmode' : State.mode { s with input := rest } = .ok .compile := hmode
  obtain ⟨memory, hextends, hcompile⟩ := compilePush_extends (s := { s with input := rest })
    (v := .string text) hkernel hhere hlow hroom
  refine ⟨memory, hextends, ?_⟩
  rw [Words.stringQuote, bind_ok (quotedText_ok htext), bind_ok (examine_ok hmode')]
  exact hcompile

theorem dotQuote_compiles {text : String} (hkernel : s.kernel? = some standardKernel)
    (hmode : s.mode = .ok .compile) (htext : s.input.readText '"' = (some text, rest))
    (hhere : s.memory.get Variable.here.address = .literal (.int here)) (hlow : 0 < here.toInt)
    (hroom : here.toInt + 3 ≤ Int64.maxValue.toInt) :
    ∃ memory,
      s.memory.Extends memory here (Code.seq (.push (.string text)) (.word 51)).cells ∧
      Words.dotQuote s = .ok () { s with memory, input := rest } := by
  have hmode' : State.mode { s with input := rest } = .ok .compile := hmode
  have htwo : (here + Int64.ofNat (Code.push (.string text)).cells.length).toInt =
      here.toInt + 2 := Address.toInt_add_ofNat (n := 2) (by omega)
  obtain ⟨middle, hfirst, hpush⟩ := compilePush_extends (s := { s with input := rest })
    (v := .string text) hkernel hhere hlow (by omega)
  have hread : State.kernel { s with input := rest, memory := middle } = .ok standardKernel := by
    rw [State.kernel, hkernel]
  obtain ⟨memory, hsecond, hcompile⟩ := compile_extends
    (s := { s with input := rest, memory := middle }) (.reference standardKernel.type) hfirst.next
    (by rw [Code.cells] at htwo; omega) (by rw [Code.cells] at htwo; omega)
  refine ⟨memory, hfirst.trans hsecond hlow hroom, ?_⟩
  rw [Words.dotQuote, bind_ok (quotedText_ok htext), bind_ok (examine_ok hmode')]
  change (examine State.kernel >>= fun kernel => compilePush (.string text) >>= fun _ =>
    Functor.discard (compile (.reference kernel.type))) _ = _
  have hread' : State.kernel { s with input := rest } = .ok standardKernel := by
    rw [State.kernel, hkernel]
  rw [bind_ok (examine_ok hread'), bind_ok hpush]
  exact discard_ok hcompile

/-- A quotation is compiled as the literal that it quotes. -/
theorem compiles_string {w : Outfit} (hs : s.IsCompiling w here)
    (hquote : s.dictionary.Resolves "S\"" (kernelAddress "S\"") true) {text : String}
    (hnext : (Item.string text).IsNext s.input rest)
    (hroom : here.toInt + 2 ≤ Int64.maxValue.toInt) :
    s.Compiles w.table here [.reference (kernelAddress "LIT"), .literal (.string text)] rest := by
  have hfour := hs.four_le
  cases hnext with
  | @string _ _ middle _ hread htext =>
      obtain ⟨entry, hfind, haddress, himmediate⟩ := hquote
      have hword : w.words[53]? =
        some { name := "S\"", immediate := true, effect := Words.stringQuote } :=
          w.getElem?_words rfl
      obtain ⟨memory, hextends, heffect⟩ := stringQuote_compiles
        (s := { s with input := middle, ip := entry.address }) hs.kernel hs.mode htext hs.next
        (by omega) hroom
      exact compiles_of_effect hs hread hfind himmediate haddress hword rfl hextends heffect hroom

/-- An item that is compiled becomes its code. -/
theorem compiles_item (hs : s.IsCompiling .standard here) (hquotes : s.dictionary.Quotes)
    (hmeans : s.Means item code) (hnext : item.IsNext s.input rest)
    (hroom : here.toInt + code.cells.length ≤ Int64.maxValue.toInt) :
    s.Compiles standardTable here code.cells rest := by
  have hlow : 219 ≤ here.toInt := hs.low
  cases hmeans with
  | literal hmeaning =>
      cases hnext with
      | token hread => exact compiles_literal hs hread hmeaning hroom
  | @word token entry _ _ hfind himmediate haddress _ _ _ =>
      cases hnext with
      | token hread =>
          rw [Code.cells, ← haddress]
          exact compiles_word hs hread (classify_word hfind) himmediate hroom
  | string => exact compiles_string hs hquotes.string hnext hroom
  | @print text =>
      cases hnext with
      | @print _ _ middle _ hread htext =>
          obtain ⟨entry, hfind, haddress, himmediate⟩ := hquotes.print
          have hword : vocabulary[52]? =
            some { name := ".\"", immediate := true, effect := Words.dotQuote } := rfl
          obtain ⟨memory, hextends, heffect⟩ := dotQuote_compiles
            (s := { s with input := middle, ip := entry.address }) hs.kernel hs.mode htext hs.next
            (by omega) hroom
          exact compiles_of_effect hs hread hfind himmediate haddress hword rfl hextends heffect
            hroom

/-- Items that are compiled become their code one after the other. -/
theorem compiles_items (hs : s.IsCompiling .standard here) (hquotes : s.dictionary.Quotes)
    (hmeans : List.Forall₂ s.Means items codes) (hdelivers : s.input.Delivers items rest)
    (hroom : here.toInt + (Code.sequence codes).cells.length ≤ Int64.maxValue.toInt) :
    s.Compiles standardTable here (Code.sequence codes).cells rest := by
  rw [Code.cells_sequence] at hroom ⊢
  let P := fun (s : State) item cells =>
    s.dictionary.Quotes ∧ ∃ code, s.Means item code ∧ code.cells = cells
  have hitems : List.Forall₂ (P s) items (codes.map Code.cells) :=
    List.forall₂_map_right_iff.mpr (hmeans.imp fun _ code h => ⟨hquotes, code, h, rfl⟩)
  refine compiles_all (P := P) ?_ ?_ hs hitems hdelivers hroom
  · rintro s here item _ rest hs ⟨hquotes, code, hmeans, rfl⟩ hnext hroom
    exact compiles_item hs hquotes hmeans hnext hroom
  · rintro s item _ memory input ⟨hquotes, code, hmeans, rfl⟩ hbase
    exact ⟨hquotes, code, hmeans.congr (fun _ => rfl) hbase, rfl⟩

end Items

end ThreadedForth
