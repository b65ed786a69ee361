import ThreadedForth.Proofs.OuterLoop.Compiling

/-!
# A definition from `:` to `;`

`:` enters a hidden name and compiles the codeword, `;` compiles `EXIT` and reveals the name.  What
is compiled in between is somebody else's business: `reaches_defined` takes any body that
`Compiles`.
-/

namespace ThreadedForth

open Effect

/-! ## Names -/

namespace Dictionary

/-- At the address that a name was defined at last, its newest entry can be changed, and all other
names stay. -/
theorem exists_modify? {dictionary : Dictionary} {name : String} {entry : Entry}
    {older : List Entry} (hnewest : dictionary.newestNames[entry.address]? = some (fold name))
    (hchain : dictionary.chain name = entry :: older) (change : Entry → Entry) :
    ∃ changed, dictionary.modify? entry.address change = some changed ∧
      changed.newestNames = dictionary.newestNames ∧
      ∀ other, changed.chain other =
        if fold name = fold other then change entry :: older else dictionary.chain other := by
  have hentries : dictionary.chains[fold name]? = some (entry :: older) := by
    rw [chain, Std.TreeMap.getD_eq_getD_getElem?] at hchain
    rcases hget : dictionary.chains[fold name]? with _ | entries
    · rw [hget] at hchain
      cases hchain
    · rw [hget] at hchain
      exact congrArg some hchain
  let changed : Dictionary :=
    { dictionary with chains := dictionary.chains.insert (fold name) (change entry :: older) }
  have hmodify : dictionary.modifyNamed? (fold name) entry.address change = some changed := by
    rw [modifyNamed?, hentries]
    simp [modifyAt?, changed]
  refine ⟨changed, ?_, rfl, fun other => ?_⟩
  · rw [modify?, hnewest, Option.bind_some, hmodify]
    rfl
  · simp only [chain, changed, Std.TreeMap.getD_insert, Std.LawfulEqCmp.compare_eq_iff_eq]

/-- Revealing a name that was entered hidden makes it the newest meaning of that name, and leaves
all other names alone. -/
theorem exists_revealed (dictionary : Dictionary) (name : String) (address : Address) :
    ∃ revealed, (dictionary.define name address false true).setHidden? address false =
        some revealed ∧
      revealed.newestNames[address]? = some (fold name) ∧
      ∀ other, revealed.chain other =
        if fold name = fold other then ⟨fold name, address, false, false⟩ :: dictionary.chain name
        else dictionary.chain other := by
  have hnewest : (dictionary.define name address false true).newestNames[address]? =
      some (fold name) := by
    simp [define]
  have hchain : (dictionary.define name address false true).chain name =
      ⟨fold name, address, false, true⟩ :: dictionary.chain name := by
    rw [chain_define, if_pos rfl]
  obtain ⟨revealed, hrevealed, hnames, hchains⟩ :=
    exists_modify? hnewest hchain fun entry => { entry with hidden := false }
  refine ⟨revealed, hrevealed, hnames ▸ hnewest, fun other => ?_⟩
  rw [hchains other, chain_define]
  split <;> rfl

end Dictionary

/-! ## Cells -/

/-- The cells were appended as the latest definition, and no definition is in progress. -/
structure Memory.Defines (before after : Memory) (here : Address) (cells : List Cell) :
    Prop where
  holds : after.Holds here cells
  next : after.get Variable.here.address = .literal (.int (here + Int64.ofNat cells.length))
  state : after.get Variable.state.address = .literal (.int 0)
  latest : after.get Variable.latest.address = .literal (.int here)
  same : ∀ address : Address, address ≠ Variable.here.address →
    address ≠ Variable.state.address → address ≠ Variable.latest.address →
    (address.toInt < here.toInt ∨ here.toInt + cells.length ≤ address.toInt) →
    after.get address = before.get address

/-- Memory when a definition has begun at an address, but nothing is compiled yet. -/
def Memory.opened (memory : Memory) (here : Address) : Memory :=
  (memory.set Variable.latest.address (.literal (.int here))).set Variable.state.address
    (.literal (.int 1))

/-- Opening a definition writes to two variables only. -/
theorem Memory.get_opened {memory : Memory} {here address : Address}
    (hstate : Variable.state.address ≠ address) (hlatest : Variable.latest.address ≠ address) :
    (memory.opened here).get address = memory.get address := by
  rw [opened, get_set_of_ne _ hstate, get_set_of_ne _ hlatest]

theorem Memory.Extends.latest {before after : Memory} {here : Address} {cells : List Cell}
    (h : (before.opened here).Extends after here cells) (hlow : 4 ≤ here.toInt) :
    after.get Variable.latest.address = .literal (.int here) := by
  rw [h.same_of_lt (by decide) (Int.lt_of_lt_of_le (by decide) hlow), opened,
    get_set_of_ne _ (by decide), get_set_self]

theorem Memory.Extends.base {before after : Memory} {here : Address} {cells : List Cell}
    (h : (before.opened here).Extends after here cells) (hlow : 4 ≤ here.toInt) :
    after.get Variable.base.address = before.get Variable.base.address := by
  rw [h.same_of_lt (by decide) (Int.lt_of_lt_of_le (by decide) hlow),
    get_opened (by decide) (by decide)]

/-- A row that was appended to an opened memory is a definition once it is closed. -/
theorem Memory.defines_of_extends {before after : Memory} {here : Address} {cells : List Cell}
    (h : (before.opened here).Extends after here cells) (hlow : 4 ≤ here.toInt)
    (hroom : here.toInt + cells.length ≤ Int64.maxValue.toInt) :
    before.Defines (after.set Variable.state.address (.literal (.int 0))) here cells := by
  have hstate : Variable.state.address.toInt < here.toInt :=
    Int.lt_of_lt_of_le (by decide) hlow
  have hlatest : Variable.latest.address.toInt < here.toInt :=
    Int.lt_of_lt_of_le (by decide) hlow
  have hclosed : ((before.opened here).set Variable.state.address (.literal (.int 0))).Extends
      (after.set Variable.state.address (.literal (.int 0))) here cells :=
    h.set (by decide) hstate hroom
  refine ⟨hclosed.holds, hclosed.next, get_set_self _ _ _, ?_, fun address h₀ h₁ h₃ houtside => ?_⟩
  · rw [hclosed.same_of_lt (by decide) hlatest, get_set_of_ne _ (by decide), opened,
      get_set_of_ne _ (by decide), get_set_self]
  · rw [hclosed.same address h₀ houtside, get_set_of_ne _ h₁.symm, get_opened h₁.symm h₃.symm]

section Defining

variable {w : Outfit} {s : State} {here : Address} {cells : List Cell} {input : Input}
variable {name : String}
variable {start : Address} {revealed : Dictionary}

/-- `:` begins a definition. -/
theorem colon_ok {kernel : Kernel} (hkernel : s.kernel? = some kernel)
    (hread : s.input.readToken = (some name, input))
    (hhere : s.memory.get Variable.here.address = .literal (.int here)) (hlow : 4 ≤ here.toInt)
    (hroom : here.toInt < Int64.maxValue.toInt) :
    ∃ memory, (s.memory.opened here).Extends memory here [.native kernel.docol] ∧
      Words.colon s = .ok () { s with
        input, memory, dictionary := s.dictionary.define name here false true } := by
  have hread' : s.kernel = .ok kernel := by rw [State.kernel, hkernel]
  have hname : Words.nameHere name true { s with input } = .ok () { s with
      input
      memory := s.memory.set Variable.latest.address (.literal (.int here))
      dictionary := s.dictionary.define name here false true } := by
    rw [Words.nameHere, bind_ok (examine_ok (s := { s with input }) (here_of_get hhere))]
    rfl
  have hhere' : (s.memory.set Variable.latest.address (.literal (.int here))).get
      Variable.here.address = .literal (.int here) := by
    rw [Memory.get_set_of_ne _ (by decide)]
    exact hhere
  obtain ⟨memory, hextends, hcompile⟩ := compile_extends (s := { s with
      input
      memory := s.memory.set Variable.latest.address (.literal (.int here))
      dictionary := s.dictionary.define name here false true })
    (.native kernel.docol) hhere' (by omega) hroom
  refine ⟨memory.set Variable.state.address (.literal (.int 1)),
    hextends.set (by decide) (Int.lt_of_lt_of_le (by decide) hlow) hroom, ?_⟩
  rw [Words.colon, bind_ok (examine_ok hread'), bind_ok (readToken_ok hread), bind_ok hname,
    bind_ok (discard_ok hcompile)]
  rfl

/-- `;` ends it. -/
theorem semicolon_ok {kernel : Kernel} (hkernel : s.kernel? = some kernel)
    (hmode : s.mode = .ok .compile)
    (hhere : s.memory.get Variable.here.address = .literal (.int here)) (hlow : 0 < here.toInt)
    (hlatest : s.memory.get Variable.latest.address = .literal (.int start))
    (hrevealed : s.dictionary.setHidden? start false = some revealed)
    (hroom : here.toInt < Int64.maxValue.toInt) :
    ∃ memory, s.memory.Extends memory here [.reference kernel.exit] ∧
      Words.semicolon s = .ok () { s with
        memory := memory.set Variable.state.address (.literal (.int 0))
        dictionary := revealed } := by
  have hread : s.kernel = .ok kernel := by rw [State.kernel, hkernel]
  have hstart : s.latest = .ok start := by
    simp only [State.latest, State.readVariable, hlatest]
    rfl
  have hcompiling : Words.requireCompiling ";" s = .ok () s := by
    rw [Words.requireCompiling, bind_ok (examine_ok hmode)]
    rfl
  obtain ⟨memory, hextends, hcompile⟩ :=
    compile_extends (s := s) (.reference kernel.exit) hhere hlow hroom
  refine ⟨memory, hextends, ?_⟩
  rw [Words.semicolon, bind_ok hcompiling, bind_ok (examine_ok hread),
    bind_ok (examine_ok hstart), bind_ok (discard_ok hcompile)]
  change EStateM.Result.ok () (State.setMode { s with
    memory, dictionary := (s.dictionary.setHidden? start false).getD s.dictionary } .interpret) = _
  rw [hrevealed]
  rfl

/-- After `:` a definition is in progress. -/
theorem isCompiling_opened (hs : s.AtPrompt w) (hkernel : s.kernel? = some w.kernel)
    (hlow : w.past ≤ here.toInt) (hroom : here.toInt < Int64.maxValue.toInt) {memory : Memory}
    (hextends : (s.memory.opened here).Extends memory here [.native w.kernel.docol])
    (dictionary : Dictionary) (input : Input) :
    State.IsCompiling { s with memory, dictionary, input } w (here + 1) := by
  have hfour := w.four_le_of_past_le hlow
  have hstate : memory.get Variable.state.address = .literal (.int 1) := by
    rw [hextends.same_of_lt (by decide) (Int.lt_of_lt_of_le (by decide) hfour), Memory.opened,
      Memory.get_set_self]
  have hmemory : memory.IsIntact w := by
    refine hs.memory.congr fun address hfour hhigh => ?_
    have hstate : Variable.state.address ≠ address := by
      rintro rfl
      exact absurd hfour (by decide)
    have hlatest : Variable.latest.address ≠ address := by
      rintro rfl
      exact absurd hfour (by decide)
    rw [hextends.same_of_lt (by omega) (by omega), Memory.get_opened hstate hlatest]
  refine ⟨⟨⟨hs.ip, hs.nip, hs.depth, hs.halt⟩, hmemory⟩, hkernel, ?_, hextends.next, ?_⟩
  · simp only [State.mode, State.readVariable, hstate]
    rfl
  · rw [Address.toInt_add_one hroom]
    omega

/-- Read at the prompt, `:` opens a definition.  The dictionary changes in one step. -/
theorem quiet_colon (hs : s.AtPrompt w) (hkernel : s.kernel? = some w.kernel)
    (hmode : s.mode = .ok .interpret)
    (hhere : s.memory.get Variable.here.address = .literal (.int here)) (hlow : w.past ≤ here.toInt)
    (hroom : here.toInt < Int64.maxValue.toInt) {colon : Entry}
    (hcolon : s.dictionary.findVisible? ":" = some colon)
    (hcolonAddress : colon.address = primitiveAddress 19) {named : Input}
    (hcolonRead : s.input.readToken = (some ":", named))
    (hnameRead : named.readToken = (some name, input)) :
    ∃ memory u v, (s.memory.opened here).Extends memory here [.native w.kernel.docol] ∧
      Steady w.table s u ∧ Quiet w.table u v ∧
      Steady w.table v { s with
        memory, dictionary := s.dictionary.define name here false true, input } := by
  obtain ⟨memory, hbegun, heffect⟩ := colon_ok (s := { s with input := named, ip := colon.address })
    hkernel hnameRead hhere (w.four_le_of_past_le hlow) hroom
  have hcompiling := isCompiling_opened hs hkernel hlow hroom hbegun
    (s.dictionary.define name here false true) input
  have hword : w.words[19]? = some { name := ":", effect := Words.colon } := w.getElem?_words rfl
  obtain ⟨u, v, hbefore, hquiet, hafter⟩ := quiet_executed hs hcolonRead hcolon hmode (.inl rfl)
    hcolonAddress hword rfl heffect rfl rfl hs.halt hcompiling.memory
  rw [State.prompted, ← hs.ip, ← hs.nip] at hafter
  exact ⟨memory, u, v, hbegun, hbefore, hquiet, hafter⟩

/-- Read while a definition is in progress, `;` closes it.  Again the dictionary changes in one
step. -/
theorem quiet_semicolon (hs : s.IsCompiling w here)
    (hlatest : s.memory.get Variable.latest.address = .literal (.int start))
    (hrevealed : s.dictionary.setHidden? start false = some revealed)
    (hroom : here.toInt < Int64.maxValue.toInt) {semicolon : Entry}
    (hsemicolon : s.dictionary.findVisible? ";" = some semicolon)
    (hsemicolonAddress : semicolon.address = primitiveAddress 20)
    (himmediate : semicolon.immediate = true) (hread : s.input.readToken = (some ";", input)) :
    ∃ memory u v, s.memory.Extends memory here [.reference w.kernel.exit] ∧
      Steady w.table s u ∧ Quiet w.table u v ∧
      Steady w.table v { s with
        memory := memory.set Variable.state.address (.literal (.int 0))
        dictionary := revealed
        input } ∧
      (memory.set Variable.state.address (.literal (.int 0))).IsIntact w := by
  have hlow := hs.low
  have hfour := hs.four_le
  obtain ⟨memory, hextends, heffect⟩ :=
    semicolon_ok (s := { s with input, ip := semicolon.address }) hs.kernel hs.mode hs.next
      (by omega) hlatest hrevealed hroom
  have hmemory : (memory.set Variable.state.address (.literal (.int 0))).IsIntact w := by
    refine hs.memory.congr fun address hfour hhigh => ?_
    have hstate : Variable.state.address ≠ address := by
      rintro rfl
      exact absurd hfour (by decide)
    rw [Memory.get_set_of_ne _ hstate]
    exact hextends.same_of_lt (by omega) (by omega)
  have hword : w.words[20]? =
    some { name := ";", immediate := true, effect := Words.semicolon } := w.getElem?_words rfl
  obtain ⟨u, v, hbefore, hquiet, hafter⟩ := quiet_executed hs.toAtPrompt hread hsemicolon hs.mode
    (.inr himmediate) hsemicolonAddress hword rfl heffect rfl rfl hs.halt hmemory
  rw [State.prompted, ← hs.ip, ← hs.nip] at hafter
  exact ⟨memory, u, v, hextends, hbefore, hquiet, hafter, hmemory⟩

/-- From `:` to `;` a definition is appended, if its body compiles. -/
theorem reaches_defined (hs : s.AtPrompt w) (hkernel : s.kernel? = some w.kernel)
    (hmode : s.mode = .ok .interpret)
    (hhere : s.memory.get Variable.here.address = .literal (.int here)) (hlow : w.past ≤ here.toInt)
    (hroom : here.toInt + (cells.length + 2) ≤ Int64.maxValue.toInt) {colon semicolon : Entry}
    (hcolon : s.dictionary.findVisible? ":" = some colon)
    (hcolonAddress : colon.address = primitiveAddress 19)
    (hsemicolon : s.dictionary.findVisible? ";" = some semicolon)
    (hsemicolonAddress : semicolon.address = primitiveAddress 20)
    (himmediate : semicolon.immediate = true) {named opened closed : Input}
    (hcolonRead : s.input.readToken = (some ":", named))
    (hnameRead : named.readToken = (some name, opened))
    (hsemicolonRead : closed.readToken = (some ";", input))
    (hbody : ∀ memory,
      (s.memory.opened here).Extends memory here [.native w.kernel.docol] →
      State.Compiles { s with
        memory, dictionary := s.dictionary.define name here false true, input := opened } w.table
        (here + 1) cells closed) :
    ∃ memory dictionary, Reaches w.table s { s with memory, dictionary, input } ∧
      s.memory.Defines memory here
        (.native w.kernel.docol :: cells ++ [.reference w.kernel.exit]) ∧
      dictionary.newestNames[here]? = some (Dictionary.fold name) ∧
      ∀ other, dictionary.chain other =
        if Dictionary.fold name = Dictionary.fold other then
          ⟨Dictionary.fold name, here, false, false⟩ :: s.dictionary.chain name
        else s.dictionary.chain other := by
  have hfour := w.four_le_of_past_le hlow
  -- up to the body
  obtain ⟨begun, _, _, hbegun, hbefore, hopens, hopened⟩ := quiet_colon hs hkernel hmode hhere hlow
    (by omega) hcolon hcolonAddress hcolonRead hnameRead
  have hcompiling := isCompiling_opened hs hkernel hlow (by omega) hbegun
    (s.dictionary.define name here false true) opened
  -- the body
  obtain ⟨filled, hfilled, hreaches⟩ := hbody begun hbegun
  have hone : (here + 1).toInt = here.toInt + 1 := Address.toInt_add_one (by omega)
  have hnext : (here + 1 + Int64.ofNat cells.length).toInt = here.toInt + 1 + cells.length := by
    rw [Address.toInt_add_ofNat (by omega), hone]
  have hgrown := hcompiling.grow hfilled (by omega) closed
  have hall : (s.memory.opened here).Extends filled here
      (.native w.kernel.docol :: cells) :=
    hbegun.trans hfilled (by omega) (by simp; omega)
  -- and to the end
  obtain ⟨dictionary, hrevealed, hnewest, hchain⟩ := s.dictionary.exists_revealed name here
  have hfind : (s.dictionary.define name here false true).findVisible? ";" = some semicolon := by
    rw [Dictionary.findVisible?_define_hidden, hsemicolon]
  obtain ⟨memory, _, _, hextends, hbefore', hcloses, hclosed, -⟩ := quiet_semicolon hgrown
    (hall.latest hfour) hrevealed (by omega) hfind hsemicolonAddress himmediate hsemicolonRead
  have hplace : here + 1 + Int64.ofNat cells.length =
      here + Int64.ofNat (Cell.native w.kernel.docol :: cells).length := by
    rw [Address.add_one_add_ofNat, List.length_cons]
  rw [hplace] at hextends
  have hfinal := hall.trans hextends (by omega) (by simp; omega)
  have hentered := (hbefore.reaches.trans (.single hopens)).trans hopened.reaches
  have hleft := (hbefore'.reaches.trans (.single hcloses)).trans hclosed.reaches
  exact ⟨_, dictionary, (hentered.trans hreaches).trans hleft,
    Memory.defines_of_extends hfinal hfour (by simp; omega), hnewest, hchain⟩

end Defining

end ThreadedForth
