import ThreadedForth.Proofs.Decompile.Scanning
import ThreadedForth.Proofs.Effect.Making
import ThreadedForth.Proofs.Words.Library

/-!
# Every word is made of changes and readings

The words of the kernel and the library are gone through one by one, in the order in which they are
defined.  Two of them are left out, since they do not insist on what they read: `INTERPRET` halts if
there is no token, and `(` may run to the end of the input.
-/

namespace ThreadedForth.Words

open Effect

variable {able : Ability → Prop}

/-! ## Control -/

theorem madeOf_resume : MadeOf able resume :=
  .of_modify (fun _ _ => rfl) fun _ => .elsewhere rfl rfl rfl rfl rfl rfl

theorem madeOf_enter (h : able .link) : MadeOf able enter :=
  .of_modify (fun _ _ => rfl) fun _ => .link h rfl rfl rfl rfl

theorem madeOf_exit (h : able .link) : MadeOf able Effect.exit := by
  refine .change (fun s around => ?_) fun s => ?_
  · have hsame : (s.within around).returns = s.returns := rfl
    have hdepth : (s.within around).depth = s.depth := rfl
    simp only [Effect.exit, Effect.get_bind, hsame, hdepth]
    rcases s.returns.items with _ | ⟨link, rest⟩
    · rfl
    · by_cases hdepth : s.depth = 0
      · simp only [if_pos hdepth]
        rfl
      · simp only [if_neg hdepth]
        cases link <;> rfl
  · rw [after, Effect.exit, Effect.get_bind]
    rcases s.returns.items with _ | ⟨link, rest⟩
    · exact .refl s
    · by_cases hdepth : s.depth = 0
      · simp only [if_pos hdepth]
        exact .refl s
      · simp only [if_neg hdepth]
        cases link <;> exact .link h rfl rfl rfl rfl

theorem madeOf_lit : MadeOf able lit :=
  .get_bind (fun _ _ => rfl) fun _ => .bind (.examine fun _ _ => rfl) fun _ => .bind (.push _)
    fun _ => .of_modify (fun _ _ => rfl) fun _ => .elsewhere rfl rfl rfl rfl rfl rfl

theorem madeOf_branchTo (target : Address) : MadeOf able (branchTo target) :=
  .of_modify (fun _ _ => rfl) fun _ => .elsewhere rfl rfl rfl rfl rfl rfl

theorem madeOf_branch : MadeOf able branch :=
  .get_bind (fun _ _ => rfl) fun _ => .bind (.examine fun _ _ => rfl) fun _ => madeOf_branchTo _

theorem madeOf_zeroBranch : MadeOf able zeroBranch :=
  .get_bind (fun _ _ => rfl) fun _ => .bind (.examine fun _ _ => rfl) fun _ => .bind .pop
    fun _ => madeOf_branchTo _

theorem madeOf_jump (target : Address) : MadeOf able (jump target) :=
  .of_modify (fun _ _ => rfl) fun _ => .elsewhere rfl rfl rfl rfl rfl rfl

theorem madeOf_execute : MadeOf able execute := .bind .takeInt fun _ => madeOf_jump _

theorem madeOf_restart (h : able .link) : MadeOf able restart := by
  refine .bind (.examine fun _ _ => rfl) fun kernel => ?_
  have heq : (modify fun s => { s.setMode .interpret with
      returns := {}, depth := 1, ip := kernel.outerLoop } : Effect Unit) =
      (setMode .interpret >>= fun _ =>
        modify fun s => { s with returns := {}, depth := 1, ip := kernel.outerLoop }) := rfl
  rw [heq]
  exact .bind (.setMode _) fun _ => .of_modify (fun _ _ => rfl) fun _ => .link h rfl rfl rfl rfl

theorem madeOf_requestHalt (h : able .halt) (halt : Halt) : MadeOf able (requestHalt halt) :=
  .of_modify (fun _ _ => rfl) fun _ => .halt h halt

/-! ## Memory -/

theorem madeOf_fetch : MadeOf able fetch :=
  .bind (.examine fun _ _ => rfl) fun _ => .bind (.examine fun _ _ => rfl) fun _ =>
    .bind (.discard .pop) fun _ => .push _

theorem madeOf_patch (h : able .patch) (address : Address) (v : Value) :
    MadeOf able (Effect.store address v) :=
  .of_modify (fun _ _ => rfl) fun _ => .patch h address v

theorem madeOf_store (h : able .patch) : MadeOf able Words.store :=
  .bind (.examine fun _ _ => rfl) fun _ => .bind .takeInt fun _ => .bind .pop fun _ =>
    madeOf_patch h _ _

theorem madeOf_plusStore (h : able .patch) : MadeOf able plusStore :=
  .bind (.examine fun _ _ => rfl) fun _ => .bind (.lift _) fun _ =>
    .bind (.examine fun _ _ => rfl) fun _ => .bind (.examine fun _ _ => rfl) fun _ =>
    .bind (.lift _) fun _ => .bind (.discard .pop) fun _ => .bind (.discard .pop) fun _ =>
    madeOf_patch h _ _

/-- The effect writes to the address on the stack, or it touches the stack only. -/
def Patches (x : Effect Unit) : Prop :=
  ∀ s : State, (∃ parameters, after x s = { s with parameters }) ∨
    ∃ address v parameters, s.topInt = .ok address ∧
      x s = .ok () { s with parameters, memory := s.memory.set address (.literal v) }

theorem patches_store : Patches Words.store := by
  intro s
  rcases hrequire : s.parameters.require 2 with cause | ⟨⟩
  · exact .inl ⟨_, after_bind_error (examine_error hrequire)⟩
  rcases htop : s.topInt with cause | address
  · exact .inl ⟨_, (after_bind_ok (examine_ok hrequire)).trans
      (after_bind_error (takeInt_error htop))⟩
  obtain ⟨rest, hrest⟩ := topInt_eq_ok htop
  rcases hpop : rest.pop with cause | ⟨v, parameters⟩
  · refine .inl ⟨rest, ?_⟩
    rw [Words.store, after_bind_ok (examine_ok hrequire), after_bind_ok (takeInt_ok hrest),
      after_bind_error (by rw [pop_apply, hpop])]
  · refine .inr ⟨address, v, parameters, rfl, ?_⟩
    rw [Words.store, bind_ok (examine_ok hrequire), bind_ok (takeInt_ok hrest),
      bind_ok (by rw [pop_apply, hpop])]
    rfl

theorem patches_plusStore : Patches plusStore := by
  intro s
  rcases hpick : s.parameters.pick 1 with cause | v
  · exact .inl ⟨_, after_bind_error (examine_error hpick)⟩
  rcases hnumber : v.toNumber with cause | n
  · exact .inl ⟨_, (after_bind_ok (examine_ok hpick)).trans (after_bind_error (lift_error hnumber))⟩
  have hoperand : ∀ f : Number → Effect Unit,
      (pick 1 >>= fun v => liftM v.toNumber >>= f) s = f n s := fun f => by
    rw [pick, bind_ok (examine_ok hpick), bind_ok (lift_ok hnumber)]
  rcases htop : s.topInt with cause | address
  · refine .inl ⟨s.parameters, ?_⟩
    rw [plusStore, after, hoperand, topInt, bind_error (examine_error htop)]
  rcases hfetch : s.fetch address with cause | held
  · refine .inl ⟨s.parameters, ?_⟩
    rw [plusStore, after, hoperand, topInt, bind_ok (examine_ok htop),
      bind_error (examine_error hfetch)]
  rcases hheld : held.toNumber with cause | m
  · refine .inl ⟨s.parameters, ?_⟩
    rw [plusStore, after, hoperand, topInt, bind_ok (examine_ok htop), bind_ok (examine_ok hfetch),
      bind_error (lift_error hheld)]
  -- both operands are there, so that nothing can fail any more
  obtain ⟨⟨items⟩, hrest⟩ := topInt_eq_ok htop
  obtain ⟨rest, rfl⟩ : ∃ rest, items = v :: rest := by
    have hsecond := items_of_pick hpick
    rw [hrest] at hsecond
    rcases items with _ | ⟨top, rest⟩
    · cases hsecond
    · cases hsecond
      exact ⟨rest, rfl⟩
  have hpop : discard pop s = .ok () { s with parameters := ⟨v :: rest⟩ } := discard_pop_ok hrest
  have hpop' : discard pop { s with parameters := ⟨v :: rest⟩ } =
      .ok () { s with parameters := ⟨rest⟩ } := discard_pop_ok rfl
  refine .inr ⟨address, .ofNumber (m.plus n), ⟨rest⟩, rfl, ?_⟩
  rw [plusStore, hoperand, topInt, bind_ok (examine_ok htop), bind_ok (examine_ok hfetch),
    bind_ok (lift_ok hheld), bind_ok hpop, bind_ok hpop']
  rfl

theorem madeOf_comma : MadeOf able comma := .bind .pop fun _ => .discard (.compile _)

theorem madeOf_compileComma : MadeOf able compileComma :=
  .bind .takeInt fun _ => .discard (.compile _)

theorem madeOf_compileTimes (cell : Cell) (n : Nat) : MadeOf able (compileTimes cell n) := by
  induction n with
  | zero => exact .of_pure ()
  | succ n ih => exact .bind (.discard (.compile cell)) fun _ => ih

/-- What `ALLOT` does with a count. -/
theorem madeOf_allotted {n : Int64} (h : n < 0 → able .retreat) : MadeOf able (do
    if allotLimit.toInt < n.toInt.natAbs then fail (.countOutOfRange "ALLOT" n allotLimit)
    let here ← examine State.here
    discard pop
    if n < 0 then writeVariable .here (clampedAdd here n)
    else compileTimes (.literal (.int 0)) n.toNatClampNeg) := by
  have hrest : MadeOf able (do
      let here ← examine State.here
      discard pop
      if n < 0 then writeVariable .here (clampedAdd here n)
      else compileTimes (.literal (.int 0)) n.toNatClampNeg) := by
    refine .bind (.examine fun _ _ => rfl) fun here => .bind (.discard .pop) fun _ => ?_
    split
    · rename_i hnegative
      exact .of_modify (fun _ _ => rfl) fun _ => .retreat (h hnegative) _
    · exact madeOf_compileTimes _ _
  dsimp only
  split
  · exact .bind .fail fun _ => hrest
  · exact hrest

theorem madeOf_allot (h : able .retreat) : MadeOf able allot :=
  .bind (.examine fun _ _ => rfl) fun _ => madeOf_allotted fun _ => h

/-- `ALLOT` is privileged with a negative count only. -/
theorem becomes_allot (s : State) :
    (∃ n t, allot s = .ok () t ∧ s.topInt = .ok n ∧ n < 0) ∨
      s.Becomes (fun _ => False) (after allot s) := by
  rcases htop : s.topInt with cause | n
  · refine .inr ?_
    rw [allot, topInt, after_bind_error (examine_error htop)]
    exact .refl
  by_cases hnegative : n < 0
  · by_cases hlimit : allotLimit.toInt < n.toInt.natAbs
    · refine .inr ?_
      rw [allot, topInt, after_bind_ok (examine_ok htop), if_pos hlimit]
      exact .refl
    rcases hhere : s.here with cause | here
    · refine .inr ?_
      rw [allot, topInt, after_bind_ok (examine_ok htop), if_neg hlimit,
        after_bind_error (examine_error hhere)]
      exact .refl
    · obtain ⟨rest, hrest⟩ := topInt_eq_ok htop
      refine .inl ⟨n, State.writeVariable { s with parameters := rest } .here (clampedAdd here n),
        ?_, rfl, hnegative⟩
      rw [allot, topInt, bind_ok (examine_ok htop), if_neg hlimit]
      dsimp only
      rw [bind_ok (examine_ok hhere), bind_ok (discard_pop_ok hrest), if_pos hnegative]
      rfl
  · have hmade : MadeOf (fun _ => False) _ := madeOf_allotted fun h => hnegative h
    have hbecomes := hmade.becomes s
    refine .inr ?_
    rw [allot, topInt, after_bind_ok (examine_ok htop)]
    exact hbecomes

/-! ## Defining and compiling -/

/-- A word that defines something goes on after the header. -/
theorem madeOf_header_bind (h : able .define) {β : Type} {name : String} {hidden : Bool}
    {codeword : Cell} {f : Unit → Effect β} (hf : ∀ u, MadeOf able (f u)) :
    MadeOf able (do nameHere name hidden; discard (compile codeword) >>= f) := by
  rw [← bind_assoc]
  exact .bind (.header h name hidden codeword) hf

theorem namesOnce_header_bind {β : Type} {name : String} {hidden : Bool} {codeword : Cell}
    {f : Unit → Effect β} (hf : ∀ u, MadeOf (fun _ => False) (f u)) :
    NamesOnce (do nameHere name hidden; discard (compile codeword) >>= f) := by
  rw [← bind_assoc]
  exact .bind (.header name hidden codeword) hf

theorem madeOf_readToken : MadeOf able readToken := by
  rw [readToken_eq]
  exact .read .token

theorem madeOf_requireCompiling (word : String) : MadeOf able (requireCompiling word) := by
  refine .bind (.examine fun _ _ => rfl) fun mode => ?_
  split
  · exact .fail
  · exact .of_pure ()

theorem madeOf_colon (h : able .define) : MadeOf able colon :=
  .bind (.examine fun _ _ => rfl) fun _ => .bind madeOf_readToken fun _ =>
    madeOf_header_bind h fun _ => .setMode _

/-- Flags are changed where there is an entry. -/
theorem changes_flag {s : State} {address : Address} {change : Entry → Entry}
    (hchange : ∀ entry, (change entry).name = entry.name ∧ (change entry).address = entry.address) :
    s.Changes able { s with
      dictionary := (s.dictionary.modify? address change).getD s.dictionary } := by
  rcases h : s.dictionary.modify? address change with _ | dictionary
  · exact .refl s
  · exact .flag hchange h

/-- The change is the same in whatever order the dictionary goes through its names. -/
def IsOrderless (edit : Dictionary → Option Dictionary) : Prop :=
  ∀ (dictionary : Dictionary) (order : NameOrder),
    edit { dictionary with order } = (edit dictionary).map ({ · with order })

theorem isOrderless_modify? (address : Address) (change : Entry → Entry) :
    IsOrderless (·.modify? address change) := by
  intro dictionary order
  have hnamed : ∀ name, Dictionary.modifyNamed? { dictionary with order } name address change =
      (dictionary.modifyNamed? name address change).map ({ · with order }) := by
    intro name
    simp only [Dictionary.modifyNamed?]
    rcases dictionary.chains[name]? with _ | entries
    · rfl
    · change Option.bind (Dictionary.modifyAt? address change entries) _ =
        Option.map _ (Option.bind (Dictionary.modifyAt? address change entries) _)
      rcases Dictionary.modifyAt? address change entries with _ | changed <;> rfl
  have hbind : ∀ name? : Option String,
      name?.bind (Dictionary.modifyNamed? { dictionary with order } · address change) =
        (name?.bind (dictionary.modifyNamed? · address change)).map ({ · with order }) := by
    rintro (_ | name)
    · rfl
    · exact hnamed name
  simp only [Dictionary.modify?, hbind]
  rcases dictionary.newestNames[address]?.bind (dictionary.modifyNamed? · address change)
    with _ | changed <;> rfl

theorem isOrderless_remove? (name : String) : IsOrderless (·.remove? name) := by
  intro dictionary order
  simp only [Dictionary.remove?]
  split <;> rfl

/-- Where a change is impossible, the dictionary stays. -/
theorem IsOrderless.getD {edit : Dictionary → Option Dictionary} (h : IsOrderless edit) (s : State)
    (around : Surroundings) :
    { s.within around with
      dictionary := (edit (s.within around).dictionary).getD (s.within around).dictionary } =
      State.within { s with dictionary := (edit s.dictionary).getD s.dictionary } around := by
  rw [show edit (s.within around).dictionary = _ from h s.dictionary around.order]
  rcases edit s.dictionary with _ | dictionary <;> rfl

theorem madeOf_semicolon : MadeOf able semicolon :=
  .bind (madeOf_requireCompiling _) fun _ => .bind (.examine fun _ _ => rfl) fun _ =>
    .bind (.examine fun _ _ => rfl) fun latest => .bind (.discard (.compile _)) fun _ =>
    .bind (.of_modify ((isOrderless_modify? latest _).getD) fun _ =>
      changes_flag fun _ => ⟨rfl, rfl⟩) fun _ => .setMode _

/-- A change of the dictionary that may be impossible. -/
theorem madeOf_edit {edit : Dictionary → Option Dictionary} {cause : Cause}
    (horderless : IsOrderless edit)
    (hedit : ∀ (s : State) dictionary, edit s.dictionary = some dictionary →
      s.Changes able { s with dictionary }) :
    MadeOf able (do
      match edit (← get).dictionary with
      | some dictionary => modify ({ · with dictionary })
      | none => fail cause) := by
  refine .change (fun s around => ?_) fun s => ?_
  · have hsame : edit (s.within around).dictionary = _ := horderless s.dictionary around.order
    simp only [Effect.get_bind, hsame]
    rcases edit s.dictionary with _ | dictionary <;> rfl
  · rw [after, Effect.get_bind]
    rcases h : edit s.dictionary with _ | dictionary
    · exact .refl s
    · exact hedit s dictionary h

theorem madeOf_immediate : MadeOf able immediate := by
  refine .bind (.examine fun _ _ => rfl) fun latest => ?_
  refine madeOf_edit (isOrderless_modify? latest _) fun s dictionary h => .flag ?_ h
  exact fun _ => ⟨rfl, rfl⟩

theorem madeOf_toggleHidden : MadeOf able toggleHidden := by
  refine .bind (.examine fun _ _ => rfl) fun address => ?_
  have hedit := @madeOf_edit able (·.toggleHidden? address) (noWordAt address)
    (isOrderless_modify? address _) fun s dictionary h => .flag (fun _ => by exact ⟨rfl, rfl⟩) h
  have hbind := hedit.bind fun _ => .discard .pop
  rw [bind_assoc] at hbind
  refine (congrArg (MadeOf able) (bind_congr fun s => ?_)).mp hbind
  rcases s.dictionary.toggleHidden? address with _ | dictionary <;> rfl

theorem madeOf_hide : MadeOf able hide := by
  refine .bind madeOf_readToken fun name => .change (fun s around => ?_) fun s => ?_
  · have hsame : (s.within around).dictionary.find? name = s.dictionary.find? name := rfl
    simp only [Effect.get_bind, hsame]
    rcases s.dictionary.find? name with _ | entry
    · rfl
    · have horderless : IsOrderless (·.toggleHidden? entry.address) := isOrderless_modify? _ _
      exact congrArg (EStateM.Result.ok ()) (horderless.getD s around)
  · rw [after, Effect.get_bind]
    rcases h : s.dictionary.find? name with _ | entry
    · exact .refl s
    · refine changes_flag ?_
      exact fun _ => ⟨rfl, rfl⟩

theorem madeOf_create (h : able .define) : MadeOf able create :=
  .bind (.examine fun _ _ => rfl) fun _ => .bind madeOf_readToken fun _ => .header h _ _ _

theorem madeOf_variableWord (h : able .define) : MadeOf able variableWord :=
  .bind (madeOf_create h) fun _ => .discard (.compile _)

theorem madeOf_constant (h : able .define) : MadeOf able constant :=
  .bind (.examine fun _ _ => rfl) fun _ => .bind (.discard (.examine fun _ _ => rfl)) fun _ =>
    .bind madeOf_readToken fun _ => .bind .pop fun _ =>
    madeOf_header_bind h fun _ => .discard (.compile _)

theorem madeOf_dovar : MadeOf able dovar :=
  .get_bind (fun _ _ => rfl) fun _ => .bind (.push _) fun _ => madeOf_resume

theorem madeOf_docon : MadeOf able docon :=
  .get_bind (fun _ _ => rfl) fun _ => .bind (.examine fun _ _ => rfl) fun _ => .bind (.push _)
    fun _ => madeOf_resume

theorem madeOf_literal : MadeOf able literal :=
  .bind (madeOf_requireCompiling _) fun _ => .bind .pop fun _ => .compilePush _

theorem madeOf_recurse : MadeOf able recurse :=
  .bind (madeOf_requireCompiling _) fun _ => .bind (.examine fun _ _ => rfl) fun _ =>
    .discard (.compile _)

theorem madeOf_addressOf (name : String) : MadeOf able (addressOf name) := by
  refine .get_bind (fun _ _ => rfl) fun s => ?_
  split
  · exact .of_pure _
  · exact .fail

theorem madeOf_tick : MadeOf able tick :=
  .bind madeOf_readToken fun _ => .bind (madeOf_addressOf _) fun _ => .push _

theorem madeOf_bracketTick : MadeOf able bracketTick :=
  .bind (madeOf_requireCompiling _) fun _ => .bind madeOf_readToken fun _ =>
    .bind (madeOf_addressOf _) fun _ => .compilePush _

theorem madeOf_forget : MadeOf able forget :=
  .bind madeOf_readToken fun name => madeOf_edit (isOrderless_remove? name) fun _ _ h => .forget h

/-! ## Defining words enter one name -/

theorem namesOnce_colon : NamesOnce colon :=
  .after_madeOf (.examine fun _ _ => rfl) fun _ => .after_madeOf madeOf_readToken fun _ =>
    namesOnce_header_bind fun _ => .setMode _

theorem namesOnce_create : NamesOnce create :=
  .after_madeOf (.examine fun _ _ => rfl) fun _ => .after_madeOf madeOf_readToken fun _ =>
    .header _ _ _

theorem namesOnce_variableWord : NamesOnce variableWord :=
  namesOnce_create.bind fun _ => .discard (.compile _)

theorem namesOnce_constant : NamesOnce constant :=
  .after_madeOf (.examine fun _ _ => rfl) fun _ =>
    .after_madeOf (.discard (.examine fun _ _ => rfl)) fun _ =>
    .after_madeOf madeOf_readToken fun _ => .after_madeOf .pop fun _ =>
    namesOnce_header_bind fun _ => .discard (.compile _)

/-! ## Stacks -/

theorem madeOf_parameterPointer : MadeOf able parameterPointer :=
  .bind (.examine fun _ _ => rfl) fun _ => .push _

theorem madeOf_returnPointer : MadeOf able returnPointer :=
  .bind (.examine fun _ _ => rfl) fun _ => .push _

theorem madeOf_requestedParameter : MadeOf able requestedParameter :=
  .bind (.examine fun _ _ => rfl) fun _ => .examine fun _ _ => rfl

theorem madeOf_requestedReturn : MadeOf able requestedReturn :=
  .bind (.examine fun _ _ => rfl) fun _ => .examine fun _ _ => rfl

theorem madeOf_setParameterPointer : MadeOf able setParameterPointer :=
  .bind madeOf_requestedParameter fun _ => .bind (.discard .pop) fun _ =>
    .bind (.examine fun _ _ => rfl) fun _ =>
    .of_modify (fun _ _ => rfl) fun _ => .elsewhere rfl rfl rfl rfl rfl rfl

theorem madeOf_setReturnPointer (h : able .link) : MadeOf able setReturnPointer :=
  .bind madeOf_requestedReturn fun _ => .bind (.discard .pop) fun _ =>
    .bind (.examine fun _ _ => rfl) fun _ =>
    .of_modify (fun _ _ => rfl) fun _ => .link h rfl rfl rfl rfl

theorem madeOf_parameterItem : MadeOf able parameterItem :=
  .bind madeOf_requestedParameter fun _ => .bind (.examine fun _ _ => rfl) fun _ =>
    .bind (.discard .pop) fun _ => .push _

theorem madeOf_returnItem : MadeOf able returnItem :=
  .bind madeOf_requestedReturn fun _ => .bind (.examine fun _ _ => rfl) fun _ =>
    .bind (.discard .pop) fun _ => .push _

theorem madeOf_popReturn (h : able .link) : MadeOf able popReturn := by
  have happly : ∀ s, popReturn s = match s.returns.pop with
      | .ok (v, returns) => .ok v { s with returns }
      | .error cause => .error { cause } s := by
    intro s
    change EStateM.bind (monadLift s.returns.pop)
      (fun popped => do modify ({ · with returns := popped.2 }); return popped.1) s = _
    rcases s.returns.pop with cause | ⟨v, returns⟩ <;> rfl
  refine .change (fun s around => ?_) fun s => ?_
  · have hsame : (s.within around).returns = s.returns := rfl
    rw [happly, happly, hsame]
    rcases s.returns.pop with cause | ⟨v, rest⟩ <;> rfl
  · rw [after, happly]
    rcases s.returns.pop with cause | ⟨v, rest⟩
    · exact .refl s
    · exact .link h rfl rfl rfl rfl

theorem madeOf_toReturn (h : able .link) : MadeOf able toReturn :=
  .bind .pop fun _ => .of_modify (fun _ _ => rfl) fun _ => .link h rfl rfl rfl rfl

theorem madeOf_fromReturn (h : able .link) : MadeOf able fromReturn :=
  .bind (madeOf_popReturn h) fun _ => .push _

theorem madeOf_copyReturn : MadeOf able copyReturn :=
  .bind (.examine fun _ _ => rfl) fun _ => .push _

theorem madeOf_dropReturn (h : able .link) : MadeOf able dropReturn :=
  .discard (madeOf_popReturn h)

/-! ## Input and output -/

theorem madeOf_key : MadeOf able key := by
  have heq : key = (expected Input.next >>= fun c => push (.char c)) := by
    funext s
    rcases h : s.input.next with ⟨_ | c, input⟩
    · have hread : readChar s = .ok none { s with input } := by
        change EStateM.Result.ok s.input.next.1 { s with input := s.input.next.2 } = _
        rw [h]
      have herror : expected Input.next s =
          .error { cause := .endOfInput } { s with input } := by rw [expected, h]
      rw [key, bind_ok hread, bind_error herror]
      rfl
    · have hread : readChar s = .ok (some c) { s with input } := by
        change EStateM.Result.ok s.input.next.1 { s with input := s.input.next.2 } = _
        rw [h]
      have hok : expected Input.next s = .ok c { s with input } := by rw [expected, h]
      rw [key, bind_ok hread, bind_ok hok]
  rw [heq]
  exact .bind (.read .char) fun _ => .push _

theorem madeOf_word : MadeOf able word := .bind madeOf_readToken fun _ => .push _

theorem madeOf_initialChar : MadeOf able initialChar := by
  refine .bind madeOf_readToken fun token => ?_
  split
  · exact .of_pure _
  · exact .fail

theorem madeOf_char : MadeOf able char := .bind madeOf_initialChar fun _ => .push _

theorem madeOf_bracketChar : MadeOf able bracketChar :=
  .bind (madeOf_requireCompiling _) fun _ => .bind madeOf_initialChar fun _ => .compilePush _

theorem madeOf_emit : MadeOf able emit :=
  .bind (.examine fun _ _ => rfl) fun _ => .bind (.lift _) fun _ => .bind (.discard .pop) fun _ =>
    .write _

theorem madeOf_quotedText : MadeOf able quotedText := by
  rw [quotedText_eq]
  exact .read (.text '"')

theorem madeOf_dotQuote : MadeOf able dotQuote := by
  refine .bind madeOf_quotedText fun text => .bind (.examine fun _ _ => rfl) fun mode => ?_
  cases mode with
  | interpret => exact .write _
  | compile =>
      exact .bind (.examine fun _ _ => rfl) fun _ => .bind (.compilePush _) fun _ =>
        .discard (.compile _)

theorem madeOf_stringQuote : MadeOf able stringQuote := by
  refine .bind madeOf_quotedText fun text => .bind (.examine fun _ _ => rfl) fun mode => ?_
  cases mode with
  | interpret => exact .push _
  | compile => exact .compilePush _

theorem madeOf_words : MadeOf able words := by
  have heq : words = (writeNames >>= fun _ => write "\n") := by
    rw [writeNames, bind_assoc]
    rfl
  rw [heq]
  exact .bind .writeNames fun _ => .write _

/-- A body is scanned without a look at the surroundings. -/
theorem bodyItems_within (s : State) (around : Surroundings) (kernel : Kernel) (here cursor : Int)
    (found : Array Int) :
    (s.within around).bodyItems kernel here cursor found =
      s.bodyItems kernel here cursor found :=
  State.bodyItems_congr (s := s) (t := s.within around) (fun _ => rfl) (fun _ _ _ => rfl) found

theorem decompile_within (s : State) (around : Surroundings) (entry : Entry) :
    (s.within around).decompile entry = s.decompile entry := by
  simp only [State.decompile, bodyItems_within]
  rfl

theorem madeOf_see : MadeOf able see := by
  refine .bind madeOf_readToken fun name => .get_bind (fun _ _ => rfl) fun s => ?_
  split
  · exact .bind (.examine fun s around => decompile_within s around _) fun _ =>
      .bind (.write _) fun _ => .write _
  · exact .fail

/-! ## Acting on a token -/

/-- What `INTERPRET` does once it knows the meaning of a token. -/
theorem madeOf_act (mode : Mode) (meaning : Meaning) : MadeOf able (act mode meaning) := by
  cases meaning with
  | word entry =>
      rw [act]
      split
      · exact madeOf_jump _
      · exact .bind (.discard (.compile _)) fun _ => madeOf_resume
  | literal v =>
      cases mode with
      | interpret => exact .bind (.push _) fun _ => madeOf_resume
      | compile => exact .bind (.compilePush _) fun _ => madeOf_resume

/-! ## All words -/

theorem madeOf_of_mem_libraryWords : ∀ word ∈ libraryWords,
    MadeOf (fun ability => word.name ∈ ability.words) word.effect := by
  intro word hword
  by_cases hname : word.name = "+!"
  · have heffect : ∀ word ∈ libraryWords, word.name = "+!" → word.effect = plusStore := by
      simp [libraryWords]
    rw [heffect word hword hname, hname]
    exact madeOf_plusStore (by decide)
  · exact .of_isLocal (isLocal_of_mem_libraryWords word hword hname)

theorem madeOf_of_mem_kernelWords : ∀ word ∈ kernelWords, word.name ≠ "INTERPRET" →
    word.name ≠ "(" → MadeOf (fun ability => word.name ∈ ability.words) word.effect := by
  simp only [kernelWords, List.forall_mem_cons]
  refine ⟨fun _ _ => madeOf_resume, fun _ _ => madeOf_enter (by decide),
    fun _ _ => madeOf_exit (by decide), fun _ _ => madeOf_lit, fun _ _ => madeOf_branch,
    fun _ _ => madeOf_zeroBranch, fun _ _ => madeOf_execute, fun h _ => absurd rfl h,
    fun _ _ => madeOf_restart (by decide),
    fun _ _ => madeOf_requestHalt (by decide) _, fun _ _ => .push _, fun _ _ => .push _,
    fun _ _ => .push _, fun _ _ => .push _, fun _ _ => madeOf_fetch,
    fun _ _ => madeOf_store (by decide), fun _ _ => madeOf_comma, fun _ _ => madeOf_compileComma,
    fun _ _ => madeOf_allot (by decide), fun _ _ => madeOf_colon (by decide),
    fun _ _ => madeOf_semicolon, fun _ _ => .setMode _, fun _ _ => .setMode _,
    fun _ _ => madeOf_immediate,
    fun _ _ => madeOf_toggleHidden, fun _ _ => madeOf_hide, fun _ _ => madeOf_create (by decide),
    fun _ _ => madeOf_variableWord (by decide),
    fun _ _ => madeOf_constant (by decide), fun _ _ => madeOf_dovar,
    fun _ _ => madeOf_docon, fun _ _ => madeOf_literal, fun _ _ => madeOf_recurse,
    fun _ _ => madeOf_tick, fun _ _ => madeOf_bracketTick, fun _ _ => madeOf_forget,
    fun _ _ => madeOf_parameterPointer, fun _ _ => madeOf_setParameterPointer,
    fun _ _ => madeOf_returnPointer, fun _ _ => madeOf_setReturnPointer (by decide),
    fun _ _ => madeOf_parameterItem, fun _ _ => madeOf_returnItem,
    fun _ _ => madeOf_toReturn (by decide), fun _ _ => madeOf_fromReturn (by decide),
    fun _ _ => madeOf_copyReturn, fun _ _ => madeOf_dropReturn (by decide),
    fun _ _ => madeOf_key, fun _ _ => madeOf_word, fun _ _ => madeOf_char,
    fun _ _ => madeOf_bracketChar, fun _ _ => madeOf_emit, fun _ _ => .of_isLocal isLocal_type,
    fun _ _ => madeOf_dotQuote, fun _ _ => madeOf_stringQuote, fun _ h => absurd rfl h,
    fun _ _ => .dropLine, fun _ _ => madeOf_words, fun _ _ => madeOf_see, ?_⟩
  exact fun _ h => by cases h

/-- Every word but `INTERPRET` and `(` is made of the changes that it is able to make. -/
theorem madeOf_of_mem_vocabulary {word : Primitive} (h : word ∈ kernelWords ++ libraryWords)
    (hinterpret : word.name ≠ "INTERPRET") (hcomment : word.name ≠ "(") :
    MadeOf (fun ability => word.name ∈ ability.words) word.effect := by
  rcases List.mem_append.mp h with hkernel | hlibrary
  · exact madeOf_of_mem_kernelWords word hkernel hinterpret hcomment
  · exact madeOf_of_mem_libraryWords word hlibrary

end ThreadedForth.Words
