import Mathlib.Data.List.Forall2
import ThreadedForth.Proofs.OuterLoop.Evaluating

/-!
# Publishing a definition

A name is entered hidden by `:` and revealed by `;`.  Between the two the text may come to nothing,
and then a definition without an end stays behind.  Here it is shown that nobody gets to see it: in
every state from `:` to the cell before `;`, and in every state of the recovery from a token that
means nothing, all names mean what they meant before.  One step of `;` then changes the meaning of
the one name, wherever `HERE` is and whatever names its address has had before.

## Strategy

The dictionary changes in two steps only, those in which the effects of `:` and of `;` take place.
All others are `Steady`, so a path can be checked by looking at its dictionaries before and after
these two.
-/

namespace ThreadedForth

open Effect

/-! ## Dictionaries -/

namespace Dictionary

/-- All names mean the same in both. -/
def AgreesWith (dictionary before : Dictionary) : Prop :=
  ∀ name, dictionary.findVisible? name = before.findVisible? name

/-- One name, however it is written, means the definition at an address, and all others mean what
they meant before. -/
def Publishes (dictionary before : Dictionary) (name : String) (address : Address) : Prop :=
  ∀ other, dictionary.findVisible? other =
    if fold name = fold other then some ⟨fold name, address, false, false⟩
    else before.findVisible? other

theorem agreesWith_define_hidden (dictionary : Dictionary) (name : String) (here : Address) :
    (dictionary.define name here false true).AgreesWith dictionary :=
  fun _ => findVisible?_define_hidden ..

/-- A name that was entered hidden can be revealed, and that publishes it. -/
theorem exists_publishes (dictionary : Dictionary) (name : String) (address : Address) :
    ∃ revealed, (dictionary.define name address false true).setHidden? address false =
        some revealed ∧ revealed.Publishes dictionary name address := by
  obtain ⟨revealed, hrevealed, -, hchain⟩ := dictionary.exists_revealed name address
  refine ⟨revealed, hrevealed, fun other => ?_⟩
  rw [findVisible?, hchain other]
  split
  · rfl
  · rfl

end Dictionary

/-! ## Runs with an eye on the dictionary -/

namespace Machine

/-- Some steps of a run that do not halt, and all the time the dictionary is as said. -/
def ComesThrough (table : PrimitiveTable) (kernel : Kernel) (report : Bool) (P : Dictionary → Prop)
    (before after : Progress) : Prop :=
  P before.1.dictionary ∧
    Relation.ReflTransGen (fun s t => Goes table kernel report s t ∧ P t.1.dictionary) before after

section Watching

variable {table : PrimitiveTable} {kernel : Kernel} {report : Bool} {P : Dictionary → Prop}
variable {before middle after : Progress} {s t : State}

theorem ComesThrough.trans (h : ComesThrough table kernel report P before middle)
    (h' : ComesThrough table kernel report P middle after) :
    ComesThrough table kernel report P before after :=
  ⟨h.1, h.2.trans h'.2⟩

theorem comesThrough_of_goes (h : Goes table kernel report before after)
    (hbefore : P before.1.dictionary)
    (hafter : P after.1.dictionary) : ComesThrough table kernel report P before after :=
  ⟨hbefore, .single ⟨h, hafter⟩⟩

/-- On steps that leave the dictionary alone it is enough to look once. -/
theorem comesThrough_of_steady (h : Steady table s t) (hs : P s.dictionary)
    (recovered : Array Error) :
    ComesThrough table kernel report P (s, recovered) (t, recovered) := by
  induction h with
  | refl => exact ⟨hs, .refl⟩
  | @tail u v hsteady hstep ih =>
      have hu : P u.dictionary := (Steady.dictionary hsteady).symm ▸ hs
      exact ih.trans (comesThrough_of_goes (goes_of_quiet hstep.1 recovered) hu (hstep.2.symm ▸ hu))

end Watching

end Machine

/-- Which names there are is nothing that the outer loop needs. -/
theorem Machine.Waits.with_dictionary {m booted : Machine} {kernel : Kernel} {here : Address}
    (hm : m.Waits booted kernel here) (dictionary : Dictionary) :
    Machine.Waits { m with state := { m.state with dictionary } } booted kernel here :=
  ⟨hm.primitives, hm.known, hm.remembered, ⟨hm.loop.depth, hm.loop.place⟩, hm.owned, hm.mode,
    hm.next, hm.low⟩

/-! ## The body -/

/-- The token means that, and it is not executed while a definition is in progress. -/
def State.ReadsAs (s : State) (token : String) (meaning : Meaning) : Prop :=
  s.classify token = .ok meaning ∧ meaning.IsPassive

section Body

variable {w : Outfit} {s t : State} {here : Address} {rest : Input} {tokens : List String}
variable {meanings : List Meaning}

theorem State.ReadsAs.congr_all (h : List.Forall₂ s.ReadsAs tokens meanings)
    (hagrees : t.dictionary.AgreesWith s.dictionary)
    (hbase : t.memory.get Variable.base.address = s.memory.get Variable.base.address) :
    List.Forall₂ t.ReadsAs tokens meanings :=
  h.imp fun token _ hreads => ⟨(classify_congr (hagrees token) hbase).trans hreads.1, hreads.2⟩

/-- Tokens that are not executed are appended one after the other. -/
theorem steady_compiled_all (hs : s.IsCompiling w here)
    (hreads : List.Forall₂ s.ReadsAs tokens meanings)
    (hdelivers : s.input.Delivers (tokens.map .token) rest)
    (hroom : here.toInt + (meanings.flatMap Meaning.cells).length ≤ Int64.maxValue.toInt) :
    ∃ memory, s.memory.Extends memory here (meanings.flatMap Meaning.cells) ∧
      Steady w.table s { s with memory, input := rest } := by
  induction tokens generalizing s here meanings with
  | nil =>
      cases hreads
      cases hdelivers
      exact ⟨s.memory, Memory.extends_nil hs.next, .refl s⟩
  | cons token tokens ih =>
      obtain ⟨meaning, meanings, hfirst, hmore, rfl⟩ := List.forall₂_cons_left_iff.mp hreads
      obtain ⟨middle, ⟨hread⟩, hdelivers⟩ := Input.delivers_cons hdelivers
      have hfour := hs.four_le
      rw [List.flatMap_cons] at hroom ⊢
      have hlength : (meaning.cells ++ meanings.flatMap Meaning.cells).length = _ :=
        List.length_append
      obtain ⟨between, hextends, hsteady⟩ :=
        steady_compiled hs hread hfirst.1 hfirst.2 (by omega)
      have hend : (here + Int64.ofNat meaning.cells.length).toInt =
          here.toInt + meaning.cells.length := Address.toInt_add_ofNat (by omega)
      have hbase : between.get Variable.base.address = s.memory.get Variable.base.address :=
        hextends.same_of_lt (by decide) (Int.lt_of_lt_of_le (by decide) hfour)
      obtain ⟨memory, hextends', hsteady'⟩ := ih (hs.grow hextends (by omega) middle)
        (State.ReadsAs.congr_all hmore (fun _ => rfl) hbase) hdelivers (by omega)
      exact ⟨memory, hextends.trans hextends' (by omega) (by omega), hsteady.trans hsteady'⟩

end Body

/-! ## Giving up -/

section GivingUp

variable {w : Outfit} {s : State} {report : Bool} {P : Dictionary → Prop} {token : String}
variable {rest : Input}

/-- At a token that means nothing the machine gives up and gets back to the prompt by way of `QUIT`,
in interpret mode, with the rest of the line dropped and no name touched. -/
theorem exists_comesThrough_of_undefined (hs : s.AtPrompt w) (hkernel : s.kernel? = some w.kernel)
    {mode : Mode} (hmode : s.mode = .ok mode) (hread : s.input.readToken = (some token, rest))
    {cause : Cause} (hmeaning : s.classify token = .error cause) (hP : P s.dictionary)
    (recovered : Array Error) :
    ∃ error t, error.cause = cause ∧
      Machine.ComesThrough w.table w.kernel report P (s, recovered) (t, recovered.push error) ∧
        t.AtPrompt w ∧
      t.memory.get Variable.state.address = .literal (.int 0) ∧ t.parameters = s.parameters ∧
      t.input = rest.dropLine ∧ t.dictionary = s.dictionary := by
  obtain ⟨context, hstep⟩ := step_interpret_error hs hread hmode hmeaning
  obtain ⟨output, hrecover⟩ := exists_recover report w.kernel.quit { cause, context } s
  let stopped : State := { s with input := rest.dropLine, output, ip := w.kernel.quit }
  have hgoes : Machine.Goes w.table w.kernel report _ _ := Machine.goes_of_error hstep recovered
  rw [hrecover rest] at hgoes
  have hback := steady_prompted_of_quit (s := stopped) hs.memory hkernel hs.halt rfl
  refine ⟨_, _, rfl, (Machine.comesThrough_of_goes hgoes hP hP).trans
    (Machine.comesThrough_of_steady hback hP _), ?_, Memory.get_set_self .., rfl, rfl, rfl⟩
  have hmemory : (stopped.setMode .interpret).memory.IsIntact w := isIntact_setMode hs.memory _
  exact ⟨⟨rfl, rfl, Nat.one_ne_zero, hs.halt⟩, hmemory⟩

end GivingUp

/-! ## The theorem -/

/-- The machine is about to read the next token, and the kernel is as it was set up. -/
structure State.IsBack (s : State) (booted : Machine) (kernel : Kernel) : Prop
    extends s.Prompts kernel where
  owned : ∀ address, kernel.Owns address → s.memory.get address = booted.state.memory.get address

section Publishing

variable {w : Outfit} {m : Machine} {here : Address} {name : String} {source : String}
variable {tokens : List String}
variable {meanings : List Meaning} {rest : Input}

/-- The machine has read a definition up to somewhere in its body. -/
structure Machine.Enters (m : Machine) (w : Outfit) (here : Address) (name : String)
    (cells : List Cell) (s : State) : Prop
    extends s.IsCompiling w (here + 1 + Int64.ofNat cells.length) where
  extended : (m.state.memory.opened here).Extends s.memory here
    (.native w.kernel.docol :: cells)
  dictionary : s.dictionary = m.state.dictionary.define name here false true
  parameters : s.parameters = m.state.parameters

/-- While the body is read, all names mean what they meant before. -/
theorem Machine.IsReady.exists_enters (hm : m.IsReady w here) {immediate : Bool}
    (hcolon : m.state.dictionary.Resolves ":" (kernelAddress ":") immediate)
    (hsource : (Input.ofString source).Delivers
      (.token ":" :: .token name :: tokens.map .token) rest)
    (hreads : List.Forall₂ m.state.ReadsAs tokens meanings)
    (hroom : here.toInt + ((meanings.flatMap Meaning.cells).length + 2) ≤ Int64.maxValue.toInt) :
    ∃ s, ComesThrough w.table w.kernel m.report (·.AgreesWith m.state.dictionary)
      (m.started source, m.recovered)
        (s, m.recovered) ∧
      m.Enters w here name (meanings.flatMap Meaning.cells) s ∧ s.input = rest := by
  have hlow := hm.low
  have hfour := w.four_le_of_past_le hlow
  obtain ⟨colon, hcolonFind, hcolonAddress, -⟩ := hcolon
  obtain ⟨named, ⟨hcolonRead⟩, hsource⟩ := Input.delivers_cons hsource
  obtain ⟨opened, ⟨hnameRead⟩, hbody⟩ := Input.delivers_cons hsource
  -- to the first prompt
  have hcode : (m.started source).InCode w := ⟨hm.loop.depth, rfl, hm.intact.toHasPrimitives⟩
  have hbegin := steady_prompted_of_loop hcode hm.intact ⟨hm.loop.depth, hm.loop.place⟩
  -- over the colon
  obtain ⟨begun, u, v, hbegun, hbefore, hopens, hopened⟩ := quiet_colon (hm.atPrompt source)
    hm.kernel hm.mode hm.next hlow (by omega) hcolonFind hcolonAddress hcolonRead hnameRead
  have hcompiling := isCompiling_opened (hm.atPrompt source) hm.kernel hlow (by omega) hbegun
    (m.state.dictionary.define name here false true) opened
  have hagrees := m.state.dictionary.agreesWith_define_hidden name here
  have hu : u.dictionary.AgreesWith m.state.dictionary := by
    rw [hbefore.dictionary]
    exact fun _ => rfl
  have hv : v.dictionary.AgreesWith m.state.dictionary := by
    rw [← hopened.dictionary]
    exact hagrees
  -- and to the end of the body
  have hone : (here + 1).toInt = here.toInt + 1 := Address.toInt_add_one (by omega)
  obtain ⟨memory, hextends, hsteady⟩ := steady_compiled_all hcompiling
    (State.ReadsAs.congr_all hreads hagrees (hbegun.base hfour)) hbody (by omega)
  have hgrown := hcompiling.grow hextends (by omega) rest
  have hlength : ([Cell.native w.kernel.docol] ++ meanings.flatMap Meaning.cells).length =
      (meanings.flatMap Meaning.cells).length + 1 := List.length_cons
  have hall := hbegun.trans hextends (by omega) (by omega)
  refine ⟨_, ?_, ⟨hgrown, hall, rfl, rfl⟩, rfl⟩
  have hstarted : (m.started source).dictionary.AgreesWith m.state.dictionary := fun _ => rfl
  let P : Dictionary → Prop := (·.AgreesWith m.state.dictionary)
  exact ((comesThrough_of_steady (P := P) (hbegin.trans hbefore) hstarted _).trans
    (comesThrough_of_goes (goes_of_quiet hopens _) hu hv)).trans
    (comesThrough_of_steady (hopened.trans hsteady) hv _)

/-- **A definition is published in one step.**  Let a machine have been set up with any libraries,
and let a machine like it wait in the outer loop, in interpret mode, with its kernel in place, and
let `HERE` lie above the outer loop; it may have been moved back onto addresses that have names
already.  Let `:` and `;` be those of the kernel.  The source begins with `:`, any name, and tokens
that are literals or words that are not immediate, for whose cells there is room.

Then the machine gets through these tokens, and in every state on the way all names mean what they
meant before.
* If the next token means nothing, the machine fails and recovers, and in every state on the way all
  names still mean that.  At the prompt that it gets back to, `STATE` is 0 and the parameters are
  the same as at the beginning.
* If the next token is `;`, there is one step before which all names mean what they meant, and after
  which the name means the definition at the address `HERE` had, and all others what they meant. -/
theorem publishes_in_one_step {fresh booted : Machine} {libraries : List (List Primitive)}
    {kernel : Kernel} (hbooted : fresh.bootstrap libraries = .ok () booted)
    (hfits : (kernelWords ++ libraries.flatten).length < 2 ^ 61)
    (hm : m.Waits booted kernel here) {immediate : Bool}
    (hcolon : m.state.dictionary.Resolves ":" (kernelAddress ":") immediate)
    (hsemicolon : m.state.dictionary.Resolves ";" (kernelAddress ";") true)
    (hsource : (Input.ofString source).Delivers
      (.token ":" :: .token name :: tokens.map .token) rest)
    (hreads : List.Forall₂ m.state.ReadsAs tokens meanings)
    (hroom : here.toInt + ((meanings.flatMap Meaning.cells).length + 2) ≤ Int64.maxValue.toInt) :
    ∃ s, Machine.ComesThrough m.primitives kernel m.report (·.AgreesWith m.state.dictionary)
        (m.started source, m.recovered) (s, m.recovered) ∧
      s.IsBack booted kernel ∧ s.mode = .ok .compile ∧ s.input = rest ∧
      (∀ token last, rest.readToken = (some token, last) →
        m.state.classify token = .error (.undefinedWord token) →
        ∃ error t, error.cause = .undefinedWord token ∧
          Machine.ComesThrough m.primitives kernel m.report (·.AgreesWith m.state.dictionary)
            (s, m.recovered) (t, m.recovered.push error) ∧
          t.IsBack booted kernel ∧
          t.memory.get Variable.state.address = .literal (.int 0) ∧
          t.parameters = m.state.parameters ∧ t.input = last.dropLine) ∧
      (∀ last, rest.readToken = (some ";", last) →
        ∃ u v t, Machine.ComesThrough m.primitives kernel m.report
            (·.AgreesWith m.state.dictionary) (s, m.recovered) (u, m.recovered) ∧
          Machine.Goes m.primitives kernel m.report (u, m.recovered) (v, m.recovered) ∧
          Machine.ComesThrough m.primitives kernel m.report
            (·.Publishes m.state.dictionary name here) (v, m.recovered) (t, m.recovered) ∧
          t.IsBack booted kernel ∧
          t.memory.get Variable.state.address = .literal (.int 0) ∧
          t.parameters = m.state.parameters ∧ t.input = last) := by
  obtain ⟨w, rfl, hintact, hm⟩ := hm.isReady hbooted hfits
  have hback : ∀ t : State, t.AtPrompt w → t.IsBack booted w.kernel := fun t ht =>
    ⟨ht.toPrompts, fun _ => Outfit.get_eq_of_owns hintact ht.memory⟩
  have hlow := hm.low
  have hfour := w.four_le_of_past_le hlow
  obtain ⟨s, hcomes, hs, hinput⟩ := hm.exists_enters hcolon hsource hreads hroom
  have hagrees : s.dictionary.AgreesWith m.state.dictionary := by
    rw [hs.dictionary]
    exact m.state.dictionary.agreesWith_define_hidden name here
  let P : Dictionary → Prop := (·.AgreesWith m.state.dictionary)
  rw [hm.primitives]
  refine ⟨s, hcomes, hback s hs.toAtPrompt, hs.mode, hinput, ?_, ?_⟩
  · intro token last hread hmeaning
    rw [← hinput] at hread
    have hbase := hs.extended.base hfour
    have hmeaning' : s.classify token = .error (.undefinedWord token) :=
      (classify_congr (hagrees token) hbase).trans hmeaning
    obtain ⟨error, t, hcause, hcomes', ht, hstate, hparameters, hleft, -⟩ :=
      exists_comesThrough_of_undefined (P := P) hs.toAtPrompt hs.kernel hs.mode hread hmeaning'
        hagrees m.recovered
    exact ⟨error, t, hcause, hcomes', hback t ht, hstate, hparameters.trans hs.parameters, hleft⟩
  · intro last hread
    rw [← hinput] at hread
    obtain ⟨semicolon, hfind, haddress, hsemicolonImmediate⟩ := hsemicolon
    obtain ⟨revealed, hrevealed, hpublishes⟩ := m.state.dictionary.exists_publishes name here
    rw [← hs.dictionary] at hrevealed
    have hone : (here + 1).toInt = here.toInt + 1 := Address.toInt_add_one (by omega)
    have hnext : (here + 1 + Int64.ofNat (meanings.flatMap Meaning.cells).length).toInt =
        here.toInt + 1 + (meanings.flatMap Meaning.cells).length := by
      rw [Address.toInt_add_ofNat (by omega), hone]
    obtain ⟨memory, u, v, -, hbefore, hcloses, hafter, hmemory⟩ := quiet_semicolon
      hs.toIsCompiling (hs.extended.latest hfour) hrevealed (by omega) ((hagrees ";").trans hfind)
      haddress hsemicolonImmediate hread
    have hv : v.dictionary.Publishes m.state.dictionary name here := by
      rw [← hafter.dictionary]
      exact hpublishes
    exact ⟨u, v, _, Machine.comesThrough_of_steady (P := P) hbefore hagrees _,
      Machine.goes_of_quiet hcloses _,
      Machine.comesThrough_of_steady (P := (·.Publishes m.state.dictionary name here)) hafter hv _,
      hback _ ⟨⟨hs.ip, hs.nip, hs.depth, hs.halt⟩, hmemory⟩, Memory.get_set_self ..,
      hs.parameters, rfl⟩

end Publishing

/-- A machine may wait with `HERE` at the address of `OLD`, at which there is a forgotten name
too. -/
theorem exists_waits_moved_back : ∃ m : Machine,
    m.Waits Machine.booted standardKernel 219 ∧
    (∀ name, m.state.dictionary.findVisible? name =
      if "OLD" = Dictionary.fold name then some ⟨"OLD", 219, false, false⟩
      else Machine.booted.state.dictionary.findVisible? name) ∧
    m.state.dictionary.newestNames[(219 : Address)]? = some "GONE" ∧ m.state.base = .ok 10 := by
  have hold : Dictionary.fold "OLD" = "OLD" := by decide +kernel
  have hgone : Dictionary.fold "GONE" = "GONE" := by decide +kernel
  let dictionary := (Machine.booted.state.dictionary.define "OLD" 219 false false).define "GONE"
    219 false true
  have hbase : ∀ s : State, State.base { s with dictionary } = s.base := fun _ => rfl
  refine ⟨_, (Machine.waits_waiting {}).with_dictionary dictionary, fun name => ?_, ?_,
    (hbase _).trans (Machine.base_waiting {})⟩
  · change dictionary.findVisible? name = _
    rw [Dictionary.findVisible?_define_hidden, Dictionary.findVisible?, Dictionary.chain_define,
      hold]
    split
    · rfl
    · rfl
  · simp [dictionary, Dictionary.define, hold, hgone]

/-- `HERE` was moved back to the address of `OLD`, at which there is a forgotten name too.  A new
`OLD` that calls the old one is given up, or it is published. -/
theorem publishes_in_one_step_moved_back : ∃ m : Machine,
    m.Waits Machine.booted standardKernel 219 ∧
    m.state.dictionary.findVisible? "OLD" = some ⟨"OLD", 219, false, false⟩ ∧
    m.state.dictionary.newestNames[(219 : Address)]? = some "GONE" ∧
    (∃ error t, error.cause = .undefinedWord "nope" ∧
      Machine.ComesThrough m.primitives standardKernel m.report (·.AgreesWith m.state.dictionary)
        (m.started ": OLD 5 old nope ", m.recovered) (t, m.recovered.push error) ∧
      t.IsBack Machine.booted standardKernel ∧
        t.memory.get Variable.state.address = .literal (.int 0)) ∧
    ∃ u v t, Machine.ComesThrough m.primitives standardKernel m.report
      (·.AgreesWith m.state.dictionary)
        (m.started ": OLD 5 old ; ", m.recovered) (u, m.recovered) ∧
      Machine.Goes m.primitives standardKernel m.report (u, m.recovered) (v, m.recovered) ∧
      Machine.ComesThrough m.primitives standardKernel m.report
        (·.Publishes m.state.dictionary "OLD" 219) (v, m.recovered)
        (t, m.recovered) ∧ t.IsBack Machine.booted standardKernel := by
  obtain ⟨m, hwaits, hfind, hnewest, hbase⟩ := exists_waits_moved_back
  have hvisible : m.state.dictionary.findVisible? "OLD" = some ⟨"OLD", 219, false, false⟩ :=
    (hfind "OLD").trans (if_pos (by decide +kernel))
  have hcolon : m.state.dictionary.Resolves ":" (kernelAddress ":") false :=
    ⟨_, ((hfind ":").trans (if_neg (by decide +kernel))).trans
      (Machine.findVisible?_booted 19 (by decide) rfl), rfl, rfl⟩
  have hsemicolon : m.state.dictionary.Resolves ";" (kernelAddress ";") true :=
    ⟨_, ((hfind ";").trans (if_neg (by decide +kernel))).trans
      (Machine.findVisible?_booted 20 (by decide) rfl), rfl, rfl⟩
  have hnone : ∀ token ∈ ["5", "nope"], "OLD" ≠ Dictionary.fold token ∧
      Machine.booted.state.dictionary.findVisible? token = none := by decide +kernel
  have hundefined : ∀ token ∈ ["5", "nope"], m.state.dictionary.findVisible? token = none := by
    intro token hmem
    rw [hfind, if_neg (hnone token hmem).1, (hnone token hmem).2]
  have hfive : m.state.classify "5" = .ok (.literal (.int 5)) :=
    classify_integer (hundefined "5" (by decide)) hbase (by decide +kernel)
  have hold : m.state.classify "old" = .ok (.word ⟨"OLD", 219, false, false⟩) :=
    classify_word ((hfind "old").trans (if_pos (by decide +kernel)))
  have hnope : m.state.classify "nope" = .error (.undefinedWord "nope") := by
    rw [State.classify, hundefined "nope" (by decide), hbase]
    rfl
  have hreads : List.Forall₂ m.state.ReadsAs ["5", "old"]
      [.literal (.int 5), .word ⟨"OLD", 219, false, false⟩] :=
    .cons ⟨hfive, trivial⟩ (.cons ⟨hold, rfl⟩ .nil)
  let items : List Item := .token ":" :: .token "OLD" :: ["5", "old"].map .token
  have hgivesUp : Spells (items ++ [.token "nope"]) ": OLD 5 old nope ".toList :=
    spells_separated (by decide)
  have hcloses : Spells (items ++ [.token ";"]) ": OLD 5 old ; ".toList :=
    spells_separated (by decide)
  refine ⟨m, hwaits, hvisible, hnewest, ?_, ?_⟩
  · obtain ⟨rest, left, hsource, hread⟩ := hgivesUp.delivers_last
    obtain ⟨s, hcomes, -, -, -, hgivesUp, -⟩ :=
      publishes_in_one_step bootstrap_booted (by decide) hwaits hcolon hsemicolon hsource hreads
        (by decide)
    obtain ⟨error, t, hcause, hcomes', ht, hstate, -, -⟩ := hgivesUp "nope" left hread hnope
    exact ⟨error, t, hcause, hcomes.trans hcomes', ht, hstate⟩
  · obtain ⟨rest, left, hsource, hread⟩ := hcloses.delivers_last
    obtain ⟨s, hcomes, -, -, -, -, hcloses⟩ :=
      publishes_in_one_step bootstrap_booted (by decide) hwaits hcolon hsemicolon hsource hreads
        (by decide)
    obtain ⟨u, v, t, hcomes', hgoes, hcomes'', ht, -, -, -⟩ := hcloses left hread
    exact ⟨u, v, t, hcomes.trans hcomes', hgoes, hcomes'', ht⟩

end ThreadedForth
