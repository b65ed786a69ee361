import Mathlib.Tactic.MkIffOfInductiveProp
import ThreadedForth.Proofs.Dictionary.Lookups
import ThreadedForth.Proofs.Machine.Naming
import ThreadedForth.Proofs.Machine.Nesting
import ThreadedForth.Proofs.Machine.Recovering

/-!
# Backtraces

A failure is reported with the names of the words that wait.  The machine keeps no such names: all
it has is `nip` and the values on the return stack, and it calls each of these addresses by the
nearest name at or below it.  In a program whose definitions were made while `HERE` never moved
back, this name is that of the word which waits there, since its way back lies behind its codeword
and nothing inside a definition has a name of its own.

What else is on the return stack is taken for addresses too, as far as it is integers.  So whatever
was left there at the prompt shows up behind the words that are active.

All this is so with any libraries, as long as their words enter names where the next definition goes
and take none away.
-/

namespace ThreadedForth

open Effect Words

/-! ## Nearest names -/

namespace Dictionary

variable {dictionary : Dictionary} {start place : Address} {name : String}

/-- An address lies in the last word that begins at or below it. -/
theorem containing?_of_nameAt? (hname : dictionary.nameAt? start = some name) (hle : start ≤ place)
    (halone : ∀ address, start < address → address ≤ place → dictionary.nameAt? address = none) :
    dictionary.containing? place = some (start, name) := by
  rw [containing?, getEntryLE?_eq_some_iff]
  refine ⟨hname, hle, fun other hother hnamed => ?_⟩
  by_contra hlater
  exact hnamed (halone other (Int64.not_le.mp hlater) hother)

theorem containing?_self (hname : dictionary.nameAt? start = some name) :
    dictionary.containing? start = some (start, name) :=
  containing?_of_nameAt? hname (Int64.le_refl _) fun _ hlater hle =>
    absurd hlater (Int64.not_lt.mpr hle)

end Dictionary

/-- The definitions of the program lie above the outer loop, each has a name, and no address inside
one has a name of its own. -/
structure Definitions.IsNamed (w : Outfit) (program : Definitions) (dictionary : Dictionary) :
    Prop where
  low : ∀ start body, program.body start = some body → w.past ≤ start.toInt
  room : ∀ start body, program.body start = some body →
    start.toInt + (definitionCells w.kernel body).length ≤ Int64.maxValue.toInt
  named : ∀ start body, program.body start = some body → dictionary.nameAt? start ≠ none
  alone : ∀ start body, program.body start = some body → ∀ address, start < address →
    address.toInt < start.toInt + (definitionCells w.kernel body).length →
    dictionary.nameAt? address = none

/-- The words that some addresses lie in, those in the outer loop left out. -/
def State.framesOf (s : State) (links : List Address) : List String :=
  (links.filter (! s.isOuterLoop ·)).filterMap fun link =>
    (s.dictionary.containing? link).map (·.2)

section Framing

variable {w : Outfit} {program : Definitions} {loop start place link : Address}
variable {base items : List Value} {active : List Address} {first rest : List Instruction}
variable {s : State}

theorem State.backtrace_eq (s : State) : s.backtrace =
    s.framesOf ((if s.depth = 0 then [] else [s.nip]) ++ s.returns.items.filterMap Value.asInt?) :=
  rfl

/-- A place in a body lies behind the codeword and before the end of the definition. -/
theorem Definitions.Divides.inside {dictionary : Dictionary}
    (hnamed : program.IsNamed w dictionary) (h : program.Divides start first rest place) :
    w.past ≤ start.toInt ∧ start.toInt < place.toInt ∧
      place.toInt < start.toInt + (definitionCells w.kernel (first ++ rest)).length := by
  have hlow := hnamed.low start _ h.body
  have hroom := hnamed.room start _ h.body
  have hpast := w.le_past
  rw [length_definitionCells, List.flatMap_append, List.length_append] at hroom ⊢
  have hplace :
      place.toInt = start.toInt + ((first.flatMap Instruction.cells).length + 1 : Nat) := by
    rw [h.place]
    exact Address.toInt_add_ofNat (by omega)
  omega

/-- Every place in a body is called by the name of the definition. -/
theorem Definitions.Divides.containing? {dictionary : Dictionary} {name : String}
    (hnamed : program.IsNamed w dictionary) (h : program.Divides start first rest place)
    (hname : dictionary.nameAt? start = some name) :
    dictionary.containing? place = some (start, name) := by
  obtain ⟨-, hbehind, hbefore⟩ := h.inside hnamed
  refine Dictionary.containing?_of_nameAt? hname ?_ fun address hlater hle => ?_
  · rw [Int64.le_iff_toInt_le]
    omega
  · rw [Int64.le_iff_toInt_le] at hle
    exact hnamed.alone start _ h.body address hlater (by omega)

theorem State.isOuterLoop_eq (hkernel : s.kernel? = some w.kernel) (address : Address) :
    s.isOuterLoop address =
      decide (w.outerLoop.toInt ≤ address.toInt ∧ address.toInt < w.past) := by
  have hend : (w.outerLoop + 3).toInt = w.past := Address.toInt_add_ofNat (n := 3) w.room
  rw [isOuterLoop, hkernel, Option.any_some]
  simp only [Int64.le_iff_toInt_le, Int64.lt_iff_toInt_lt, Outfit.kernel_outerLoop, hend]

/-- Only words of the program are active. -/
theorem Definitions.isSome_of_leadsBack (hback : program.LeadsBack loop active link)
    (hsaved : program.Saves loop base active items) :
    ∀ start ∈ active, (program.body start).isSome := by
  induction active generalizing link items with
  | nil => exact nofun
  | cons start outer ih =>
      obtain ⟨first, rest, hdivides⟩ := hback
      obtain ⟨link', items', -, hback', hsaved'⟩ := hsaved
      refine List.forall_mem_cons.mpr ⟨?_, ih hback' hsaved'⟩
      rw [hdivides.body]
      rfl

/-- The ways back are called by the names of the words that they lead to. -/
theorem State.exists_framesOf (hkernel : s.kernel? = some w.kernel)
    (hnamed : program.IsNamed w s.dictionary) (hloop : s.isOuterLoop loop = true)
    (hback : program.LeadsBack loop active link) (hsaved : program.Saves loop base active items) :
    ∃ names : List String, names.map some = active.map s.dictionary.nameAt? ∧
      s.framesOf (link :: items.filterMap Value.asInt?) =
        names ++ s.framesOf (base.filterMap Value.asInt?) := by
  induction active generalizing link items with
  | nil =>
      obtain rfl : link = loop := hback
      obtain rfl : items = base := hsaved
      refine ⟨[], rfl, ?_⟩
      rw [framesOf, List.filter_cons_of_neg (by simp [hloop])]
      rfl
  | cons start outer ih =>
      obtain ⟨first, rest, hdivides⟩ := hback
      obtain ⟨link', items', rfl, hback', hsaved'⟩ := hsaved
      obtain ⟨names, hnames, hframes⟩ := ih hback' hsaved'
      obtain ⟨name, hname⟩ := Option.ne_none_iff_exists'.mp (hnamed.named start _ hdivides.body)
      have houtside : s.isOuterLoop link = false := by
        obtain ⟨hlow, hbehind, -⟩ := hdivides.inside hnamed
        rw [isOuterLoop_eq hkernel, decide_eq_false_iff_not]
        omega
      refine ⟨name :: names, by rw [List.map_cons, List.map_cons, hnames, hname], ?_⟩
      have hints : (Value.int link' :: items').filterMap Value.asInt? =
          link' :: items'.filterMap Value.asInt? := rfl
      rw [hints, framesOf, List.filter_cons_of_pos (by simp [houtside]), List.filterMap_cons,
        hdivides.containing? hnamed hname, List.cons_append, ← hframes]
      rfl

end Framing

/-! ## The step that fails -/

section Failing

variable {w : Outfit} {program : Definitions} {loop : Address} {base : List Value}
variable {active : List Address} {s u : State} {word : Primitive} {error : Error}

/-- If what a body calls fails, then it has a name and leaves the ways back alone. -/
theorem State.MayCall.of_error (hcall : s.MayCall w.kernel program s.ip)
    (hcarries : s.Carries w.table w.kernel program) (hword : s.Executes w.table word)
    (heffect : word.effect s = .error error u) :
    s.dictionary.nameAt? s.ip ≠ none ∧
      u.returns = s.returns ∧ u.depth = s.depth ∧ u.nip = s.nip := by
  cases hcall with
  | definition h =>
      -- `DOCOL` does not fail
      obtain ⟨body, hbody⟩ := Option.isSome_iff_exists.mp h
      rw [hword.unique (hcarries.executes_docol hbody)] at heffect
      cases heffect
  | plain h =>
      obtain ⟨other, hother, hplain⟩ := (hcarries.plain s.ip h).executes
      obtain rfl : word = other := hword.unique hother
      obtain ⟨hreturns, hdepth⟩ := hplain.links s
      have hnip := hplain.nip s
      rw [after_error heffect] at hreturns hdepth hnip
      exact ⟨(hcarries.plain s.ip h).name, hreturns, hdepth, hnip⟩
  | created hcell hid hname =>
      obtain rfl : u = s := by
        rcases executes_created hcell hid with hother | hother
        · rw [hword.unique hother] at heffect
          cases heffect
        · rw [hword.unique hother] at heffect
          change docon s = _ at heffect
          rw [docon_apply] at heffect
          rcases hread : s.literalAt (s.ip + 1) with cause | v
          · rw [hread] at heffect
            exact (EStateM.Result.error.inj heffect).2.symm
          · rw [hread] at heffect
            cases heffect
      exact ⟨hname, rfl, rfl, rfl⟩

/-- What fails, other than `EXIT`, is a word that was called and that leaves the ways back alone. -/
theorem State.Runs.called_of_error (hcarries : s.Carries w.table w.kernel program)
    (hmemory : s.memory.HasThreading w) (hs : s.Runs w.kernel program loop base active)
    (hword : s.Executes w.table word) (hexit : s.ip ≠ w.kernel.exit)
    (heffect : word.effect s = .error error u) :
    program.LeadsBack loop active s.nip ∧ s.dictionary.nameAt? s.ip ≠ none ∧
      u.returns = s.returns ∧ u.depth = s.depth ∧ u.nip = s.nip := by
  cases hs.stage with
  | instruction _ hdivides =>
      obtain ⟨id, hcell, -⟩ := hword
      obtain ⟨target, hreference⟩ := hcarries.exists_reference hdivides
      cases hcell.symm.trans hreference
  | called hcall hback => exact ⟨hback, hcall.of_error hcarries hword heffect⟩
  | @operand v hip hoperand _ =>
      have hread : s.literalAt s.nip = .ok v := by
        rw [literalAt, hoperand]
        rfl
      rw [hword.unique (executes_lit hmemory hip)] at heffect
      change Words.lit s = _ at heffect
      rw [lit_apply, hread] at heffect
      cases heffect
  | returning htarget hip _ =>
      rw [hword.unique (hcarries.executes_trampoline hmemory htarget hip)] at heffect
      cases heffect
  | leaving hip => exact absurd hip hexit

/-- A step fails as the word does, with the place noted. -/
theorem step_error_of_effect (hword : s.Executes w.table word)
    (heffect : word.effect s = .error error u) : step w.table s =
      .error (error.locate ({ u with ip := s.ip }.contextAt s.ip)) { u with ip := s.ip } := by
  rw [step_of_executes hword, heffect, settle]

/-- A word that fails without a change leaves the backtrace as it is. -/
theorem frames_of_effect_error {cause : Cause} (hword : s.Executes w.table word)
    (heffect : word.effect s = .error { cause } s) :
    ∃ error t, step w.table s = .error error t ∧
      error.context.map Context.frames = some s.backtrace :=
  ⟨_, _, step_error_of_effect hword heffect, rfl⟩

/-- A word that fails is found in the report, with the words that were active and with what was on
the return stack below their ways back. -/
theorem State.Runs.context_of_error {cause : Cause}
    (hcarries : s.Carries w.table w.kernel program) (hmemory : s.memory.HasThreading w)
    (hs : s.Runs w.kernel program loop base active) (hactive : active ≠ [])
    (hword : s.Executes w.table word) (hkeeps : word.KeepsNames) (hexit : s.ip ≠ w.kernel.exit)
    (heffect : word.effect s = .error { cause } u) (hkernel : s.kernel? = some w.kernel)
    (hloop : s.isOuterLoop loop = true) (hnamed : program.IsNamed w s.dictionary)
    (hnamed' : program.IsNamed w u.dictionary) :
    ∃ (name : String) (names : List String) (t : State),
      s.dictionary.nameAt? s.ip = some name ∧
      names.map some = active.map s.dictionary.nameAt? ∧
      step w.table s = .error
        { cause
          context := some
            { word := some name
              address := some s.ip
              frames := names ++ u.framesOf (base.filterMap Value.asInt?) } } t := by
  obtain ⟨hback, hip, hreturns, hdepth, hnip⟩ :=
    hs.called_of_error hcarries hmemory hword hexit heffect
  -- the word has left alone what the backtrace is made from
  have hkernel' := hkeeps.known s
  have hstill : ∀ address first, s.dictionary.nameAt? address = some first →
      u.dictionary.nameAt? address = some first := by
    intro address first hfirst
    have hnamed := hkeeps.named s address first hfirst
    rwa [after_error heffect] at hnamed
  obtain ⟨name, hfirst⟩ := Option.ne_none_iff_exists'.mp hip
  have hstays : ∀ start ∈ active, s.dictionary.nameAt? start = u.dictionary.nameAt? start := by
    intro start hstart
    obtain ⟨body, hbody⟩ := Option.isSome_iff_exists.mp
      (Definitions.isSome_of_leadsBack hback hs.saved start hstart)
    obtain ⟨first, hfirst⟩ := Option.ne_none_iff_exists'.mp (hnamed.named start body hbody)
    rw [hfirst, hstill start first hfirst]
  rw [after_error heffect] at hkernel'
  have hdeep : u.depth ≠ 0 := by
    have hpositive := List.length_pos_iff.mpr hactive
    have hdeep := hs.deep
    rw [hdepth]
    omega
  have hloop' : u.isOuterLoop loop = true := by
    rw [isOuterLoop, hkernel', ← isOuterLoop]
    exact hloop
  obtain ⟨names, hactiveNames, hframes⟩ := exists_framesOf (hkernel'.trans hkernel) hnamed' hloop'
    (hnip ▸ hback) (hreturns ▸ hs.saved)
  rw [← List.map_congr_left hstays] at hactiveNames
  refine ⟨name, names, { u with ip := s.ip }, hfirst, hactiveNames, ?_⟩
  have hcontext : { u with ip := s.ip }.contextAt s.ip =
      { word := some name
        address := some s.ip
        frames := names ++ u.framesOf (base.filterMap Value.asInt?) } := by
    rw [contextAt, backtrace_eq]
    simp only [Dictionary.containing?_self (hstill s.ip name hfirst), Option.map_some,
      if_neg hdeep]
    rw [← hframes]
    rfl
  rw [step_error_of_effect hword heffect, hcontext]
  rfl

end Failing

/-! ## Runs -/

/-- The words that are active after some steps, innermost first. -/
def activeWords (kernel : Kernel) (trace : ℕ → State) (q : ℕ) : ℕ → List Address
  | 0 => []
  | k + 1 => (trace (q + k)).activate kernel (activeWords kernel trace q k)

/-- Every definition of the program was made before some moment. -/
def Definitions.IsMade (table : PrimitiveTable) (kernel : Kernel) (program : Definitions)
    (trace : ℕ → State) (inputs : ℕ → Option Input) (q : ℕ) : Prop :=
  ∀ start body, program.body start = some body → ∃ past begun ended, ended < q ∧
    ThreadedForth.IsMade table trace inputs start past begun ended ∧
    past.toInt = start.toInt + (definitionCells kernel body).length

section Running

variable {w : Outfit} {program : Definitions} {report : Bool} {trace : ℕ → State}
variable {inputs : ℕ → Option Input} {n q r : ℕ}

/-- The words that bodies are threaded with are in place if their cells are those that setting up
wrote. -/
theorem Memory.IsIntact.hasThreading {memory other : Memory} (h : memory.IsIntact w)
    (hsame : other.AgreesAt memory [w.kernel.lit, w.kernel.lit + 1, w.kernel.exit]) :
    other.HasThreading w where
  lit := (hsame w.kernel.lit (by simp)).trans
    (h.primitive 3 (w.lt_length (w.getElem?_words rfl)))
  behind := (hsame (w.kernel.lit + 1) (by simp)).trans
    (h.trampoline 3 (w.lt_length (w.getElem?_words rfl)))
  exit := (hsame w.kernel.exit (by simp)).trans
    (h.primitive 2 (w.lt_length (w.getElem?_words rfl)))

/-- A move that is a step and does not fail. -/
theorem State.exists_step_of_move {table : PrimitiveTable} {kernel : Kernel} {s t : State}
    (hmove : t = s.move table kernel report none)
    (hfails : ∀ error u, step table s ≠ .error error u) :
    ∃ halt?, step table s = .ok halt? t := by
  rcases hstep : step table s with ⟨halt?, u⟩ | ⟨error, u⟩
  · rw [move, Machine.advance, hstep] at hmove
    exact ⟨halt?, by rw [hmove]⟩
  · exact absurd hstep (hfails error u)

/-- From the call of one of its words on, the machine goes through the program as long as a word is
active. -/
theorem runs_of_steps (hmemory : ∀ i, q ≤ i → i ≤ r → (trace i).memory.HasThreading w)
    (hcarries : ∀ i, q ≤ i → i ≤ r → (trace i).Carries w.table w.kernel program)
    (hword : (program.body (trace q).ip).isSome)
    (hsteps : ∀ i, q ≤ i → i < r → ∃ halt?, step w.table (trace i) = .ok halt? (trace (i + 1)))
    (hactive : ∀ k, 0 < k → q + k ≤ r → activeWords w.kernel trace q k ≠ []) {k : ℕ}
    (hk : q + k ≤ r) :
    (trace (q + k)).Runs w.kernel program (trace q).nip (trace q).returns.items
      (activeWords w.kernel trace q k) := by
  induction k with
  | zero => exact ⟨.called (.definition hword) rfl, rfl, Nat.zero_le _⟩
  | succ k ih =>
      obtain ⟨halt?, hstep⟩ := hsteps (q + k) (by omega) (by omega)
      exact (ih (by omega)).of_step (hcarries (q + k) (by omega) (by omega))
        (hmemory (q + k) (by omega) (by omega)) (hactive (k + 1) (by omega) hk) hstep

/-- If `HERE` has never moved back, then the definitions of a program that was made lie apart. -/
theorem isNamed_of_isMade (hhere : (trace 0).here = .ok (w.outerLoop + 3))
    (hlow : ∀ address, (trace 0).dictionary.nameAt? address ≠ none →
      address.toInt < w.outerLoop.toInt)
    (hkeeps : ∀ id word, w.table.lookup id = .ok word → word.KeepsNames)
    (hnames : ∀ id word, w.table.lookup id = .ok word → NamesHere word.effect)
    (hmoves : ∀ i < n, trace (i + 1) = (trace i).move w.table w.kernel report (inputs i))
    (hretreats : NeverRetreats trace n)
    (hmade : program.IsMade w.table w.kernel trace inputs q) {i : ℕ} (hq : q ≤ i) (hi : i ≤ n) :
    program.IsNamed w (trace i).dictionary := by
  have hpast : (w.outerLoop + 3).toInt = w.past := Address.toInt_add_ofNat (n := 3) w.room
  have habove : ∀ start body, program.body start = some body → w.past ≤ start.toInt := by
    intro start body hbody
    obtain ⟨past, begun, ended, hended, hmade, -⟩ := hmade start body hbody
    have hlater := hmade.later
    rw [← hpast, ← Int64.le_iff_toInt_le]
    exact hretreats 0 begun (Nat.zero_le _) (by omega) _ start hhere hmade.begins.2.1
  refine ⟨habove, fun start body hbody => ?_, fun start body hbody => ?_,
    fun start body hbody address hlater hbefore => ?_⟩
  · obtain ⟨past, begun, ended, -, -, hend⟩ := hmade start body hbody
    rw [← hend]
    exact past.toInt_le
  · obtain ⟨past, begun, ended, hended, hmade, -⟩ := hmade start body hbody
    have hlater := hmade.later
    exact hmade.nameAt?_start hmoves (by omega) hkeeps (by omega) hi
  · have hfirst : ∀ address, (trace 0).dictionary.nameAt? address ≠ none → address < start := by
      intro address hnamed
      have hbelow := hlow address hnamed
      have hstart := habove start body hbody
      have hends : w.past = w.outerLoop.toInt + 3 := rfl
      rw [Int64.lt_iff_toInt_lt]
      omega
    obtain ⟨past, begun, ended, hended, hmade, hend⟩ := hmade start body hbody
    refine hmade.nameAt?_inside hmoves (by omega) hnames hretreats hfirst ⟨hlater, ?_⟩ (by omega) hi
    rw [Int64.lt_iff_toInt_lt, hend]
    exact hbefore

/-- **A backtrace names the active words, and then what was left on the return stack.**  Let a
machine be set up with any libraries whose words enter names at `HERE` only and take no first name
away, as those of the standard library do, and let it make any number of moves on any sources.  Let
a program consist of definitions each of which was made by `:` and `;`, with `HERE` never moving
back; their bodies are rows of literals and calls of definitions, of variables and constants, and of
primitives that leave the return stack and the flow of execution alone.

Now let one of the definitions be called from the outer loop, and let the machine make steps that do
not fail while it is active, until it executes a primitive other than `EXIT` which fails.  Meanwhile
let the program be in memory, and `LIT` and `EXIT` be where setting up put them.  Then the failure
is reported at the address of the primitive's cell, in the word that has its first name there.  The
frames are the first names of the words that are active, innermost first and as often as they are,
and then the words that the integers lie in which were on the return stack when the definition was
called; those in the outer loop are left out. -/
theorem backtrace_names_active_words {fresh m : Machine} {libraries : List (List Primitive)}
    {kernel : Kernel} (hm : fresh.bootstrap libraries = .ok () m)
    (hkernel : m.state.kernel? = some kernel)
    (hfits : (kernelWords ++ libraries.flatten).length < 2 ^ 61)
    (hfresh : ∀ address, fresh.state.dictionary.nameAt? address = none)
    (hwords : ∀ word ∈ fresh.primitives.toList ++ libraries.flatten,
      word ∈ vocabulary ∨ word.KeepsNames ∧ NamesHere word.effect)
    (hstart : trace 0 = m.state)
    (hmoves : ∀ i < n, trace (i + 1) = (trace i).move m.primitives kernel report (inputs i))
    (hretreats : NeverRetreats trace n)
    (hmade : program.IsMade m.primitives kernel trace inputs q)
    (hkept : ∀ i, q ≤ i → i ≤ r →
      (trace i).memory.AgreesAt m.state.memory [kernel.lit, kernel.lit + 1, kernel.exit])
    (hcarries : ∀ i, q ≤ i → i ≤ r → (trace i).Carries m.primitives kernel program)
    (hcall : (program.body (trace q).ip).isSome ∧ (trace q).isOuterLoop (trace q).nip = true)
    (hsteps : ∀ i, q ≤ i → i < r → inputs i = none ∧
      ∀ error t, step m.primitives (trace i) ≠ .error error t)
    (hq : q < r) (hr : r < n)
    (hactive : ∀ k, 0 < k → q + k ≤ r → activeWords kernel trace q k ≠ [])
    {word : Primitive} {cause : Cause} {u : State} (hinput : inputs r = none)
    (hword : (trace r).Executes m.primitives word) (hexit : (trace r).ip ≠ kernel.exit)
    (heffect : word.effect (trace r) = .error { cause } u) :
    ∃ (name : String) (names : List String) (t : State),
      (trace r).dictionary.nameAt? (trace r).ip = some name ∧
      names.map some = (activeWords kernel trace q (r - q)).map (trace r).dictionary.nameAt? ∧
      step m.primitives (trace r) = .error
        { cause
          context := some
            { word := some name
              address := some (trace r).ip
              frames := names ++ (trace (r + 1)).framesOf
                ((trace q).returns.items.filterMap Value.asInt?) } } t := by
  have hfitted := isFitted_of_bootstrap hm hfits
  have hintact := isIntact_of_bootstrap hm hfits
  have hhere := here_of_bootstrap hm hfits
  have hlow : ∀ address, m.state.dictionary.nameAt? address ≠ none →
      address.toInt < (fresh.outfit libraries hfits).outerLoop.toInt :=
    fun _ => lt_outerLoop_of_nameAt? hm hfits hfresh
  have hkeeps := keepsNames_of_bootstrap hm fun word hword => (hwords word hword).imp_right And.left
  have hnames : ∀ id word, m.primitives.lookup id = .ok word → NamesHere word.effect :=
    forall_lookup_of_bootstrap hm (fun _ => namesHere_of_mem_vocabulary)
      fun word hword => (hwords word hword).imp_right And.right
  rw [← hstart] at hhere hlow
  generalize fresh.outfit libraries hfits = w at hfitted hintact hhere hlow
  obtain rfl : kernel = w.kernel := Option.some.inj (hkernel.symm.trans hfitted.kernel)
  rw [hfitted.primitives] at hmoves hmade hcarries hsteps hword hkeeps hnames ⊢
  have hknown : ∀ i ≤ n, (trace i).kernel? = some w.kernel :=
    kernel?_of_moves (fun id word hword => (hkeeps id word hword).known)
      (by rw [hstart, hkernel]) hmoves
  have hthreading : ∀ i, q ≤ i → i ≤ r → (trace i).memory.HasThreading w :=
    fun i hqi hir => hintact.hasThreading (hkept i hqi hir)
  have hruns := runs_of_steps hthreading hcarries hcall.1 (fun i hqi hir => by
    obtain ⟨hnone, hfails⟩ := hsteps i hqi hir
    have hmove := hmoves i (by omega)
    rw [hnone] at hmove
    exact State.exists_step_of_move hmove hfails) hactive (k := r - q) (by omega)
  rw [show q + (r - q) = r by omega] at hruns
  have hloop : (trace r).isOuterLoop (trace q).nip = true := by
    rw [State.isOuterLoop_eq (hknown r (by omega)), ← State.isOuterLoop_eq (hknown q (by omega))]
    exact hcall.2
  have hnamed := isNamed_of_isMade hhere hlow hkeeps hnames hmoves hretreats hmade (i := r)
    (by omega) (by omega)
  have hnamed' := isNamed_of_isMade hhere hlow hkeeps hnames hmoves hretreats hmade (i := r + 1)
    (by omega) hr
  -- even the step that fails may have entered a name
  obtain ⟨ip, input, output, halt?, hmove⟩ := State.move_of_executes w.kernel report hword
  have hnext := hmoves r hr
  rw [hinput, hmove, after_error heffect] at hnext
  have hdictionary : (trace (r + 1)).dictionary = u.dictionary := by rw [hnext]
  have hframes : (trace (r + 1)).framesOf = u.framesOf := by rw [hnext]; rfl
  rw [hdictionary] at hnamed'
  rw [hframes]
  have hkeeps : word.KeepsNames :=
    let ⟨id, _, hlookup⟩ := hword
    hkeeps id word hlookup
  exact hruns.context_of_error (hcarries r (by omega) (Nat.le_refl r))
    (hthreading r (by omega) (Nat.le_refl r)) (hactive (r - q) (by omega) (by omega)) hword hkeeps
    hexit heffect (hknown r (by omega)) hloop hnamed hnamed'

end Running

/-! ## A run with something left on the return stack -/

/-- The next step does not fail. -/
def State.succeeds (s : State) : Bool :=
  match step standardTable s with
  | .ok _ _ => true
  | .error _ _ => false

/-- The next step executes no word that defines something. -/
def State.sparesNames (s : State) : Bool :=
  match s.memory.get s.ip with
  | .native id => vocabulary[id]?.all (·.name ∉ Ability.define.words)
  | _ => true

theorem State.nameAt?_move_of_sparesNames {s : State} (h : s.sparesNames = true) (kernel : Kernel)
    (report : Bool) (address : Address) :
    (s.move standardTable kernel report none).dictionary.nameAt? address =
      s.dictionary.nameAt? address := by
  rcases move_none standardTable kernel report s with
    ⟨word, hword⟩ | ⟨ip, nip, input, output, halt?, hmove⟩
  · obtain ⟨ip, input, output, halt?, hmove⟩ := move_of_executes kernel report hword
    have hbecomes := becomes_of_mem_vocabulary hword.mem s
    obtain ⟨id, hcell, hlookup⟩ := hword
    simp only [sparesNames, hcell, getElem?_of_lookup hlookup, Option.all_some,
      decide_eq_true_eq] at h
    rw [hmove]
    exact hbecomes.nameAt?_eq h address
  · rw [hmove]

theorem State.exists_effect_of_succeeds {s : State} {word : Primitive} (h : s.succeeds = true)
    (hword : s.Executes standardTable word) : ∃ t, word.effect s = .ok () t := by
  rw [succeeds, step_of_executes hword] at h
  rcases heffect : word.effect s with ⟨⟨⟩, t⟩ | ⟨error, t⟩
  · exact ⟨t, rfl⟩
  · rw [heffect] at h
    cases h

/-- An integer is left on the return stack, and then a word is called that calls one that fails. -/
def nestedSource : String := "5 >R : A DROP ; : B A ; B"

/-- The two definitions, of which the first one calls `DROP`. -/
def nestedProgram : Definitions where
  body address :=
    if address = 219 then some [.call 176] else if address = 222 then some [.call 219] else none
  plain := [176]

/-- The states that the machine comes through. -/
def nestedTrace : ℕ → State := Machine.booted.state.course false (Input.once nestedSource)

/-- The states after the source is given. -/
def nestedStates : List State :=
  List.iterate (State.next false) (Machine.booted.state.given nestedSource) 51

/-- `EXIT`, `LIT` and `DROP` are in place, and the two definitions are behind the outer loop. -/
def State.HasNested (s : State) : Prop :=
  s.memory.Holds 8 [.native 2, .native 0, .native 3, .native 0] ∧
  (s.memory.Holds 176 [.native 86, .native 0] ∧ s.dictionary.nameAt? 176 = some "DROP") ∧
  s.memory.Holds 219 (definitionCells standardKernel [.call 176]) ∧
  s.memory.Holds 222 (definitionCells standardKernel [.call 219])

instance (s : State) : Decidable s.HasNested := inferInstanceAs (Decidable (_ ∧ _ ∧ _ ∧ _))

/-- What `HERE` holds in these states. -/
def nestedHeres : List Address :=
  .replicate 14 219 ++ .replicate 5 220 ++ .replicate 5 221 ++ .replicate 6 222 ++
    .replicate 5 223 ++ .replicate 5 224 ++ .replicate 11 225

/-- What these states are found to be. -/
@[mk_iff]
structure IsNestedCourse (states : List State) : Prop where
  heres : states.map (fun s => s.here.toOption) = nestedHeres.map some
  /-- The machine defines something at two moments, and fails at one. -/
  tests : states.map (fun s => (s.sparesNames, s.succeeds)) =
    .replicate 13 (true, true) ++ (false, true) :: .replicate 15 (true, true) ++
      (false, true) :: .replicate 19 (true, true) ++ [(true, false), (true, true)]
  /-- It executes `:` and `;`, then both again, and then `DROP`. -/
  executed : ∀ place ∈ [(13, 19), (23, 20), (29, 19), (39, 20), (49, 86)],
    ∀ s ∈ states[place.1]?, s.memory.get s.ip = .native place.2
  carried : ∀ s ∈ (states.drop 45).take 5, s.HasNested
  called : ∀ s ∈ states[45]?, s.ip = 222 ∧ s.nip = 217 ∧ s.returns.items = [.int 5]
  active : ((List.range 5).map fun k =>
      ((states.drop 45).take k).foldl (fun active s => s.activate standardKernel active) []) =
    [[], [222], [222], [219, 222], [219, 222]]
  failing : ∀ s ∈ states[49]?, s.ip = 176 ∧ s.parameters.items = [] ∧
    [176, 219, 222].map s.dictionary.nameAt? = [some "DROP", some "A", some "B"] ∧
    s.backtrace = ["A", "B", "(NEXT)"]
  left : ∀ s ∈ states[50]?, s.framesOf [5] = ["(NEXT)"]

set_option maxRecDepth 4000 in
theorem isNestedCourse : IsNestedCourse nestedStates := by
  rw [isNestedCourse_iff]
  -- all at once, so that the states are computed once
  decide +kernel

theorem nestedTrace_mem {i : ℕ} (hi : i < 51) : nestedTrace (i + 1) ∈ nestedStates[i]? :=
  State.course_once_mem hi

/-- What is known of all states is known at each moment. -/
theorem nestedTrace_map {α : Type} {f : State → α} {values : List α}
    (h : nestedStates.map f = values) {i : ℕ} (hi : i < 51) :
    values[i]? = some (f (nestedTrace (i + 1))) := by
  rw [← h, List.getElem?_map, Option.mem_def.mp (nestedTrace_mem hi), Option.map_some]

/-- What `HERE` holds at each moment. -/
theorem nestedTrace_here {i : ℕ} (hi : i < 51) :
    (nestedTrace (i + 1)).here.toOption = nestedHeres[i]? := by
  have hheres := nestedTrace_map isNestedCourse.heres hi
  rw [List.getElem?_map] at hheres
  rcases hheld : nestedHeres[i]? with _ | here
  · rw [hheld] at hheres
    cases hheres
  · rw [hheld] at hheres
    exact (Option.some.inj hheres).symm

theorem nestedTrace_retreats : NeverRetreats nestedTrace 51 := by
  have hsorted : nestedHeres.Pairwise (· ≤ ·) := by decide
  -- giving the source changes nothing
  have hall : ∀ i ≤ 51, ∀ here, (nestedTrace i).here = .ok here →
      nestedHeres[i - 1]? = some here := by
    intro i hi here hhere
    cases i with
    | zero =>
        rw [← nestedTrace_here (by decide), show (nestedTrace 1).here = .ok here from hhere]
        rfl
    | succ i =>
        rw [Nat.add_sub_cancel, ← nestedTrace_here hi, hhere]
        rfl
  intro i j hij hj here here' hhere hhere'
  obtain ⟨hi, rfl⟩ := List.getElem?_eq_some_iff.mp (hall i (by omega) here hhere)
  obtain ⟨hj, rfl⟩ := List.getElem?_eq_some_iff.mp (hall j hj here' hhere')
  rcases Nat.lt_or_ge (i - 1) (j - 1) with hlt | hge
  · exact List.pairwise_iff_getElem.mp hsorted _ _ hi hj hlt
  · have hsame : i - 1 = j - 1 := by omega
    simp only [hsame]
    exact Int64.le_refl _

/-- The machine defines something at two moments only, and it fails at one. -/
theorem nestedTrace_tests {i : ℕ} (hi : i < 51) :
    (i ≠ 13 → i ≠ 29 → (nestedTrace (i + 1)).sparesNames = true) ∧
      (i ≠ 49 → (nestedTrace (i + 1)).succeeds = true) := by
  have htests := nestedTrace_map isNestedCourse.tests hi
  have hvalues : ∀ place ∈ (List.replicate 13 (true, true) ++ (false, true) ::
      List.replicate 15 (true, true) ++ (false, true) :: List.replicate 19 (true, true) ++
        [(true, false), (true, true)]).zipIdx,
      (place.2 ≠ 13 → place.2 ≠ 29 → place.1.1 = true) ∧ (place.2 ≠ 49 → place.1.2 = true) := by
    decide
  exact hvalues (_, i) (List.mk_mem_zipIdx_iff_getElem?.mpr htests)

/-- The words that the machine executes at some moments. -/
theorem nestedTrace_executes {i id : ℕ} {word : Primitive}
    (hplace : (i, id) ∈ [(13, 19), (23, 20), (29, 19), (39, 20), (49, 86)])
    (hword : vocabulary[id]? = some word) : (nestedTrace (i + 1)).Executes standardTable word := by
  have hi : i < 51 := by
    have hall : ∀ place ∈ [(13, 19), (23, 20), (29, 19), (39, 20), (49, 86)], place.1 < 51 := by
      decide
    exact hall _ hplace
  exact ⟨id, isNestedCourse.executed _ hplace _ (nestedTrace_mem hi), lookup_standardTable hword⟩

/-- From `:` to `;` a definition is made. -/
theorem nestedTrace_isMade {start past : Address} {begun ended : ℕ}
    (hbegun : (begun, 19) ∈ [(13, 19), (23, 20), (29, 19), (39, 20), (49, 86)])
    (hended : (ended, 20) ∈ [(13, 19), (23, 20), (29, 19), (39, 20), (49, 86)])
    (hlater : begun < ended) (hbefore : ended < 49)
    (hstart : nestedHeres[begun]? = some start) (hpast : nestedHeres[ended + 1]? = some past)
    (halone : ∀ i, begun < i → i < ended → i ≠ 13 ∧ i ≠ 29) :
    IsMade standardTable nestedTrace (Input.once nestedSource) start past (begun + 1)
      (ended + 1) := by
  have hhere : ∀ i < 51, ∀ here, nestedHeres[i]? = some here →
      (nestedTrace (i + 1)).here = .ok here := by
    intro i hi here hheld
    have hread := nestedTrace_here hi
    rw [hheld] at hread
    rcases hcell : (nestedTrace (i + 1)).here with cause | held
    · rw [hcell] at hread
      cases hread
    · rw [hcell] at hread
      cases hread
      rfl
  have hdone : ∀ i < 49, ∀ word, (nestedTrace (i + 1)).Executes standardTable word →
      ∃ t, word.effect (nestedTrace (i + 1)) = .ok () t := by
    intro i hi word hword
    exact State.exists_effect_of_succeeds ((nestedTrace_tests (by omega)).2 (by omega)) hword
  refine ⟨⟨rfl, hhere begun (by omega) start hstart, ?_⟩, by omega,
    ⟨rfl, hhere (ended + 1) (by omega) past hpast, ?_⟩, fun i hi hi' address => ?_⟩
  · have hword := nestedTrace_executes hbegun (show vocabulary[19]? = some _ from rfl)
    obtain ⟨t, heffect⟩ := hdone begun (by omega) _ hword
    exact ⟨_, t, hword, rfl, heffect⟩
  · have hword := nestedTrace_executes hended (show vocabulary[20]? = some _ from rfl)
    obtain ⟨t, heffect⟩ := hdone ended hbefore _ hword
    exact ⟨_, t, hword, rfl, heffect⟩
  · obtain ⟨i, rfl⟩ := Nat.exists_eq_add_of_lt (Nat.zero_lt_of_lt hi)
    rw [Nat.zero_add] at hi hi' ⊢
    obtain ⟨hfirst, hsecond⟩ := halone i (by omega) (by omega)
    exact State.nameAt?_move_of_sparesNames ((nestedTrace_tests (by omega)).1 hfirst hsecond)
      standardKernel false address

theorem nestedProgram_cases {start : Address} {body : List Instruction}
    (h : nestedProgram.body start = some body) :
    start = 219 ∧ body = [.call 176] ∨ start = 222 ∧ body = [.call 219] := by
  simp only [nestedProgram] at h
  split at h
  · exact .inl ⟨‹_›, (Option.some.inj h).symm⟩
  · split at h
    · exact .inr ⟨‹_›, (Option.some.inj h).symm⟩
    · cases h

theorem nestedProgram_isMade :
    nestedProgram.IsMade standardTable standardKernel nestedTrace (Input.once nestedSource) 46 := by
  intro start body hbody
  rcases nestedProgram_cases hbody with ⟨rfl, rfl⟩ | ⟨rfl, rfl⟩
  · exact ⟨222, 14, 24, by decide, nestedTrace_isMade (by decide) (by decide) (by decide)
      (by decide) rfl rfl (fun i _ _ => by omega), rfl⟩
  · exact ⟨225, 30, 40, by decide, nestedTrace_isMade (by decide) (by decide) (by decide)
      (by decide) rfl rfl (fun i _ _ => by omega), rfl⟩

theorem nestedTrace_hasNested (i : ℕ) (hq : 46 ≤ i) (hr : i ≤ 50) :
    (nestedTrace i).HasNested := by
  obtain ⟨i, rfl⟩ := Nat.exists_eq_add_of_lt (show 0 < i by omega)
  rw [Nat.zero_add] at hq hr ⊢
  refine isNestedCourse.carried _ (List.mem_of_getElem? (i := i - 45) ?_)
  rw [List.getElem?_take_of_lt (by omega), List.getElem?_drop, show 45 + (i - 45) = i by omega]
  exact nestedTrace_mem (by omega)

theorem nestedTrace_carries (i : ℕ) (hq : 46 ≤ i) (hr : i ≤ 50) :
    (nestedTrace i).Carries standardTable standardKernel nestedProgram := by
  obtain ⟨-, ⟨hdrop, hname⟩, hfirst, hsecond⟩ := nestedTrace_hasNested i hq hr
  refine ⟨fun start body hbody => ?_, fun target htarget => ?_,
    fun start body hbody target htarget => ?_⟩
  · rcases nestedProgram_cases hbody with ⟨rfl, rfl⟩ | ⟨rfl, rfl⟩
    · exact hfirst
    · exact hsecond
  · obtain rfl : target = 176 := List.mem_singleton.mp htarget
    have hword : vocabulary[86]? = some { name := "DROP", effect := drop } := rfl
    have hplain : Primitive.IsPlain { name := "DROP", effect := drop } :=
      isPlain_of_mem_vocabulary (List.mem_of_getElem? hword) rfl (by decide) (by decide)
    refine ⟨⟨86, _, hdrop.1, lookup_standardTable hword, hplain⟩,
      ⟨0, hdrop.2.1, lookup_standardTable (show vocabulary[0]? = some trampoline from rfl)⟩, ?_⟩
    rw [hname]
    exact Option.some_ne_none _
  · rcases nestedProgram_cases hbody with ⟨rfl, rfl⟩ | ⟨rfl, rfl⟩
    · obtain rfl : target = 176 := by simpa using htarget
      exact .plain (List.mem_singleton_self _)
    · obtain rfl : target = 219 := by simpa using htarget
      exact .definition rfl

/-- `LIT` and `EXIT` are where setting up put them. -/
theorem nestedTrace_agreesAt (i : ℕ) (hq : 46 ≤ i) (hr : i ≤ 50) :
    (nestedTrace i).memory.AgreesAt Machine.booted.state.memory
      [standardKernel.lit, standardKernel.lit + 1, standardKernel.exit] := by
  obtain ⟨⟨hexit, -, hlit, hbehind, -⟩, -⟩ := nestedTrace_hasNested i hq hr
  have hintact := isIntact_standard_of_bootstrap rfl bootstrap_booted
  intro address haddress
  simp only [List.mem_cons, List.not_mem_nil, or_false] at haddress
  rcases haddress with rfl | rfl | rfl
  · exact hlit.trans (hintact.primitive 3 (by decide)).symm
  · exact hbehind.trans (hintact.trampoline 3 (by decide)).symm
  · exact hexit.trans (hintact.primitive 2 (by decide)).symm

/-- The active words are found by going through the states. -/
theorem activeWords_eq_foldl {trace : ℕ → State} {q k : ℕ} {states : List State}
    (h : ∀ i < k, states[i]? = some (trace (q + i))) : activeWords standardKernel trace q k =
      (states.take k).foldl (fun active s => s.activate standardKernel active) [] := by
  induction k with
  | zero => rfl
  | succ k ih =>
      rw [activeWords, ih fun i hi => h i (by omega), List.take_add_one, h k (Nat.lt_succ_self k),
        Option.toList_some, List.foldl_append]
      rfl

theorem nestedTrace_activeWords {k : ℕ} (hk : k < 5) :
    [[], [222], [222], [219, 222], [219, 222]][k]? =
      some (activeWords standardKernel nestedTrace 46 k) := by
  have hstates : ∀ i < k, (nestedStates.drop 45)[i]? = some (nestedTrace (46 + i)) := by
    intro i hi
    rw [List.getElem?_drop, show 46 + i = 45 + i + 1 by omega]
    exact nestedTrace_mem (by omega)
  rw [activeWords_eq_foldl hstates, ← isNestedCourse.active, List.getElem?_map,
    List.getElem?_range hk]
  rfl

/-- At the prompt the second word is called, with an integer on the return stack. -/
theorem nestedTrace_call : (nestedTrace 46).ip = 222 ∧ (nestedTrace 46).nip = 217 ∧
    (nestedTrace 46).returns.items = [.int 5] :=
  isNestedCourse.called _ (nestedTrace_mem (i := 45) (by decide))

theorem nestedTrace_kernel? {i : ℕ} (hi : i ≤ 51) :
    (nestedTrace i).kernel? = some standardKernel :=
  kernel?_of_moves (fun _ _ => State.kernel?_of_lookup)
    (isStandard_of_bootstrap rfl bootstrap_booted).kernel
    (fun i _ => (rfl : nestedTrace (i + 1) = (nestedTrace i).move standardTable standardKernel false
      (Input.once nestedSource i))) i hi

theorem nestedTrace_calls : (nestedProgram.body (nestedTrace 46).ip).isSome ∧
    (nestedTrace 46).isOuterLoop (nestedTrace 46).nip = true := by
  obtain ⟨hip, hnip, -⟩ := nestedTrace_call
  rw [State.isOuterLoop_eq (w := .standard) (nestedTrace_kernel? (by decide)), hip, hnip]
  decide

theorem nestedTrace_steps (i : ℕ) (hq : 46 ≤ i) (hr : i < 50) :
    Input.once nestedSource i = none ∧
      ∀ error t, step standardTable (nestedTrace i) ≠ .error error t := by
  obtain ⟨i, rfl⟩ := Nat.exists_eq_add_of_lt (show 0 < i by omega)
  rw [Nat.zero_add] at hq hr ⊢
  have hsucceeds := (nestedTrace_tests (i := i) (by omega)).2 (by omega)
  refine ⟨rfl, fun error t hfails => ?_⟩
  rw [State.succeeds, hfails] at hsucceeds
  cases hsucceeds

/-- At last `DROP` is executed on an empty stack. -/
theorem nestedTrace_failing : (nestedTrace 50).ip = 176 ∧
    (nestedTrace 50).parameters.items = [] ∧
    [176, 219, 222].map (nestedTrace 50).dictionary.nameAt? =
      [some "DROP", some "A", some "B"] ∧
    (nestedTrace 50).backtrace = ["A", "B", "(NEXT)"] :=
  isNestedCourse.failing _ (nestedTrace_mem (i := 49) (by decide))

theorem nestedTrace_fails :
    (nestedTrace 50).Executes standardTable { name := "DROP", effect := drop } ∧
    drop (nestedTrace 50) = .error { cause := .stackUnderflow .parameter } (nestedTrace 50) := by
  obtain ⟨-, hempty, -⟩ := nestedTrace_failing
  have hword : vocabulary[86]? = some _ := rfl
  refine ⟨nestedTrace_executes (i := 49) (by decide) hword, discard_error ?_⟩
  rw [pop_apply, Stack.pop, hempty]

/-- The failing word, the two that wait for it, and the integer. -/
theorem backtrace_names_active_words_nested : ∃ t,
    activeWords standardKernel nestedTrace 46 4 = [219, 222] ∧
    step standardTable (nestedTrace 50) = .error
      { cause := .stackUnderflow .parameter
        context := some
          { word := some "DROP", address := some 176, frames := ["A", "B", "(NEXT)"] } } t := by
  have hactive : ∀ k < 5, 0 < k → activeWords standardKernel nestedTrace 46 k ≠ [] := by
    intro k hk hpositive hnone
    have hwords := nestedTrace_activeWords hk
    rw [hnone] at hwords
    have hall : ∀ k < 5, 0 < k →
        [[], [222], [222], [219, 222], [219, 222]][k]? ≠ some ([] : List Address) := by decide
    exact hall k hk hpositive hwords
  have hlast : activeWords standardKernel nestedTrace 46 4 = [219, 222] :=
    (Option.some.inj (nestedTrace_activeWords (k := 4) (by decide))).symm
  obtain ⟨hword, heffect⟩ := nestedTrace_fails
  obtain ⟨hip, -, hfirst, -⟩ := nestedTrace_failing
  have hexit : (nestedTrace 50).ip ≠ standardKernel.exit := by
    rw [hip]
    decide
  have hstandard := isStandard_of_bootstrap rfl bootstrap_booted
  have hmoves : ∀ i < 51, nestedTrace (i + 1) =
      (nestedTrace i).move standardTable standardKernel false (Input.once nestedSource i) :=
    fun _ _ => rfl
  have hmade := nestedProgram_isMade
  have hcarries := nestedTrace_carries
  have hsteps := nestedTrace_steps
  rw [← hstandard.primitives] at hmoves hmade hcarries hsteps hword
  obtain ⟨name, names, t, hname, hnames, hstep⟩ := backtrace_names_active_words bootstrap_booted
    hstandard.kernel (by decide) (fun _ => rfl)
    (fun word hword => .inl (List.mem_append_right _ (by simpa using hword))) rfl hmoves
    nestedTrace_retreats hmade nestedTrace_agreesAt hcarries nestedTrace_calls hsteps (by decide)
    (by decide) (fun k hpositive hk => hactive k (by omega) hpositive) rfl hword hexit heffect
  rw [hstandard.primitives] at hstep
  have hremains : (nestedTrace 51).framesOf [5] = ["(NEXT)"] :=
    isNestedCourse.left _ (nestedTrace_mem (i := 50) (by decide))
  simp only [List.map_cons, List.map_nil, List.cons.injEq, and_true] at hfirst
  obtain ⟨hdrop, hinner, houter⟩ := hfirst
  refine ⟨t, hlast, ?_⟩
  have hnames' : names = ["A", "B"] := by
    rw [show 50 - 46 = 4 from rfl, hlast, List.map_cons, List.map_cons, List.map_nil, hinner,
      houter] at hnames
    exact List.map_injective_iff.mpr (Option.some_injective _) hnames
  rw [hip, hdrop] at hname
  rw [hstep, nestedTrace_call.2.2, hip, ← Option.some.inj hname, hnames',
    show [Value.int 5].filterMap Value.asInt? = [5] from rfl, hremains]
  rfl

/-- **What was left on the return stack shows up in a backtrace.**  The two words that are active
are `A` and `B`, but there is a third frame. -/
theorem backtrace_shows_what_was_left :
    NeverRetreats nestedTrace 51 ∧
      nestedProgram.IsMade standardTable standardKernel nestedTrace (Input.once nestedSource) 46 ∧
      (∀ i, 46 ≤ i → i ≤ 50 →
        (nestedTrace i).Carries standardTable standardKernel nestedProgram) ∧
      ((nestedProgram.body (nestedTrace 46).ip).isSome ∧
        (nestedTrace 46).isOuterLoop (nestedTrace 46).nip = true) ∧
      (activeWords standardKernel nestedTrace 46 4).map (nestedTrace 50).dictionary.nameAt? =
        [some "A", some "B"] ∧
      ∃ error t, step standardTable (nestedTrace 50) = .error error t ∧
        error.context.map Context.frames = some ["A", "B", "(NEXT)"] := by
  refine ⟨nestedTrace_retreats, nestedProgram_isMade, nestedTrace_carries, nestedTrace_calls, ?_,
    ?_⟩
  · obtain ⟨-, -, hfirst, -⟩ := nestedTrace_failing
    rw [← Option.some.inj (nestedTrace_activeWords (k := 4) (by decide))]
    exact (List.cons.inj hfirst).2
  · obtain ⟨hword, heffect⟩ := nestedTrace_fails
    obtain ⟨-, -, -, hframes⟩ := nestedTrace_failing
    rw [← hframes]
    exact frames_of_effect_error (w := .standard) hword heffect

end ThreadedForth
