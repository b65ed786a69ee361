import Mathlib.Data.List.Iterate
import Mathlib.Logic.Function.Iterate
import ThreadedForth.Proofs.Machine.Appending
import ThreadedForth.Proofs.Machine.SettingUp
import ThreadedForth.Proofs.Prelude.Evaluated

/-!
# Memory is append-only

A machine that was just set up is in order: its words lie one above the other, and `HERE` is above
all that was written.  So the order is kept by everything that the machine is made to do, as long as
stores, `ALLOT` and the end of the address space are avoided.  The prelude is evaluated with care.
-/

namespace ThreadedForth

open Effect

/-! ## Setting up -/

/-- The entries of the words that a machine starts with, newest first. -/
def vocabularyLog : List Entry :=
  (vocabulary.mapIdx fun position word => word.entry position).reverse

theorem vocabularyLog_eq : vocabularyLog = (entriesFrom 0 vocabulary).reverse := by
  rw [vocabularyLog, List.mapIdx_eq_zipIdx_map]
  rfl

section Bootstrapping

variable {fresh m : Machine} {around : Surroundings}
variable (hprimitives : fresh.primitives = #[]) (hstate : fresh.state = State.within {} around)
  (h : fresh.bootstrap [libraryWords] = .ok () m)
include hprimitives hstate h

/-- A machine that was just set up is in order. -/
theorem isOrdered_of_bootstrap : m.state.IsOrdered 219 vocabularyLog := by
  have hfresh : fresh.IsBlank :=
    ⟨by rw [hstate]; rfl, by rw [hstate]; rfl, hprimitives, by rw [hstate]; rfl⟩
  have hlength := length_vocabulary
  have hflat : kernelWords ++ [libraryWords].flatten = vocabulary := rfl
  obtain ⟨kernel, hlayout⟩ := isLaidOut_of_bootstrap h hfresh
    (fun word hword => name_ne_trampolineName_of_mem_tail word (List.mem_append_right _ hword))
    (by decide)
  have htracks := dictionary_of_bootstrap h ▸ hfresh.tracks_stocked
  rw [hflat] at hlayout htracks
  rw [vocabularyLog_eq]
  refine ⟨get_of_readVariable hlayout.here, by decide, fun address haddress => ?_, htracks.logged,
    fun entry hentry => ?_, List.pairwise_reverse.mpr (increasing_entriesFrom (by decide))⟩
  · obtain ⟨n, hn, rfl⟩ := (hlayout.written address).mp haddress
    rw [hlength] at hn
    rw [Int64.le_iff_toInt_le, Int64.lt_iff_toInt_lt, Int64.toInt_ofNat_of_lt (by omega)]
    exact ⟨Int.natCast_nonneg n, Int.ofNat_lt.mpr hn⟩
  · obtain ⟨i, hi⟩ := List.mem_iff_getElem?.mp (List.mem_reverse.mp hentry)
    rw [getElem?_entriesFrom, Option.map_eq_some_iff] at hi
    obtain ⟨word, hword, rfl⟩ := hi
    obtain ⟨hi, -⟩ := List.getElem?_eq_some_iff.mp hword
    rw [Primitive.address_entry, Int64.lt_iff_toInt_lt, toInt_primitiveAddress i (by omega)]
    exact Int.lt_of_lt_of_le (show (4 + 2 * i : Int) < 4 + 2 * 106 by omega) (by decide)

/-- All machines that were just set up are in the same state, wherever they live. -/
theorem state_eq_booted : m.state = Machine.booted.state.within around := by
  obtain ⟨state, primitives, report, stepLimit, recovered, watched, told⟩ := fresh
  subst hprimitives hstate
  have hsettled := settled_with [libraryWords] {} around report stepLimit recovered watched told
  rw [eq_settled_of_bootstrap h, eq_settled_of_bootstrap bootstrap_booted]
  exact congrArg Machine.state hsettled

end Bootstrapping

/-! ## Tameness can be tested -/

theorem position_of_privilege :
    ∀ id < vocabulary.length, ∀ name ∈ vocabulary[id]?.map Primitive.name,
      (name = "!" ∨ name = "+!" → id = 15 ∨ id = 70) ∧ (name = "ALLOT" → id = 18) := by
  decide +kernel

theorem State.exists_here_of_isTame {s : State} (h : s.isTame = true) :
    ∃ here, s.here = .ok here ∧ here < Int64.maxValue - 3 := by
  rw [isTame] at h
  split at h
  · rename_i here hhere
    exact ⟨here, here_of_get hhere, of_decide_eq_true (Bool.and_eq_true_iff.mp h).1⟩
  · cases h

theorem State.here_lt_of_isTame {s : State} (h : s.isTame = true) {here : Address}
    (hhere : s.here = .ok here) : here < Int64.maxValue - 3 := by
  obtain ⟨here', hhere', hbelow⟩ := exists_here_of_isTame h
  rw [hhere] at hhere'
  cases hhere'
  exact hbelow

theorem State.IsTame.of_test {s : State} (h : s.isTame = true) : s.IsTame := by
  obtain ⟨here, hhere, -⟩ := exists_here_of_isTame h
  simp only [isTame, get_of_readVariable hhere, Bool.and_eq_true] at h
  obtain ⟨-, h⟩ := h
  refine ⟨?_, ?_⟩
  · rintro address ⟨word, t, ⟨id, hcell, hlookup⟩, hname, -, htop⟩
    have hword := getElem?_of_lookup hlookup
    have hid := (position_of_privilege id (Outfit.lt_length (w := .standard) hword) word.name
      (by rw [hword]; rfl)).1 hname
    simp only [hcell, htop, if_pos hid, decide_eq_true_eq] at h
    refine ⟨h.1, fun here' hhere' => ?_⟩
    rw [hhere] at hhere'
    exact Except.ok.inj hhere' ▸ h.2
  · rintro n ⟨word, t, ⟨id, hcell, hlookup⟩, hname, -, htop⟩
    have hword := getElem?_of_lookup hlookup
    obtain rfl := (position_of_privilege id (Outfit.lt_length (w := .standard) hword) word.name
      (by rw [hword]; rfl)).2 hname
    simp only [hcell, htop] at h
    exact of_decide_eq_true h

/-! ## Any number of moves -/

section Moving

variable {report : Bool} {trace : ℕ → State} {inputs : ℕ → Option Input} {n p : ℕ}
variable {here : Address} {log : List Entry}

/-- If the machine was in order once, then it is in order ever after. -/
theorem exists_orders (hstart : (trace 0).IsOrdered here log)
    (hmoves : ∀ i < n,
      trace (i + 1) = (trace i).move standardTable standardKernel report (inputs i))
    (htame : ∀ i < n, inputs i = none → (trace i).IsTame)
    (hroom : ∀ i < n, (trace (i + 1)).here ≠ .ok Int64.maxValue) :
    ∃ (heres : ℕ → Address) (logs : ℕ → List Entry), logs 0 = log ∧
      (∀ i ≤ n, (trace i).IsOrdered (heres i) (logs i)) ∧
      ∀ i < n, ∃ new, new.length ≤ 1 ∧
        (trace i).Appends (fun address => inputs i = none ∧ (trace i).Stores address) new (heres i)
          (logs i) (trace (i + 1)) (heres (i + 1)) (logs (i + 1)) := by
  induction n with
  | zero =>
      refine ⟨fun _ => here, fun _ => log, rfl, fun i hi => ?_,
        fun i hi => absurd hi (Nat.not_lt_zero i)⟩
      obtain rfl := Nat.le_zero.mp hi
      exact hstart
  | succ n ih =>
      obtain ⟨heres, logs, hfirst, horders, happends⟩ := ih (fun i hi => hmoves i (by omega))
        (fun i hi => htame i (by omega)) (fun i hi => hroom i (by omega))
      have hmove := hmoves n (Nat.lt_succ_self n)
      obtain ⟨new, here', log', hnew, hlast⟩ := (horders n (Nat.le_refl n)).appends_move
        (inputs n) (htame n (Nat.lt_succ_self n))
        (by rw [← hmove]; exact hroom n (Nat.lt_succ_self n))
      rw [← hmove] at hlast
      -- what is known so far is extended by the last move
      refine ⟨Function.update heres (n + 1) here', Function.update logs (n + 1) log', ?_, ?_, ?_⟩
      · rw [Function.update_of_ne (by omega)]
        exact hfirst
      · intro i hi
        rcases Nat.le_succ_iff.mp hi with hle | rfl
        · rw [Function.update_of_ne (by omega), Function.update_of_ne (by omega)]
          exact horders i hle
        · rw [Function.update_self, Function.update_self]
          exact hlast.ordered
      · intro i hi
        rw [Function.update_of_ne (by omega), Function.update_of_ne (by omega)]
        rcases Nat.lt_succ_iff_lt_or_eq.mp hi with hlt | rfl
        · rw [Function.update_of_ne (by omega), Function.update_of_ne (by omega)]
          exact happends i hlt
        · rw [Function.update_self, Function.update_self]
          exact ⟨new, hnew, hlast⟩

/-! ## The prelude -/

/-- The first moves give the source to the machine and run it to its end. -/
structure RunsFirst (report : Bool) (trace : ℕ → State) (inputs : ℕ → Option Input)
    (source : String) (p : ℕ) : Prop where
  given : inputs 0 = some (.ofString source)
  steps : ∀ i, 0 < i → i < p → inputs i = none
  runs : ∀ i, 0 < i → i + 1 < p →
    (Machine.advance standardTable report standardKernel.quit (trace i) #[]).1 = none
  ends : (Machine.advance standardTable report standardKernel.quit (trace (p - 1)) #[]).1 =
    some .endOfInput

/-- The state of a machine that lives somewhere and is given the prelude. -/
def State.atPrelude (around : Surroundings) : State :=
  (Machine.booted.started prelude).within { around with input := .ofString prelude }

variable {around : Surroundings}

/-- Nothing is recovered from while the prelude is evaluated. -/
theorem recovered_of_comes_prelude {s : State} {recovered : Array Error}
    (h : Machine.Comes standardTable standardKernel true (.atPrelude around, #[]) (s, recovered)) :
    recovered = #[] := by
  obtain ⟨-, hanywhere, -⟩ := Machine.furnished_spec
  obtain ⟨output, hended⟩ := hanywhere around.output around.order
  obtain ⟨errors, herrors⟩ :=
    Machine.exists_recovered_of_loop h (Machine.loop_of_loopWhile hended)
  exact (Array.append_eq_empty_iff.mp herrors.symm).1

section Watched

variable (hstart : trace 0 = Machine.booted.state.within around)
include hstart

theorem RunsFirst.state_one (hp : RunsFirst report trace inputs prelude p)
    (hmove : trace 1 = (trace 0).move standardTable standardKernel report (inputs 0)) :
    trace 1 = .atPrelude around := by
  rw [hp.given, hstart] at hmove
  exact hmove

/-- While the prelude is evaluated, every state is one that its run comes to. -/
theorem RunsFirst.comes (hp : RunsFirst report trace inputs prelude p)
    (hmoves : ∀ i < n,
      trace (i + 1) = (trace i).move standardTable standardKernel report (inputs i))
    {i : ℕ} (hi : i + 1 < p) (hn : i < n) :
    Machine.Comes standardTable standardKernel true (.atPrelude around, #[])
      (trace (i + 1), #[]) := by
  induction i with
  | zero =>
      rw [Nat.zero_add, hp.state_one hstart (hmoves 0 hn)]
      exact .refl
  | succ i ih =>
      have hcomes := ih (by omega) (by omega)
      have hmove := hmoves (i + 1) hn
      have hruns := hp.runs (i + 1) (Nat.succ_pos i) hi
      rw [hp.steps (i + 1) (Nat.succ_pos i) (by omega), State.move] at hmove
      rcases hstep : step standardTable (trace (i + 1)) with ⟨_ | halt, t⟩ | ⟨error, t⟩
      · rw [hmove, Machine.advance, hstep]
        exact hcomes.tail (Machine.goes_of_quiet hstep #[])
      · rw [Machine.advance, hstep] at hruns
        cases hruns
      · have hfails := recovered_of_comes_prelude
          (hcomes.tail (Machine.goes_of_error hstep #[]))
        cases hfails

theorem RunsFirst.isTame (hp : RunsFirst report trace inputs prelude p)
    (hmoves : ∀ i < n,
      trace (i + 1) = (trace i).move standardTable standardKernel report (inputs i))
    {i : ℕ} (hpositive : 0 < i) (hi : i < p) (hn : i ≤ n) : (trace i).isTame = true := by
  obtain ⟨i, rfl⟩ := Nat.exists_eq_add_of_lt hpositive
  rw [Nat.zero_add] at hi hn ⊢
  obtain ⟨-, hanywhere, -⟩ := Machine.furnished_spec
  obtain ⟨output, hended⟩ := hanywhere around.output around.order
  exact Machine.test_of_comes hended (hp.comes hstart hmoves hi hn)

end Watched

end Moving

/-! ## Runs on one source -/

section Running

variable {report : Bool} {s t : State} {source : String} {n : ℕ}

/-- The states that moves lead through. -/
def State.course (report : Bool) (inputs : ℕ → Option Input) (s : State) : ℕ → State
  | 0 => s
  | i + 1 => (course report inputs s i).move standardTable standardKernel report (inputs i)

/-- The state after one step. -/
def State.next (report : Bool) (s : State) : State :=
  s.move standardTable standardKernel report none

/-- The state in which a source is given. -/
def State.given (s : State) (source : String) : State :=
  { s with input := .ofString source, halt? := none }

theorem State.given_within (m : Machine) (around : Surroundings) (source : String) :
    (m.state.within around).given source =
      (m.started source).within { around with input := .ofString source } := rfl

/-- A source is given, and then steps are made. -/
def Input.once (source : String) : ℕ → Option Input
  | 0 => some (.ofString source)
  | _ + 1 => none

theorem State.course_once (i : ℕ) : s.course report (Input.once source) (i + 1) =
    (next report)^[i] (s.given source) := by
  induction i with
  | zero => rfl
  | succ i ih => rw [course, ih, Function.iterate_succ_apply', Input.once, next]

theorem State.course_once_mem {i : ℕ} (hi : i < n) :
    s.course report (Input.once source) (i + 1) ∈
      (List.iterate (next report) (s.given source) n)[i]? := by
  rw [List.getElem?_iterate _ _ _ _ hi]
  exact congrArg some (course_once i).symm

/-- The state after a number of steps, all of which are made from states that pass the test. -/
def State.tamely (report : Bool) : ℕ → State → Option State
  | 0, s => if s.isTame then some s else none
  | n + 1, s => if s.isTame then tamely report n (s.next report) else none

theorem State.of_tamely (h : s.tamely report n = some t) :
    (next report)^[n] s = t ∧ ∀ i ≤ n, ((next report)^[i] s).isTame = true := by
  induction n generalizing s with
  | zero =>
      rw [tamely] at h
      split at h
      · rename_i htame
        refine ⟨Option.some.inj h, fun i hi => ?_⟩
        obtain rfl := Nat.le_zero.mp hi
        exact htame
      · cases h
  | succ n ih =>
      rw [tamely] at h
      split at h
      · rename_i htame
        obtain ⟨hlast, hrest⟩ := ih h
        refine ⟨hlast, fun i hi => ?_⟩
        cases i with
        | zero => exact htame
        | succ i => exact hrest i (Nat.le_of_succ_le_succ hi)
      · cases h

/-- If the test is passed from the source on, then it is passed by the run on it. -/
theorem State.course_of_tamely (h : (s.given source).tamely report n = some t) :
    s.course report (Input.once source) (n + 1) = t ∧
      ∀ i ≤ n, (s.course report (Input.once source) (i + 1)).isTame = true := by
  obtain ⟨hlast, htame⟩ := of_tamely h
  refine ⟨(course_once n).trans hlast, fun i hi => ?_⟩
  rw [course_once]
  exact htame i hi

/-- Quiet steps are moves that do not halt. -/
theorem exists_iterate_of_reaches (report : Bool) (h : Reaches standardTable s t) :
    ∃ q, (State.next report)^[q] s = t ∧
      ∀ i < q, (Machine.advance standardTable report standardKernel.quit
        ((State.next report)^[i] s) #[]).1 = none := by
  induction h using Relation.ReflTransGen.head_induction_on with
  | refl => exact ⟨0, rfl, fun i hi => absurd hi (Nat.not_lt_zero i)⟩
  | @head s middle hquiet _ ih =>
      have hadvance : Machine.advance standardTable report standardKernel.quit s #[] =
          (none, middle, #[]) := Machine.goes_of_quiet hquiet #[]
      have hmove : s.next report = middle := by rw [State.next, State.move, hadvance]
      obtain ⟨q, hq, hruns⟩ := ih
      refine ⟨q + 1, by rw [Function.iterate_succ_apply, hmove, hq], fun i hi => ?_⟩
      cases i with
      | zero => rw [Function.iterate_zero, id, hadvance]
      | succ i =>
          rw [Function.iterate_succ_apply, hmove]
          exact hruns i (Nat.lt_of_succ_lt_succ hi)

/-- A run that does not fail is some number of moves. -/
theorem exists_runsFirst (report : Bool) (h : Reaches standardTable (s.given source) t)
    {u : State} (hhalt : step standardTable t = .ok (some .endOfInput) u) :
    ∃ p, RunsFirst report (s.course report (Input.once source)) (Input.once source) source p ∧
      s.course report (Input.once source) p = u := by
  obtain ⟨q, hq, hruns⟩ := exists_iterate_of_reaches report h
  have hlast : s.course report (Input.once source) (q + 1) = t := (State.course_once q).trans hq
  have hadvance : Machine.advance standardTable report standardKernel.quit t #[] =
      (some .endOfInput, u, #[]) := by
    rw [Machine.advance, hhalt]
  refine ⟨q + 2, ⟨rfl, fun i hpositive _ => ?_, fun i hpositive hi => ?_, ?_⟩, ?_⟩
  · obtain ⟨i, rfl⟩ := Nat.exists_eq_add_of_lt hpositive
    rw [Nat.zero_add, Input.once]
  · obtain ⟨i, rfl⟩ := Nat.exists_eq_add_of_lt hpositive
    rw [Nat.zero_add, State.course_once]
    exact hruns i (by omega)
  · rw [show q + 2 - 1 = q + 1 from rfl, hlast, hadvance]
  · rw [State.course, hlast, Input.once, State.move, hadvance]

/-- Wherever the machine lives, the prelude is some number of moves. -/
theorem exists_runsFirst_prelude (report : Bool) (around : Surroundings) :
    let trace := (Machine.booted.state.within around).course report (Input.once prelude)
    ∃ p, RunsFirst report trace (Input.once prelude) prelude p ∧
      (trace p).memory = Machine.furnished.state.memory := by
  obtain ⟨output, u, hreaches, hhalt⟩ :=
    Machine.exists_reaches_prelude around.output around.order
  rw [← State.given_within Machine.booted around prelude] at hreaches
  obtain ⟨p, hp, hlast⟩ := exists_runsFirst report hreaches hhalt
  exact ⟨p, hp, (congrArg State.memory hlast).trans (State.memory_within _ _)⟩

end Running

/-! ## The theorem -/

/-- **Memory is append-only, and definitions do not overlap.**  Let a machine that lives
anywhere be set up with the kernel and the library, and maybe evaluate the prelude.  Then let it be
given any sources and make any number of steps on each, with whatever failures to recover from, as
long as stores write below `HERE` but not to the cell of `HERE`, `ALLOT` gives no cells back, and
`HERE` stays away from the end of the address space.

Then there is an address for `HERE` at every moment, and a log of the entries that are live, newest
first, that starts with the words of the machine.  `HERE` never moves back and is above all that
was written.  Entries lie below it at different addresses, newer ones above older ones, so the names
in use are listed by the age of the entries that they mean.  A step changes cells between the old
`HERE` and the new one, the variables `HERE`, `STATE` and `LATEST`, and the target of the store that
it executes.  It puts at most one new entry into the log, in front, and the others keep their
order. -/
theorem memory_is_append_only {fresh m : Machine} {around : Surroundings}
    (hprimitives : fresh.primitives = #[]) (hstate : fresh.state = State.within {} around)
    (hm : fresh.bootstrap [libraryWords] = .ok () m) {report : Bool} {trace : ℕ → State}
    {inputs : ℕ → Option Input} {n p : ℕ} (hstart : trace 0 = m.state)
    (hmoves : ∀ i < n,
      trace (i + 1) = (trace i).move standardTable standardKernel report (inputs i))
    (hprelude : p = 0 ∨ RunsFirst report trace inputs prelude p)
    (htame : ∀ i < n, p ≤ i → inputs i = none → (trace i).IsTame)
    (hroom : ∀ i ≤ n, p ≤ i → ∀ here, (trace i).here = .ok here → here < Int64.maxValue - 3) :
    ∃ (heres : ℕ → Address) (logs : ℕ → List Entry), logs 0 = vocabularyLog ∧
      (∀ i ≤ n, (trace i).IsOrdered (heres i) (logs i) ∧
        (trace i).dictionary.visibleNames = ((logs i).filter fun entry =>
          decide ((trace i).dictionary.findVisible? entry.name = some entry)).map Entry.name) ∧
      ∀ i < n, ∃ new, new.length ≤ 1 ∧
        (trace i).Appends (fun address => inputs i = none ∧ (trace i).Stores address) new (heres i)
          (logs i) (trace (i + 1)) (heres (i + 1)) (logs (i + 1)) := by
  have hbooted := hstart.trans (state_eq_booted hprimitives hstate hm)
  have hordered : (trace 0).IsOrdered 219 vocabularyLog :=
    hstart ▸ isOrdered_of_bootstrap hprimitives hstate hm
  -- the prelude is tame by itself
  have hearly : ∀ i ≤ n, 0 < i → i < p → (trace i).isTame = true := by
    intro i hi hpositive hlt
    rcases hprelude with rfl | hp
    · exact absurd hlt (Nat.not_lt_zero i)
    · exact hp.isTame hbooted hmoves hpositive hlt hi
  have htame' : ∀ i < n, inputs i = none → (trace i).IsTame := by
    intro i hi hinput
    rcases Nat.lt_or_ge i p with hlt | hge
    · rcases Nat.eq_zero_or_pos i with rfl | hpositive
      · rcases hprelude with rfl | hp
        · exact absurd hlt (Nat.lt_irrefl 0)
        · rw [hp.given] at hinput
          cases hinput
      · exact .of_test (hearly i (Nat.le_of_lt hi) hpositive hlt)
    · exact htame i hi hge hinput
  have hroom' : ∀ i < n, (trace (i + 1)).here ≠ .ok Int64.maxValue := by
    intro i hi hmax
    rcases Nat.lt_or_ge (i + 1) p with hlt | hge
    · have htested := hearly (i + 1) hi (Nat.succ_pos i) hlt
      exact absurd (State.here_lt_of_isTame htested hmax) (by decide)
    · exact absurd (hroom (i + 1) hi hge _ hmax) (by decide)
  obtain ⟨heres, logs, hfirst, horders, happends⟩ :=
    exists_orders hordered hmoves htame' hroom'
  exact ⟨heres, logs, hfirst, fun i hi => ⟨horders i hi,
    (horders i hi).logged.visibleNames_eq (horders i hi).decreasing⟩, happends⟩

set_option maxRecDepth 4000 in
/-- A source that stores, fails and goes on. -/
theorem exists_tamely_patched : ∃ t ∈ (Machine.booted.state.given
      "VARIABLE X 7 X ! nope\n1 X +! 3 ALLOT").tamely false 60,
    t.memory.get 220 = .literal (.int 8) ∧
      t.memory.get Variable.here.address = .literal (.int 224) := by
  decide +kernel

/-- Nothing can be written to the output. -/
def Surroundings.silent : Surroundings := ⟨.ofString "", ⟨"", some 0⟩, default⟩

/-- A machine whose sink takes nothing evaluates the prelude, and another one that source. -/
theorem memory_is_append_only_patched :
    (∃ (trace : ℕ → State) (p : ℕ) (heres : ℕ → Address) (logs : ℕ → List Entry),
      trace 0 = Machine.booted.state.within .silent ∧
      RunsFirst true trace (Input.once prelude) prelude p ∧
      (trace p).memory = Machine.furnished.state.memory ∧
      ∀ i ≤ p, (trace i).IsOrdered (heres i) (logs i)) ∧
    ∃ (trace : ℕ → State) (heres : ℕ → Address) (logs : ℕ → List Entry),
      trace 0 = Machine.booted.state ∧ (trace 61).memory.get 220 = .literal (.int 8) ∧
      (trace 61).memory.get Variable.here.address = .literal (.int 224) ∧
      ∀ i ≤ 61, (trace i).IsOrdered (heres i) (logs i) := by
  refine ⟨?_, ?_⟩
  · let fresh : Machine := { state := State.within {} .silent }
    have hbootstrap : fresh.bootstrap [libraryWords] = .ok () (fresh.settled [libraryWords]) :=
      bootstrap_eq_ok rfl (by decide)
    have hbooted := state_eq_booted rfl rfl hbootstrap
    obtain ⟨p, hp, hmemory⟩ := exists_runsFirst_prelude true .silent
    obtain ⟨-, -, ⟨hhere, -⟩, -⟩ := Machine.isPrepared_furnished
    have hroom : ∀ i ≤ p, p ≤ i → ∀ here,
        ((Machine.booted.state.within .silent).course true (Input.once prelude) i).here =
          .ok here → here < Int64.maxValue - 3 := by
      intro i hi hge here hread
      obtain rfl := Nat.le_antisymm hi hge
      obtain rfl : 317 = here :=
        Except.ok.inj ((here_of_get (hmemory ▸ hhere)).symm.trans hread)
      decide
    obtain ⟨heres, logs, -, horders, -⟩ := memory_is_append_only rfl rfl hbootstrap hbooted.symm
      (fun _ _ => rfl) (.inr hp) (fun i hi hge => absurd hi (Nat.not_lt.mpr hge)) hroom
    exact ⟨_, p, heres, logs, rfl, hp, hmemory, fun i hi => (horders i hi).1⟩
  · obtain ⟨t, htamely, hcell, hhere⟩ := exists_tamely_patched
    let source := "VARIABLE X 7 X ! nope\n1 X +! 3 ALLOT"
    let trace := Machine.booted.state.course false (Input.once source)
    obtain ⟨hlast, htame⟩ : trace 61 = t ∧ ∀ i ≤ 60, (trace (i + 1)).isTame = true :=
      State.course_of_tamely htamely
    rw [← hlast] at hcell hhere
    have hfresh : ({} : Machine).state = State.within {} (State.surroundings {}) := rfl
    have hroom : ∀ i ≤ 61, 0 ≤ i → ∀ here, (trace i).here = .ok here →
        here < Int64.maxValue - 3 := by
      intro i hi _ here hread
      cases i with
      | zero =>
          have hstart := isOrdered_of_bootstrap rfl hfresh bootstrap_booted
          rw [show trace 0 = Machine.booted.state from rfl, hstart.here_eq] at hread
          cases hread
          decide
      | succ i => exact State.here_lt_of_isTame (htame i (Nat.le_of_succ_le_succ hi)) hread
    have hcare : ∀ i < 61, 0 ≤ i → Input.once source i = none → (trace i).IsTame := by
      intro i hi _ hinput
      cases i with
      | zero => cases hinput
      | succ i => exact .of_test (htame i (by omega))
    obtain ⟨heres, logs, -, horders, -⟩ := memory_is_append_only rfl hfresh bootstrap_booted rfl
      (fun _ _ => rfl) (.inl rfl) hcare hroom
    exact ⟨trace, heres, logs, rfl, hcell, hhere, fun i hi => (horders i hi).1⟩

end ThreadedForth
