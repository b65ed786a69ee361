import ThreadedForth.Proofs.Machine.Executing
import ThreadedForth.Proofs.Machine.Outfit

/-!
# Recovering

A step that fails may leave anything on the stacks, any depth and any mode, and nonsense in the
variables.  Recovering goes to `QUIT` all the same, and `QUIT` goes to the outer loop: both look at
a few cells only and at nothing else.

A failing word leaves these cells alone.  If `HERE` is an address that is not past them, then there
is room for whatever a word compiles, and a careful word that fails has not touched memory.  If
`HERE` is past them or no address at all, then compiling does not get to them.
-/

namespace ThreadedForth

open Effect

variable {s t : State} {word : Primitive} {error : Error} {kernel : Kernel}

/-! ## Cells that failing words leave alone -/

/-- A word that fails leaves every cell alone that is neither a variable nor near the end of the
address space. -/
theorem get_of_effect_error (hword : word ∈ vocabulary) (hkernel : s.kernel? = some kernel)
    (herror : word.effect s = .error error t) {address : Address} (hlow : 4 ≤ address.toInt)
    (hhigh : address.toInt ≤ Int64.maxValue.toInt - 2 ^ 20 - 3) :
    t.memory.get address = s.memory.get address := by
  by_cases hpassed : s.HasPassed address
  · by_cases hpatch : word.name ∈ Ability.patch.words
    · rcases patches_of_mem_vocabulary word hword hpatch s with ⟨parameters, hsame⟩ | hwrites
      · rw [← after_error herror, hsame]
      · obtain ⟨_, _, _, -, hok⟩ := hwrites
        cases hok.symm.trans herror
    by_cases hretreat : word.name ∈ Ability.retreat.words
    · rw [effect_of_name_allot word hword (List.mem_singleton.mp hretreat)] at herror
      rcases Words.becomes_allot s with ⟨_, _, hok, -, -⟩ | hbecomes
      · cases hok.symm.trans herror
      · rw [after_error herror] at hbecomes
        exact (hbecomes.get_eq id id hlow hpassed).2
    · have hbecomes := becomes_of_mem_vocabulary hword s
      rw [after_error herror] at hbecomes
      exact (hbecomes.get_eq hretreat hpatch hlow hpassed).2
  · obtain ⟨here, hhere, hle⟩ : ∃ here, s.here = .ok here ∧ here.toInt ≤ address.toInt := by
      simpa [State.HasPassed] using hpassed
    have hready : s.IsReady := ⟨⟨kernel, hkernel⟩, here, hhere, by omega⟩
    rw [(careful_of_mem_vocabulary hready hword).memory_eq herror]

/-- The memories have the same cells at these addresses. -/
def Memory.AgreesAt (memory other : Memory) (addresses : List Address) : Prop :=
  ∀ address ∈ addresses, memory.get address = other.get address

/-- A word that does no harm to the outer loop: what the machine knows of its kernel stays, and if
the word fails, then it has not asked for a halt and has left the places of the kernel alone. -/
structure Primitive.IsHarmless (kernel : Kernel) (word : Primitive) : Prop where
  known : ∀ s, (after word.effect s).kernel? = s.kernel?
  halt : ∀ ⦃s error t⦄, word.effect s = .error error t → t.halt? = s.halt?
  places : ∀ ⦃s error t⦄, s.kernel? = some kernel → word.effect s = .error error t →
    t.memory.AgreesAt s.memory kernel.places

/-- The words of the kernel and the library do no harm. -/
theorem isHarmless_of_mem_vocabulary (hword : word ∈ vocabulary)
    (hplaces : ∀ address ∈ kernel.places,
      4 ≤ address.toInt ∧ address.toInt ≤ Int64.maxValue.toInt - 2 ^ 20 - 3) :
    word.IsHarmless kernel where
  known s := (becomes_of_mem_vocabulary hword s).kernel?_eq
  halt _ _ _ herror := halt?_of_effect_error hword herror
  places _ _ _ hkernel herror address haddress :=
    get_of_effect_error hword hkernel herror (hplaces address haddress).1
      (hplaces address haddress).2

/-- A failing step does no harm if the words of the table do none. -/
theorem harmless_of_step_error {table : PrimitiveTable}
    (hwords : ∀ id word, table.lookup id = .ok word → word.IsHarmless kernel)
    (hkernel : s.kernel? = some kernel) (hstep : step table s = .error error t) :
    t.kernel? = some kernel ∧ t.halt? = s.halt? ∧ t.memory.AgreesAt s.memory kernel.places := by
  rcases step_error_cases hstep with rfl | ⟨id, word, _, u, hlookup, herror, rfl⟩
  · exact ⟨hkernel, rfl, fun _ _ => rfl⟩
  · have hword := hwords id word hlookup
    have hknown := hword.known s
    have hhalt := hword.halt herror
    have hplaces := hword.places hkernel herror
    rw [after_error herror] at hknown
    exact ⟨hknown.trans hkernel, hhalt, hplaces⟩

/-! ## Back to the outer loop -/

/-- A failure leaves the machine about to interpret the next line, with the mode and the call links
of the outer loop.  The rest is as the failing step left it. -/
def State.regained (t : State) (kernel : Kernel) (output : Output) : State :=
  { t with
    ip := kernel.interpret
    nip := kernel.outerLoop + 1
    depth := 1
    memory := t.memory.set Variable.state.address (.literal (.int 0))
    returns := {}
    input := t.input.dropLine
    output }

namespace Machine

variable {table : PrimitiveTable} {report : Bool} {m : Machine} {before after : Progress}
variable {recovered : Array Error}

/-- A run of a machine that knows its kernel does not end with a failure. -/
theorem run_eq_ok (hkernel : m.state.kernel? = some kernel) {fuel : Nat}
    {result : Except Cause Halt} {after : Machine} (h : m.run fuel = some (result, after)) :
    ∃ halt, result = .ok halt := by
  have hread : m.state.kernel = .ok kernel := by rw [State.kernel, hkernel]
  rw [run, hread] at h
  dsimp only at h
  split at h
  · cases h
  · injection h with h
    exact ⟨_, (congrArg Prod.fst h).symm⟩

section Harmless

variable (hwords : ∀ id word, table.lookup id = .ok word → word.IsHarmless kernel)
include hwords

/-- In the course of a run the kernel stays known, and no request to halt stays open. -/
theorem keeps_of_goes (h : Goes table kernel report before after)
    (hbefore : before.1.kernel? = some kernel ∧ before.1.halt? = none) :
    after.1.kernel? = some kernel ∧ after.1.halt? = none := by
  rcases hstep : step table before.1 with ⟨halt?, t⟩ | ⟨error, t⟩
  · have hkernel := kernel?_after_step_of_table
      (fun id word hword => (hwords id word hword).known) before.1
    simp only [Goes, advance, hstep, Prod.mk.injEq] at h
    obtain ⟨rfl, rfl⟩ := h
    rw [after_ok hstep] at hkernel
    exact ⟨hkernel.trans hbefore.1, halt?_of_step_ok hstep⟩
  · obtain ⟨hkernel, hhalt, -⟩ := harmless_of_step_error hwords hbefore.1 hstep
    simp only [Goes, advance, hstep, Prod.mk.injEq, true_and] at h
    subst h
    obtain ⟨output, hrecover⟩ := exists_recover report kernel.quit error t
    rw [hrecover t.input]
    exact ⟨hkernel, hhalt.trans hbefore.2⟩

theorem keeps_of_comes (h : Comes table kernel report before after)
    (hbefore : before.1.kernel? = some kernel ∧ before.1.halt? = none) :
    after.1.kernel? = some kernel ∧ after.1.halt? = none := by
  induction h with
  | refl => exact hbefore
  | tail _ hgoes ih => exact keeps_of_goes hwords hgoes ih

end Harmless

/-- After a failure the machine is at `QUIT`, then at the outer loop, and then at `INTERPRET`. -/
theorem goes_to_outer_loop (hstep : step table s = .error error t)
    (hkernel : t.kernel? = some kernel) (hhalt : t.halt? = none) {id : Nat}
    (hquit : t.memory.get kernel.quit = .native id)
    (hword : table.lookup id =
      .ok { name := "QUIT", control := .owned, effect := restart })
    (hloop : t.memory.get kernel.outerLoop = .reference kernel.interpret)
    (hne : Variable.state.address ≠ kernel.outerLoop) (recovered : Array Error) :
    ∃ first second output,
      Goes table kernel report (s, recovered) (first, recovered.push error) ∧
      Goes table kernel report (first, recovered.push error) (second, recovered.push error) ∧
      Goes table kernel report (second, recovered.push error)
        (t.regained kernel output, recovered.push error) ∧
      first.input = t.input.dropLine ∧ second.input = t.input.dropLine := by
  obtain ⟨output, hrecover⟩ := exists_recover report kernel.quit error t
  let first : State := { t with input := t.input.dropLine, output, ip := kernel.quit }
  let second : State :=
    { first.setMode .interpret with returns := {}, depth := 1, ip := kernel.outerLoop }
  have hread : first.kernel = .ok kernel := by rw [State.kernel, hkernel]
  have hrestart : restart first = .ok () second := bind_ok (examine_ok hread)
  have hsame : second.halt? = none := hhalt
  have hfirst : step table first = .ok none second := by
    rw [step_owned hquit hword rfl hrestart, State.with_halt_none hsame, hsame]
  have hcell : second.memory.get second.ip = .reference kernel.interpret := by
    rw [← hloop]
    exact Memory.get_set_of_ne _ hne _
  have hregained : (t.regained kernel output).halt? = none := hhalt
  have hsecond : step table second = .ok none (t.regained kernel output) := by
    rw [step_reference hcell, hsame]
    exact congrArg (EStateM.Result.ok none) (State.with_halt_none hregained)
  refine ⟨first, second, output, ?_, ?_, ?_, rfl, rfl⟩
  · simp only [Goes, advance, hstep, hrecover t.input]
    rfl
  · simp only [Goes, advance, hfirst]
  · simp only [Goes, advance, hsecond]

end Machine

/-- The places of a machine that was set up are above the variables, and away from the end of the
address space. -/
theorem Machine.toInt_places_outfit (fresh : Machine) (libraries : List (List Primitive))
    (hroom : (kernelWords ++ libraries.flatten).length < 2 ^ 61) :
    ∀ address ∈ (fresh.outfit libraries hroom).kernel.places,
      4 ≤ address.toInt ∧ address.toInt ≤ Int64.maxValue.toInt - 2 ^ 20 - 3 := by
  intro address haddress
  obtain ⟨hlow, hhigh⟩ := Outfit.toInt_places address haddress
  have hmax : Int64.maxValue.toInt = 9223372036854775807 := rfl
  have hpast : (fresh.outfit libraries hroom).past =
      4 + 2 * (kernelWords ++ libraries.flatten).length + 3 :=
    congrArg (· + 3) (toInt_primitiveAddress _ (by omega))
  omega

/-- **Recovery always reaches the outer loop.**  Let a machine be set up with any libraries whose
words do no harm, as those of the standard library do, and let a machine with its primitives and its
kernel be in any state, with anything on its stacks and anything in its memory.  A run of it never
ends with a failure.

If a step of the run fails at a moment when the cells of `QUIT`, `INTERPRET` and the outer loop hold
what setting up wrote there, then recovering and the next two steps take it back to the outer loop,
with one more failure on record and the rest of the line dropped.  Nothing else is read on the way,
and the cells of the outer loop are still in place. -/
theorem recovery_reaches_outer_loop {fresh m n : Machine} {libraries : List (List Primitive)}
    (hm : fresh.bootstrap libraries = .ok () m) (hkernel : m.state.kernel? = some kernel)
    (hroom : (kernelWords ++ libraries.flatten).length < 2 ^ 61)
    (hwords : ∀ word ∈ fresh.primitives.toList ++ libraries.flatten,
      word ∈ vocabulary ∨ word.IsHarmless kernel)
    (hprimitives : n.primitives = m.primitives) (hknown : n.state.kernel? = m.state.kernel?) :
    (∀ fuel result after, n.run fuel = some (result, after) → ∃ halt, result = .ok halt) ∧
    ∀ s recovered error t,
      Machine.Comes n.primitives kernel n.report
        ({ n.state with halt? := none }, n.recovered) (s, recovered) →
      s.memory.AgreesAt m.state.memory kernel.places → step n.primitives s = .error error t →
      ∃ first second output,
        Machine.Goes n.primitives kernel n.report (s, recovered) (first, recovered.push error) ∧
        Machine.Goes n.primitives kernel n.report (first, recovered.push error)
          (second, recovered.push error) ∧
        Machine.Goes n.primitives kernel n.report (second, recovered.push error)
          (t.regained kernel output, recovered.push error) ∧
        first.input = t.input.dropLine ∧ second.input = t.input.dropLine ∧
        (t.regained kernel output).memory.AgreesAt m.state.memory kernel.places := by
  have hfitted := isFitted_of_bootstrap hm hroom
  have hintact := isIntact_of_bootstrap hm hroom
  obtain rfl : kernel = (fresh.outfit libraries hroom).kernel :=
    Option.some.inj (hkernel.symm.trans hfitted.kernel)
  have hplaces := fresh.toInt_places_outfit libraries hroom
  have hharmless : ∀ id word, n.primitives.lookup id = .ok word →
      word.IsHarmless (fresh.outfit libraries hroom).kernel := by
    intro id word hlookup
    rw [hprimitives] at hlookup
    exact forall_lookup_of_bootstrap hm
      (fun word hword => isHarmless_of_mem_vocabulary hword hplaces) hwords id word hlookup
  refine ⟨fun fuel result after => Machine.run_eq_ok (hknown.trans hkernel), ?_⟩
  intro s recovered error t hcomes hcells hstep
  obtain ⟨hs, hhalt⟩ :=
    Machine.keeps_of_comes hharmless hcomes ⟨hknown.trans hkernel, rfl⟩
  obtain ⟨ht, hhalt', hsame⟩ := harmless_of_step_error hharmless hs hstep
  have hplace : t.memory.AgreesAt m.state.memory (fresh.outfit libraries hroom).kernel.places :=
    fun address haddress => (hsame address haddress).trans (hcells address haddress)
  have hstate : ∀ address ∈ (fresh.outfit libraries hroom).kernel.places,
      Variable.state.address ≠ address := by
    rintro address haddress rfl
    exact absurd (hplaces _ haddress).1 (by decide)
  have hmem : (fresh.outfit libraries hroom).kernel.quit ∈
        (fresh.outfit libraries hroom).kernel.places ∧
      (fresh.outfit libraries hroom).kernel.outerLoop ∈
        (fresh.outfit libraries hroom).kernel.places := by
    simp [Kernel.places]
  have hword : (fresh.outfit libraries hroom).words[8]? =
      some { name := "QUIT", control := .owned, effect := restart } := rfl
  have hquit := hintact.primitive 8 (Outfit.lt_length hword)
  have hlookup := (fresh.outfit libraries hroom).lookup _ _ hword
  rw [← hfitted.primitives, ← hprimitives] at hlookup
  obtain ⟨first, second, output, hfirst, hsecond, hthird, hread, hread'⟩ :=
    Machine.goes_to_outer_loop hstep ht (hhalt'.trans hhalt) ((hplace _ hmem.1).trans hquit)
      hlookup ((hplace _ hmem.2).trans hintact.outerLoop.1) (hstate _ hmem.2) recovered
  refine ⟨first, second, output, hfirst, hsecond, hthird, hread, hread', ?_⟩
  intro address haddress
  rw [← hplace address haddress]
  exact Memory.get_set_of_ne _ (hstate address haddress) _

/-- The memory with texts in the variables. -/
def Memory.spoiled (memory : Memory) : Memory :=
  Variable.all.foldl (fun memory v => memory.set v.address (.literal (.string "nonsense"))) memory

theorem Memory.get_spoiled (memory : Memory) (v : Variable) :
    memory.spoiled.get v.address = .literal (.string "nonsense") := by
  cases v <;> simp [spoiled, Variable.all, Memory.get_set, Variable.address]

theorem Memory.get_spoiled_of_le (memory : Memory) {address : Address} (h : 4 ≤ address.toInt) :
    memory.spoiled.get address = memory.get address := by
  have hne : ∀ v : Variable, v.address ≠ address := by
    rintro v rfl
    cases v <;> exact absurd h (by decide)
  simp only [spoiled, Variable.all, List.foldl_cons, List.foldl_nil, Memory.get_set_of_ne _ (hne _)]

/-- A machine whose variables hold texts, deep in calls with no address to return to, and about to
add what is not there. -/
def Machine.spoiled : Machine :=
  { booted with
    state :=
      { booted.state with
        memory := booted.state.memory.spoiled
        depth := 7
        returns := ⟨[.char 'a']⟩
        nip := -1
        ip := 120
        parameters := {}
        halt? := none }
    recovered := #[] }

/-- The word that it executes is the one that adds. -/
theorem Machine.get_spoiled : spoiled.state.memory.get spoiled.state.ip = .native 58 :=
  (Memory.get_spoiled_of_le _ (show (4 : Int) ≤ Int64.toInt 120 by decide)).trans
    ((isIntact_standard_of_bootstrap rfl bootstrap_booted).primitive 58 (by decide))

/-- From that state, too, the machine gets back to the outer loop. -/
theorem recovery_reaches_outer_loop_spoiled : ∃ n : Machine,
    (∀ v : Variable, ∃ cause, n.state.readVariable v = .error cause) ∧ n.state.depth = 7 ∧
    n.state.returns.items = [.char 'a'] ∧ n.state.halt? = none ∧
    ∃ error t first second output,
      step n.primitives n.state = .error error t ∧ error.cause = .stackUnderflow .parameter ∧
      Machine.Goes n.primitives standardKernel n.report (n.state, #[]) (first, #[error]) ∧
      Machine.Goes n.primitives standardKernel n.report (first, #[error]) (second, #[error]) ∧
      Machine.Goes n.primitives standardKernel n.report (second, #[error])
        (t.regained standardKernel output, #[error]) := by
  have hstandard := isStandard_of_bootstrap rfl bootstrap_booted
  have heffect : Words.arithmetic Number.plus Machine.spoiled.state =
      .error { cause := .stackUnderflow .parameter } Machine.spoiled.state := rfl
  obtain ⟨context, hstep⟩ :=
    step_native_error Machine.get_spoiled (lookup_standardTable rfl) heffect
  rw [← hstandard.primitives] at hstep
  have hplaces : Machine.spoiled.state.memory.AgreesAt Machine.booted.state.memory
      standardKernel.places := fun address haddress =>
    Memory.get_spoiled_of_le _ (Outfit.toInt_places (w := .standard) address haddress).1
  obtain ⟨-, hrecovers⟩ := recovery_reaches_outer_loop bootstrap_booted hstandard.kernel (by decide)
    (fun word hword => .inl (List.mem_append_right _ (by simpa using hword)))
    (n := Machine.spoiled) rfl rfl
  obtain ⟨first, second, output, hfirst, hsecond, hthird, -⟩ :=
    hrecovers Machine.spoiled.state #[] _ _ .refl hplaces hstep
  refine ⟨.spoiled, fun v => ⟨.kindMismatch .int .string, ?_⟩, rfl, rfl, rfl, _, _, first, second,
    output, hstep, rfl, hfirst, hsecond, hthird⟩
  have htext : Machine.spoiled.state.memory.get v.address = .literal (.string "nonsense") :=
    Memory.get_spoiled _ v
  simp only [State.readVariable, htext]
  rfl

end ThreadedForth
