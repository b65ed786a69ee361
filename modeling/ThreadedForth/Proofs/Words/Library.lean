import ThreadedForth.Vocabulary
import ThreadedForth.Proofs.Effect.Local

/-!
# The words of the library

Every word of the library but `+!` only computes.  The proofs follow the words: what a word looks at
before it takes anything is looked at by the computation too, and once a word takes its operands
nothing can go wrong any more.
-/

namespace ThreadedForth.Words

open Effect

variable {s : State}

/-! ## Taking operands that were looked at -/

theorem items_of_pick {stack : Stack .parameter} {n : Nat} {v : Value}
    (h : stack.pick n = .ok v) : stack.items[n]? = some v := by
  rw [Stack.pick] at h
  split at h
  · rename_i found hfound
    cases h
    exact hfound
  · cases h

theorem eq_push_of_peek {stack : Stack .parameter} {v : Value} (h : stack.peek = .ok v) :
    stack = Stack.push ⟨stack.items.drop 1⟩ v := by
  rcases stack with ⟨_ | ⟨top, items⟩⟩
  · cases h
  · cases h
    rfl

theorem discard_pop_ok {v : Value} {rest : Stack .parameter} (h : s.parameters = rest.push v) :
    discard pop s = .ok () { s with parameters := rest } := by
  refine discard_ok (a := v) ?_
  rw [pop_apply, h, Stack.pop_push]

theorem forM_push_apply (results : List Value) :
    results.forM push s =
      .ok () { s with parameters := ⟨results.reverse ++ s.parameters.items⟩ } := by
  induction results generalizing s with
  | nil => rfl
  | cons v results ih =>
      change (push v >>= fun _ => results.forM push) s = _
      rw [bind_ok (push_apply v s), ih]
      simp [Stack.push]

/-- With a second value on the stack, two values can be replaced. -/
theorem replaceTwo_ok {v : Value} {results : List Value} (h : s.parameters.pick 1 = .ok v) :
    replaceTwo results s =
      .ok () { s with parameters := ⟨results.reverse ++ s.parameters.items.drop 2⟩ } := by
  have hsecond := items_of_pick h
  rcases hitems : s.parameters.items with _ | ⟨top, _ | ⟨below, rest⟩⟩
  · rw [hitems] at hsecond
    cases hsecond
  · rw [hitems] at hsecond
    cases hsecond
  · have hparameters : s.parameters = (Stack.push ⟨rest⟩ below).push top := by
      rw [Stack.push, Stack.push, ← hitems]
    rw [replaceTwo, bind_ok (discard_pop_ok hparameters), bind_ok (discard_pop_ok rfl),
      forM_push_apply]
    rfl

/-! ## One lemma for each family of words -/

theorem isLocal_onNumbers (f : Number → Number → Except Cause Value) : IsLocal (onNumbers f) := by
  refine ⟨fun parameters _ => do
    let a ← (← parameters.pick 1).toNumber
    let b ← (← parameters.pick 0).toNumber
    let result ← f a b
    return { parameters := ⟨result :: parameters.items.drop 2⟩ }, fun s => ?_⟩
  refine give_examine_bind fun v hsecond => give_lift_bind fun a _ => ?_
  refine give_examine_bind fun w _ => give_lift_bind fun b _ => give_lift_bind fun result _ => ?_
  exact replaceTwo_ok hsecond

theorem isLocal_divMod : IsLocal divMod := by
  refine ⟨fun parameters _ => do
    let a ← (← parameters.pick 1).toNumber
    let b ← (← parameters.pick 0).toNumber
    let quotient ← a.divide? b
    let remainder ← a.remainder? b
    return { parameters := ⟨.ofNumber quotient :: .ofNumber remainder ::
      parameters.items.drop 2⟩ }, fun s => ?_⟩
  refine give_examine_bind fun v hsecond => give_lift_bind fun a _ => ?_
  refine give_examine_bind fun w _ => give_lift_bind fun b _ => ?_
  refine give_lift_bind fun quotient _ => give_lift_bind fun remainder _ => ?_
  exact replaceTwo_ok hsecond

theorem isLocal_equality (expected : Bool) : IsLocal (equality expected) := by
  refine ⟨fun parameters _ => do
    let a ← parameters.pick 1
    let b ← parameters.pick 0
    return { parameters := ⟨.flag (sameValue a b == expected) :: parameters.items.drop 2⟩ },
    fun s => ?_⟩
  refine give_examine_bind fun a hsecond => give_examine_bind fun b _ => ?_
  exact replaceTwo_ok hsecond

theorem isLocal_onBits (f : Int64 → Int64 → Int64) : IsLocal (onBits f) := by
  refine ⟨fun parameters _ => do
    let a ← (← parameters.pick 1).toInt
    let b ← (← parameters.pick 0).toInt
    return { parameters := ⟨.int (f a b) :: parameters.items.drop 2⟩ }, fun s => ?_⟩
  refine give_examine_bind fun v hsecond => give_lift_bind fun a _ => ?_
  refine give_examine_bind fun w _ => give_lift_bind fun b _ => ?_
  exact replaceTwo_ok hsecond

theorem isLocal_onNumber (f : Number → Value) : IsLocal (onNumber f) := by
  refine ⟨fun parameters _ => do
    let n ← (← parameters.peek).toNumber
    return { parameters := ⟨f n :: parameters.items.drop 1⟩ }, fun s => ?_⟩
  refine give_examine_bind fun v htop => give_lift_bind fun n _ => ?_
  rw [bind_ok (discard_pop_ok (eq_push_of_peek htop))]
  rfl

theorem isLocal_invert : IsLocal invert := by
  refine ⟨fun parameters _ => do
    let n ← parameters.peek >>= Value.toInt
    return { parameters := ⟨.int (~~~n) :: parameters.items.drop 1⟩ }, fun s => ?_⟩
  rw [invert, takeInt, bind_assoc]
  refine give_examine_bind fun n hn => ?_
  obtain ⟨rest, hrest⟩ := topInt_eq_ok hn
  rw [bind_assoc, bind_ok (discard_pop_ok hrest), hrest]
  rfl

theorem isLocal_push (v : Value) : IsLocal (push v) :=
  ⟨fun parameters _ => .ok { parameters := parameters.push v }, fun _ => rfl⟩

theorem isLocal_write (text : String) : IsLocal (write text) :=
  ⟨fun parameters _ => .ok { parameters, texts := [text] }, fun s => by
    change write text s = (write text >>= fun _ => pure ()) s
    rw [bind_pure]⟩

theorem isLocal_drop : IsLocal drop := by
  refine ⟨fun parameters _ => do return { parameters := (← parameters.pop).2 }, fun s => ?_⟩
  change discard pop s =
    give s (s.parameters.pop >>= fun popped => .ok { parameters := popped.2 })
  rcases hpop : s.parameters.pop with cause | ⟨v, rest⟩
  · refine discard_error ?_
    rw [pop_apply, hpop]
  · rw [discard_pop_ok (Stack.pop_eq_ok_iff.mp hpop)]
    rfl

theorem isLocal_dup : IsLocal dup :=
  ⟨fun parameters _ => do return { parameters := parameters.push (← parameters.peek) },
    fun _ => give_examine_bind fun _ _ => rfl⟩

theorem isLocal_copySecond : IsLocal copySecond :=
  ⟨fun parameters _ => do return { parameters := parameters.push (← parameters.pick 1) },
    fun _ => give_examine_bind fun _ _ => rfl⟩

theorem isLocal_questionDup : IsLocal questionDup := by
  refine ⟨fun parameters _ => do
    let top ← parameters.peek
    return { parameters := if top.isTruthy then parameters.push top else parameters },
    fun s => give_examine_bind fun top _ => ?_⟩
  split <;> rfl

theorem isLocal_rearrange (n : Nat) (selection : List Nat) : IsLocal (rearrange n selection) :=
  ⟨fun parameters _ => do
    parameters.require n
    let selected := selection.filterMap ((parameters.items.take n).reverse[·]?)
    return { parameters := ⟨selected.reverse ++ parameters.items.drop n⟩ },
    fun _ => give_examine_bind fun _ _ => rfl⟩

theorem isLocal_pickWord : IsLocal pickWord := by
  refine ⟨fun parameters _ => do
    let requested ← parameters.peek >>= Value.toInt
    let u ← position .parameter requested (parameters.size - 1)
    let v ← parameters.pick (u + 1)
    return { parameters := ⟨v :: parameters.items.drop 1⟩ }, fun s => ?_⟩
  rw [pickWord, requestedParameter, bind_assoc]
  refine give_examine_bind fun requested hrequested => give_examine_bind fun u _ => ?_
  refine give_examine_bind fun v _ => ?_
  obtain ⟨rest, hrest⟩ := topInt_eq_ok hrequested
  rw [bind_ok (discard_pop_ok hrest), hrest]
  rfl

theorem isLocal_depth : IsLocal depth :=
  ⟨fun parameters _ => .ok { parameters := parameters.push (count parameters.size) },
    fun _ => rfl⟩

/-! ## Printing -/

/-- How a value is printed if that is the radix. -/
def printedIn (base : Except Cause Nat) : Value → Except Cause String
  | .int n => return Numeral.write (← base) n
  | v => .ok v.display

/-- Of the state, only the radix matters for how a value is printed. -/
theorem printed_eq (s : State) : printed s = printedIn s.base := by
  funext v
  cases v <;> rfl

theorem isLocal_dot : IsLocal dot := by
  refine ⟨fun parameters base => do
    let v ← parameters.peek
    let text ← printedIn base v
    return { parameters := ⟨parameters.items.drop 1⟩, texts := [text, " "] }, fun s => ?_⟩
  refine give_examine_bind fun v htop => ?_
  rw [← printed_eq]
  refine @give_examine_bind _ _ (printed · v) _ _ fun text _ => ?_
  rw [bind_ok (discard_pop_ok (eq_push_of_peek htop))]
  change (write text >>= fun _ => write " ") _ = (write text >>= fun _ => write " " >>= pure) _
  rw [bind_pure]

theorem isLocal_dotS : IsLocal dotS := by
  refine ⟨fun parameters base => do
    let texts ← parameters.toList.mapM (printedIn base)
    return { parameters, texts := [texts.foldl (fun text item => text ++ item ++ " ")
      s!"<{parameters.size}> "] }, fun s => ?_⟩
  have hprinted := printed_eq s
  refine Eq.trans (give_lift_bind (g := fun texts => .ok { parameters := s.parameters, texts :=
    [texts.foldl (fun text item => text ++ item ++ " ") s!"<{s.parameters.size}> "] })
    fun texts _ => ?_) ?_
  · change write _ s = (write _ >>= pure) s
    rw [bind_pure]
  · rw [hprinted]
    rfl

theorem isLocal_spaces : IsLocal spaces := by
  refine ⟨fun parameters _ => do
    let n ← parameters.peek >>= Value.toInt
    if spacesLimit < n then .error (.countOutOfRange "SPACES" n spacesLimit)
    return { parameters := ⟨parameters.items.drop 1⟩
             texts := [String.ofList (List.replicate n.toNatClampNeg ' ')] }, fun s => ?_⟩
  refine give_examine_bind fun n hn => ?_
  by_cases hlimit : spacesLimit < n
  · rw [if_pos hlimit, if_pos hlimit]
    rfl
  · obtain ⟨rest, hrest⟩ := topInt_eq_ok hn
    rw [if_neg hlimit, if_neg hlimit]
    change (discard pop >>= fun _ => write _) s = (write _ >>= pure) _
    rw [bind_pure, bind_ok (discard_pop_ok hrest), hrest]
    rfl

theorem isLocal_type : IsLocal type := by
  refine ⟨fun parameters _ => do
    let popped ← parameters.pop
    return { parameters := popped.2, texts := [popped.1.display] }, fun s => ?_⟩
  change (pop >>= fun v => write v.display) s =
    give s (s.parameters.pop >>= fun popped => .ok ⟨popped.2, [popped.1.display]⟩)
  rcases hpop : s.parameters.pop with cause | ⟨v, rest⟩
  · have herror : pop s = .error { cause } s := by rw [pop_apply, hpop]
    rw [bind_error herror]
    rfl
  · have hok : pop s = .ok v { s with parameters := rest } := by rw [pop_apply, hpop]
    rw [bind_ok hok]
    change write _ _ = (write _ >>= pure) _
    rw [bind_pure]

/-! ## All words -/

/-- Every word of the library but `+!` only computes. -/
theorem isLocal_of_mem_libraryWords : ∀ word ∈ libraryWords, word.name ≠ "+!" →
    IsLocal word.effect := by
  simp [libraryWords, arithmetic, division, comparison, zeroComparison, isLocal_onNumbers,
    isLocal_divMod, isLocal_equality, isLocal_onBits, isLocal_onNumber, isLocal_invert,
    isLocal_push, isLocal_write, isLocal_drop, isLocal_dup, isLocal_copySecond,
    isLocal_questionDup, isLocal_rearrange, isLocal_pickWord, isLocal_depth, isLocal_dot,
    isLocal_dotS, isLocal_spaces]

end ThreadedForth.Words
