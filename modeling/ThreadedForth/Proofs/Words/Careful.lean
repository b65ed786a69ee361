import Mathlib.Algebra.Group.Nat.Defs
import ThreadedForth.Proofs.Words.Library

/-!
# Every word looks before it takes

All words of the kernel and the library are careful wherever the machine is set up and has some
room left: a word that fails on anything but input or output has read on in the source at most.
For the words that only compute this is known already.  The others are gone through one by one, and
each proof follows its word: first what it looks at, which may fail, and then what it does, which
may not.
-/

namespace ThreadedForth

/-- The machine is set up, and there is room for whatever one word may compile. -/
structure State.IsReady (s : State) : Prop where
  kernel : ∃ kernel, s.kernel? = some kernel
  room : s.HasRoom (2 ^ 20 + 3)

theorem State.ReadsTo.isReady {s t : State} (h : s.ReadsTo t) (hready : s.IsReady) :
    t.IsReady := by
  obtain ⟨-, ht⟩ := h
  rw [ht]
  exact ⟨hready.kernel, hready.room⟩

namespace Effect

variable {α β : Type} {s : State} {memory : Memory}

/-! ## More ways of looking -/

theorem Careful.peek_bind {f : Value → Effect β}
    (h : ∀ v (rest : Stack .parameter), s.parameters = rest.push v → Careful (f v) s) :
    Careful (peek >>= f) s :=
  .examine_bind fun _ hv => h _ _ (Words.eq_push_of_peek hv)

theorem Careful.discard_peek_bind {f : Unit → Effect β} (h : Careful (f ()) s) :
    Careful (Functor.discard peek >>= f) s := by
  rcases hpeek : s.parameters.peek with cause | v
  · exact .of_error (bind_error (discard_error (examine_error hpeek)))
  · have hok : peek s = .ok v s := examine_ok hpeek
    intro error t herror
    rw [bind_ok (discard_ok hok)] at herror
    exact h herror

theorem Careful.topInt_bind {f : Int64 → Effect β}
    (h : ∀ n (rest : Stack .parameter), s.parameters = rest.push (.int n) → Careful (f n) s) :
    Careful (topInt >>= f) s := by
  refine .examine_bind fun n hn => ?_
  obtain ⟨rest, hrest⟩ := topInt_eq_ok hn
  exact h n rest hrest

/-- A word may pop at once if it can be sure of the rest. -/
theorem Careful.pop_bind {f : Value → Effect β}
    (h : ∀ v (rest : Stack .parameter), s.parameters = rest.push v →
      Ensures s.memory (f v) { s with parameters := rest } fun _ _ => True) :
    Careful (pop >>= f) s := by
  rcases hpop : s.parameters.pop with cause | ⟨v, rest⟩
  · have herror : pop s = .error { cause } s := by rw [pop_apply, hpop]
    exact .of_error (bind_error herror)
  · have hrest := Stack.pop_eq_ok_iff.mp hpop
    exact .of_ensures (.bind (.pop hrest (h v rest hrest)))

theorem Careful.takeInt_bind {f : Int64 → Effect β}
    (h : ∀ n (rest : Stack .parameter), s.parameters = rest.push (.int n) →
      Ensures s.memory (f n) { s with parameters := rest } fun _ _ => True) :
    Careful (takeInt >>= f) s := by
  rw [takeInt, bind_assoc]
  refine .topInt_bind fun n rest hrest => .of_ensures ?_
  rw [bind_assoc]
  exact .bind (.discard (.pop hrest (h n rest hrest)))

theorem Careful.popReturn_bind {f : Value → Effect β}
    (h : ∀ v t, Ensures s.memory (f v) t fun _ _ => True) : Careful (popReturn >>= f) s := by
  refine .bind_ensures (fun error t herror => ?_) fun v t _ => h v t
  change EStateM.bind (monadLift s.returns.pop) _ s = _ at herror
  rcases hpop : s.returns.pop with cause | popped
  · rw [hpop] at herror
    cases herror
    exact .inr s.readsTo_refl
  · rw [hpop] at herror
    cases herror

theorem Careful.requireCompiling_bind {word : String} {f : Unit → Effect β}
    (h : Careful (f ()) s) : Careful (Words.requireCompiling word >>= f) s := by
  rw [Words.requireCompiling, bind_assoc]
  refine .examine_bind fun mode _ => ?_
  split
  · exact .bind .fail fun _ _ hok => by cases hok
  · exact h

theorem Careful.addressOf_bind {name : String} {f : Address → Effect β}
    (h : ∀ address, Careful (f address) s) : Careful (Words.addressOf name >>= f) s := by
  rw [Words.addressOf, bind_assoc]
  refine .get_bind ?_
  split
  · exact h _
  · exact .bind .fail fun _ _ hok => by cases hok

theorem Careful.initialChar_bind {f : Char → Effect β}
    (h : ∀ c t, s.ReadsTo t → Careful (f c) t) : Careful (Words.initialChar >>= f) s := by
  rw [Words.initialChar, bind_assoc]
  refine .readToken_bind fun token t hreads => ?_
  split
  · exact h _ t hreads
  · exact .bind .fail fun _ _ hok => by cases hok

theorem Careful.quotedText_bind {f : String → Effect β}
    (h : ∀ text t, s.ReadsTo t → Careful (f text) t) : Careful (Words.quotedText >>= f) s := by
  obtain ⟨input, hadvances, hread⟩ := readText?_apply s '"'
  rw [Words.quotedText, bind_assoc]
  refine .bind (.of_ok hread) fun text? t hok => ?_
  rw [hread] at hok
  cases hok
  refine ⟨s.readsTo_input hadvances, ?_⟩
  split
  · exact h _ _ (s.readsTo_input hadvances)
  · exact .bind .fail fun _ _ hok => by cases hok

/-- A name can always be entered where there is a `HERE`. -/
theorem Ensures.nameHere {name : String} {hidden : Bool} {Q : Unit → State → Prop} {n : Nat}
    (hroom : s.HasRoom n)
    (hQ : ∀ t, t.HasRoom n → t.kernel? = s.kernel? → Q () t) :
    Ensures memory (Words.nameHere name hidden) s Q := by
  obtain ⟨here, hhere, hle⟩ := hroom
  refine .bind (.of_ok (examine_ok hhere) (.of_ok rfl (hQ _ ⟨here, ?_, hle⟩ rfl)))
  rw [← hhere]
  simp only [State.here, State.readVariable, State.writeVariable]
  rw [Memory.get_set_of_ne _ (by decide)]

theorem Ensures.compileTimes {cell : Cell} {n : Nat} (hroom : s.HasRoom n) :
    Ensures memory (Words.compileTimes cell n) s fun _ _ => True := by
  induction n generalizing s with
  | zero => exact .of_ok rfl trivial
  | succ n ih => exact .bind (.discard (.compile hroom fun _ _ hroom' _ => ih hroom'))

end Effect

namespace Words

open Effect

variable {s : State}

/-! ## Words that need nothing -/

theorem careful_exit : Careful Effect.exit s := by
  refine .get_bind ?_
  split
  · exact .fail
  · split
    · exact .fail
    · exact .lift_bind fun target _ => .of_ok rfl

theorem careful_restart : Careful restart s := .examine_bind fun _ _ => .of_ok rfl

theorem careful_lit : Careful lit s := .get_bind (.examine_bind fun _ _ => .of_ok rfl)

theorem careful_branch : Careful branch s := .get_bind (.examine_bind fun _ _ => .of_ok rfl)

theorem careful_zeroBranch : Careful zeroBranch s :=
  .get_bind (.examine_bind fun _ _ => .pop_bind fun _ _ _ => .of_ok rfl trivial)

theorem careful_execute : Careful execute s := .takeInt_bind fun _ _ _ => .of_ok rfl trivial

theorem careful_fetch : Careful fetch s := by
  refine .topInt_bind fun address rest hrest => .examine_bind fun v _ => .of_ensures ?_
  exact .bind (.discard (.pop hrest (.of_ok rfl trivial)))

theorem careful_store : Careful Words.store s := by
  refine .examine_bind fun _ hrequire => .takeInt_bind fun address rest hrest => ?_
  -- there is a second value below the address
  rw [hrest] at hrequire
  rcases rest with ⟨_ | ⟨v, items⟩⟩
  · cases hrequire
  · exact .bind (.pop rfl (.of_ok rfl trivial))

theorem careful_plusStore : Careful plusStore s := by
  refine .examine_bind fun v hsecond => .lift_bind fun n _ => ?_
  refine .topInt_bind fun address rest hrest => .examine_bind fun held _ => ?_
  refine .lift_bind fun _ _ => .of_ensures ?_
  have hv := items_of_pick hsecond
  rw [hrest] at hv
  rcases rest with ⟨_ | ⟨below, items⟩⟩
  · cases hv
  · exact .bind (.discard (.pop hrest (.bind (.discard (.pop rfl (.of_ok rfl trivial))))))

theorem careful_immediate : Careful immediate s := by
  refine .examine_bind fun latest _ => .get_bind ?_
  split
  · exact .of_ok rfl
  · exact .fail

theorem careful_toggleHidden : Careful toggleHidden s := by
  refine .topInt_bind fun address rest hrest => .get_bind ?_
  split
  · exact .of_ensures (.bind (.of_ok rfl (.discard (.pop hrest trivial))))
  · exact .bind .fail fun _ _ hok => by cases hok

theorem careful_hide : Careful hide s := by
  refine .readToken_bind fun name t _ => .get_bind ?_
  dsimp only
  split
  · exact .of_ok rfl
  · exact .fail

theorem careful_forget : Careful forget s := by
  refine .readToken_bind fun name t _ => .get_bind ?_
  split
  · exact .of_ok rfl
  · exact .fail

theorem careful_docon : Careful docon s := .get_bind (.examine_bind fun _ _ => .of_ok rfl)

theorem careful_tick : Careful tick s :=
  .readToken_bind fun _ _ _ => .addressOf_bind fun _ => .of_ok rfl

/-! ### Positions on the stacks -/

theorem lt_of_position {stack : StackKind} {requested : Int64} {size p : Nat}
    (h : position stack requested size = .ok p) : p < size := by
  rw [position] at h
  split at h
  · rename_i hinside
    cases h
    have hlow : 0 ≤ requested.toInt := Int64.le_iff_toInt_le.mp hinside.1
    rw [Int64.toNatClampNeg]
    omega
  · cases h

theorem setPointer_ok {kind : StackKind} {stack : Stack kind} {p : Nat} (h : p < stack.size) :
    ∃ rest, stack.setPointer p = .ok rest := by
  rw [Stack.setPointer, if_pos h]
  exact ⟨_, rfl⟩

theorem careful_parameterPointer : Careful parameterPointer s := .examine_bind fun _ _ => .of_ok rfl

theorem careful_returnPointer : Careful returnPointer s := .examine_bind fun _ _ => .of_ok rfl

theorem careful_setParameterPointer : Careful setParameterPointer s := by
  rw [setParameterPointer, requestedParameter, bind_assoc]
  refine .topInt_bind fun requested rest hrest => .examine_bind fun p hp => .of_ensures ?_
  -- the position was checked against the stack without its top
  have hlt := lt_of_position hp
  rw [hrest] at hlt
  have hkept : p < rest.size := by simpa [Stack.size, Stack.push] using hlt
  obtain ⟨kept, hkept⟩ := setPointer_ok hkept
  exact .bind (.discard (.pop hrest (.bind (.of_ok (examine_ok hkept) (.of_ok rfl trivial)))))

theorem careful_setReturnPointer : Careful setReturnPointer s := by
  rw [setReturnPointer, requestedReturn, bind_assoc]
  refine .topInt_bind fun requested rest hrest => .examine_bind fun p hp => .of_ensures ?_
  obtain ⟨kept, hkept⟩ := setPointer_ok (lt_of_position hp)
  exact .bind (.discard (.pop hrest (.bind (.of_ok (examine_ok hkept) (.of_ok rfl trivial)))))

theorem careful_parameterItem : Careful parameterItem s := by
  rw [parameterItem, requestedParameter, bind_assoc]
  refine .topInt_bind fun requested rest hrest => .examine_bind fun p _ => ?_
  refine .examine_bind fun v _ => .of_ensures ?_
  exact .bind (.discard (.pop hrest (.of_ok rfl trivial)))

theorem careful_returnItem : Careful returnItem s := by
  rw [returnItem, requestedReturn, bind_assoc]
  refine .topInt_bind fun requested rest hrest => .examine_bind fun p _ => ?_
  refine .examine_bind fun v _ => .of_ensures ?_
  exact .bind (.discard (.pop hrest (.of_ok rfl trivial)))

theorem careful_toReturn : Careful toReturn s := .pop_bind fun _ _ _ => .of_ok rfl trivial

theorem careful_fromReturn : Careful fromReturn s := .popReturn_bind fun _ _ => .of_ok rfl trivial

theorem careful_copyReturn : Careful copyReturn s := .examine_bind fun _ _ => .of_ok rfl

theorem careful_dropReturn : Careful dropReturn s := by
  refine .discard ?_
  rw [← bind_pure popReturn]
  exact .popReturn_bind fun _ _ => .of_ok rfl trivial

/-! ### Reading source and writing text -/

theorem careful_key : Careful key s := by
  have hreads : s.ReadsTo { s with input := s.input.next.2 } := s.readsTo_input (.next (.refl _))
  refine .bind (.of_ok rfl) fun c? t hok => ?_
  cases hok
  refine ⟨hreads, ?_⟩
  split
  · exact .of_ok rfl
  · exact .fail

theorem careful_word : Careful word s := .readToken_bind fun _ _ _ => .of_ok rfl

theorem careful_char : Careful char s := .initialChar_bind fun _ _ _ => .of_ok rfl

theorem careful_emit : Careful emit s := by
  refine .peek_bind fun v rest hrest => .lift_bind fun c _ => .of_ensures ?_
  exact .bind (.discard (.pop hrest (.write rfl fun _ => trivial)))

theorem careful_type : Careful type s := .pop_bind fun _ _ _ => .write rfl fun _ => trivial

theorem careful_comment : Careful comment s := .discard (.of_ok rfl)

theorem careful_words : Careful words s :=
  .get_bind (.of_ensures (.bind (.write rfl fun _ => .write rfl fun _ => trivial)))

theorem careful_see : Careful see s := by
  refine .readToken_bind fun name t _ => .get_bind ?_
  split
  · refine .examine_bind fun text _ => .of_ensures ?_
    exact .bind (.write rfl fun _ => .write rfl fun _ => trivial)
  · exact .fail

/-! ## Words that compile -/

section Compiling

variable (hs : s.IsReady)
include hs

theorem careful_comma : Careful comma s :=
  .pop_bind fun _ _ _ => .discard (.compile hs.room fun _ _ _ _ => trivial)

theorem careful_compileComma : Careful compileComma s :=
  .takeInt_bind fun _ _ _ => .discard (.compile hs.room fun _ _ _ _ => trivial)

theorem careful_allot : Careful allot s := by
  refine .topInt_bind fun n rest hrest => ?_
  dsimp only
  by_cases hlimit : allotLimit.toInt < n.toInt.natAbs
  · rw [if_pos hlimit]
    exact .bind .fail fun _ _ hok => by cases hok
  · rw [if_neg hlimit]
    refine .examine_bind fun here _ => .of_ensures (.bind (.discard (.pop hrest ?_)))
    split
    · exact .of_ok rfl trivial
    · refine .compileTimes (State.HasRoom.mono (s := s) hs.room ?_)
      have hallot : allotLimit.toInt = 2 ^ 20 := rfl
      rw [Int64.toNatClampNeg]
      omega

theorem careful_colon : Careful colon s := by
  refine .examine_bind fun kernel _ => .readToken_bind fun name t hreads => .of_ensures ?_
  refine .bind (.nameHere (hreads.isReady hs).room fun u hroom _ => ?_)
  exact .bind (.discard (.compile hroom fun _ _ _ _ => .of_ok rfl trivial))

theorem careful_semicolon : Careful semicolon s := by
  refine .requireCompiling_bind (.examine_bind fun kernel _ => .examine_bind fun latest _ => ?_)
  exact .of_ensures (.bind (.discard (.compile hs.room fun _ _ _ _ => .of_ok rfl trivial)))

/-- After `CREATE` there is room for what the words made from it compile. -/
theorem create_bind {f : Unit → Effect Unit}
    (hf : ∀ memory t, t.HasRoom (2 ^ 20 + 2) → Ensures memory (f ()) t fun _ _ => True) :
    Careful (create >>= f) s := by
  rw [create, bind_assoc]
  refine .examine_bind fun kernel _ => ?_
  rw [bind_assoc]
  refine .readToken_bind fun name t hreads => .of_ensures ?_
  rw [bind_assoc]
  refine .bind (.nameHere (hreads.isReady hs).room fun u hroom _ => ?_)
  exact .bind (.discard (.compile hroom fun _ v hroom' _ => hf t.memory v hroom'))

theorem careful_create : Careful create s := by
  rw [← bind_pure create]
  exact create_bind hs fun _ _ _ => .of_ok rfl trivial

theorem careful_variableWord : Careful variableWord s :=
  create_bind hs fun _ _ hroom => .discard (.compile hroom fun _ _ _ _ => trivial)

theorem careful_constant : Careful constant s := by
  refine .examine_bind fun kernel _ => .discard_peek_bind ?_
  refine .readToken_bind fun name t hreads => .pop_bind fun v rest _ => ?_
  refine .bind (.nameHere (n := 2 ^ 20 + 3) (hreads.isReady hs).room fun u hroom _ => ?_)
  refine .bind (.discard (.compile hroom fun _ w hroom' _ => ?_))
  exact .discard (.compile hroom' fun _ _ _ _ => trivial)

theorem careful_literal : Careful literal s := by
  obtain ⟨kernel, hkernel⟩ := hs.kernel
  refine .requireCompiling_bind (.pop_bind fun v rest _ => ?_)
  exact .compilePush hkernel hs.room fun _ _ _ => trivial

theorem careful_recurse : Careful recurse s := by
  refine .requireCompiling_bind (.examine_bind fun latest _ => ?_)
  exact .of_ensures (.discard (.compile hs.room fun _ _ _ _ => trivial))

theorem careful_bracketTick : Careful bracketTick s := by
  refine .requireCompiling_bind (.readToken_bind fun name t hreads => ?_)
  refine .addressOf_bind fun address => .of_ensures ?_
  have ht := hreads.isReady hs
  obtain ⟨kernel, hkernel⟩ := ht.kernel
  exact .compilePush hkernel ht.room fun _ _ _ => trivial

theorem careful_bracketChar : Careful bracketChar s := by
  refine .requireCompiling_bind (.initialChar_bind fun c t hreads => .of_ensures ?_)
  have ht := hreads.isReady hs
  obtain ⟨kernel, hkernel⟩ := ht.kernel
  exact .compilePush hkernel ht.room fun _ _ _ => trivial

theorem careful_dotQuote : Careful dotQuote s := by
  refine .quotedText_bind fun text t hreads => .examine_bind fun mode _ => ?_
  have ht := hreads.isReady hs
  cases mode with
  | interpret => exact .of_ensures (.write rfl fun _ => trivial)
  | compile =>
      refine .examine_bind fun kernel hkernel => .of_ensures (.bind ?_)
      obtain ⟨kernel', hkernel'⟩ := ht.kernel
      refine .compilePush hkernel' ht.room fun u hroom _ => ?_
      exact .discard (.compile hroom fun _ _ _ _ => trivial)

theorem careful_stringQuote : Careful stringQuote s := by
  refine .quotedText_bind fun text t hreads => .examine_bind fun mode _ => ?_
  have ht := hreads.isReady hs
  obtain ⟨kernel, hkernel⟩ := ht.kernel
  cases mode with
  | interpret => exact .of_ok rfl
  | compile => exact .of_ensures (.compilePush hkernel ht.room fun _ _ _ => trivial)

theorem careful_act (mode : Mode) (meaning : Meaning) : Careful (act mode meaning) s := by
  cases meaning with
  | word entry =>
      rw [act]
      split
      · exact .of_ok rfl
      · exact .of_ensures (.bind (.discard (.compile hs.room fun _ _ _ _ => .of_ok rfl trivial)))
  | literal v =>
      obtain ⟨kernel, hkernel⟩ := hs.kernel
      cases mode with
      | interpret => exact .of_ok rfl
      | compile =>
          refine .of_ensures (.bind ?_)
          exact .compilePush hkernel hs.room fun _ _ _ => .of_ok rfl trivial

theorem careful_interpret : Careful interpret s := by
  refine .readToken?_bind fun token? t hreads => ?_
  cases token? with
  | none => exact .of_ok rfl
  | some token =>
      refine .examine_bind fun mode _ => .examine_bind fun meaning _ => ?_
      exact careful_act (hreads.isReady hs) mode meaning

end Compiling

/-! ## All words -/

theorem careful_of_mem_libraryWords {word : Primitive} (h : word ∈ libraryWords) (s : State) :
    Careful word.effect s := by
  by_cases hname : word.name = "+!"
  · have heffect : ∀ word ∈ libraryWords, word.name = "+!" → word.effect = plusStore := by
      simp [libraryWords]
    rw [heffect word h hname]
    exact careful_plusStore
  · exact (isLocal_of_mem_libraryWords word h hname).careful s

theorem careful_of_mem_kernelWords (hs : s.IsReady) : ∀ word ∈ kernelWords,
    Careful word.effect s := by
  simp only [kernelWords, List.forall_mem_cons]
  refine ⟨.of_ok rfl, .of_ok rfl, careful_exit, careful_lit, careful_branch, careful_zeroBranch,
    careful_execute, careful_interpret hs, careful_restart, .of_ok rfl, .of_ok rfl, .of_ok rfl,
    .of_ok rfl, .of_ok rfl, careful_fetch, careful_store, careful_comma hs,
    careful_compileComma hs, careful_allot hs, careful_colon hs, careful_semicolon hs, .of_ok rfl,
    .of_ok rfl, careful_immediate, careful_toggleHidden, careful_hide, careful_create hs,
    careful_variableWord hs, careful_constant hs, .of_ok rfl, careful_docon, careful_literal hs,
    careful_recurse hs, careful_tick, careful_bracketTick hs, careful_forget,
    careful_parameterPointer, careful_setParameterPointer, careful_returnPointer,
    careful_setReturnPointer, careful_parameterItem, careful_returnItem, careful_toReturn,
    careful_fromReturn, careful_copyReturn, careful_dropReturn, careful_key, careful_word,
    careful_char, careful_bracketChar hs, careful_emit, careful_type, careful_dotQuote hs,
    careful_stringQuote hs, careful_comment, .of_ok rfl, careful_words, careful_see, ?_⟩
  exact fun _ h => by cases h

end Words

end ThreadedForth
