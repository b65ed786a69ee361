import ThreadedForth.Proofs.Machine.Standard
import ThreadedForth.Proofs.Words.Library

/-!
# Division of integers

Three words divide: `/` gives the quotient, `MOD` what is left over, and `/MOD` both.  For integers
the quotient is cut off towards zero, so what is left over has the sign of the dividend.  One
quotient is out of range, that of the least integer by -1, and there the law of division holds
modulo `2 ^ 64` only: the quotient wraps to the dividend, and nothing is left over.

The proof has two halves that know nothing of each other.  `isDivision` is about integers and no
machine; the lemmas on words say which of the two results each word leaves, and where.
-/

namespace ThreadedForth

/-! ## Quotient and remainder -/

/-- Dividing `a` by `b` gives the quotient `q` and leaves `r`. -/
structure IsDivision (a b q r : Int64) : Prop where
  /-- The law of division holds for integers that wrap. -/
  wrapped : a = q * b + r
  /-- It holds without wrapping too, but for the one quotient that is out of range. -/
  exact_iff : a.toInt = q.toInt * b.toInt + r.toInt ↔ ¬ (a = Int64.minValue ∧ b = -1)
  /-- Less is left over than could be divided once more. -/
  small : r.toInt.natAbs < b.toInt.natAbs
  /-- What is left over has the sign of the dividend. -/
  sign : r = 0 ∨ r.toInt.sign = a.toInt.sign

/-- Only the least integer divided by -1 has a quotient out of range. -/
theorem toInt_div {a b : Int64} (h : ¬ (a = Int64.minValue ∧ b = -1)) :
    (a / b).toInt = a.toInt.tdiv b.toInt := by
  by_cases ha : a = Int64.minValue
  · exact Int64.toInt_div_of_ne_right a b fun hb => h ⟨ha, hb⟩
  · exact Int64.toInt_div_of_ne_left a b ha

/-- Division by anything but zero is division. -/
theorem isDivision (a : Int64) {b : Int64} (hb : b ≠ 0) : IsDivision a b (a / b) (a % b) where
  wrapped := by
    rw [← Int64.toInt_inj]
    calc a.toInt
        = (a.toInt.tdiv b.toInt * b.toInt + a.toInt.tmod b.toInt).bmod Int64.size := by
          rw [Int.tdiv_mul_add_tmod, Int64.toInt_bmod_size]
      _ = ((a.toInt.tdiv b.toInt).bmod Int64.size * b.toInt + a.toInt.tmod b.toInt).bmod
            Int64.size := (Int.add_bmod_eq_add_bmod_right _ (Int.bmod_mul_bmod ..)).symm
      _ = (a / b * b + a % b).toInt := by
          rw [Int64.toInt_add, Int64.toInt_mul, Int64.toInt_div, Int64.toInt_mod,
            Int.bmod_add_bmod]
  exact_iff := by
    constructor
    · rintro hexact ⟨rfl, rfl⟩
      exact absurd hexact (by decide)
    · intro h
      rw [toInt_div h, Int64.toInt_mod, Int.tdiv_mul_add_tmod]
  small := by
    have hpos : 0 < b.toInt.natAbs := Int.natAbs_pos.mpr fun hzero => hb (Int64.toInt_inj.mp hzero)
    rw [Int64.toInt_mod, Int.natAbs_tmod]
    exact Nat.mod_lt _ hpos
  sign := by
    rw [← Int64.toInt_inj, Int64.toInt_mod, Int64.toInt_zero]
    by_cases hdvd : b.toInt ∣ a.toInt
    · exact .inl (Int.tmod_eq_zero_of_dvd hdvd)
    · exact .inr (by rw [Int.sign_tmod, if_neg hdvd])

namespace Number

theorem divide?_int (a b : Int64) : divide? (.int a) (.int b) =
    if b = 0 then .error .divisionByZero else .ok (.int (a / b)) := by
  simp only [divide?, isZero, beq_iff_eq]
  rfl

theorem remainder?_int (a b : Int64) : remainder? (.int a) (.int b) =
    if b = 0 then .error .divisionByZero else .ok (.int (a % b)) := by
  simp only [remainder?, isZero, beq_iff_eq]
  rfl

end Number

/-! ## The words -/

namespace Words

open Effect

variable {s : State} {stack : Stack .parameter} {a b : Int64}

/-- A word that looks at two numbers goes on with the two integers on top of the stack. -/
theorem twoNumbers_bind {g : Number → Number → Effect Unit}
    (hs : s.parameters = (stack.push (.int a)).push (.int b)) :
    (do g (← (← pick 1).toNumber) (← (← pick 0).toNumber)) s = g (.int a) (.int b) s := by
  have hsecond : pick 1 s = .ok (.int a) s := examine_ok (by rw [hs]; rfl)
  have htop : pick 0 s = .ok (.int b) s := examine_ok (by rw [hs]; rfl)
  have hnumber : ∀ n, (Value.int n).toNumber = .ok (.int n) := fun _ => rfl
  rw [bind_ok hsecond, bind_ok (lift_ok (hnumber a)), bind_ok htop, bind_ok (lift_ok (hnumber b))]

/-- Two values on top of the stack are replaced. -/
theorem replaceTwo_push {v w : Value} (hs : s.parameters = (stack.push v).push w)
    (results : List Value) :
    replaceTwo results s =
      .ok () { s with parameters := ⟨results.reverse ++ stack.items⟩ } := by
  have hsecond : s.parameters.pick 1 = .ok v := by rw [hs]; rfl
  rw [replaceTwo_ok hsecond, hs]
  rfl

/-- A word of division puts its result in the place of its operands, and fails if it has none. -/
theorem division_apply {f : Number → Number → Except Cause Number} {n : Int64}
    (hs : s.parameters = (stack.push (.int a)).push (.int b))
    (hf : f (.int a) (.int b) = if b = 0 then .error .divisionByZero else .ok (.int n)) :
    division f s =
      if b = 0 then .error { cause := .divisionByZero } s
      else .ok () { s with parameters := stack.push (.int n) } := by
  rw [division, onNumbers, twoNumbers_bind hs, hf]
  split
  · rfl
  · exact replaceTwo_push hs _

theorem divMod_apply (hs : s.parameters = (stack.push (.int a)).push (.int b)) :
    divMod s =
      if b = 0 then .error { cause := .divisionByZero } s
      else .ok () { s with parameters := (stack.push (.int (a % b))).push (.int (a / b)) } := by
  rw [divMod, twoNumbers_bind hs, Number.divide?_int, Number.remainder?_int]
  split
  · rfl
  · exact replaceTwo_push hs _

end Words

open Words

/-- **The words of division agree.**  Let two integers `a` and `b` be on top of the parameter
stack.  If `b` is zero, then `/`, `MOD` and `/MOD` fail and change nothing.  Otherwise there is a
division of `a` by `b` of which `/` leaves the quotient, `MOD` what is left over, and `/MOD` both of
them, the quotient on top. -/
theorem division_words_agree (s : State) (stack : Stack .parameter) (a b : Int64) :
    let operands : State := { s with parameters := (stack.push (.int a)).push (.int b) }
    if b = 0 then
      ∀ name ∈ ["/", "MOD", "/MOD"],
        effectNamed name operands = .error { cause := .divisionByZero } operands
    else
      ∃ q r, IsDivision a b q r ∧
        effectNamed "/" operands = .ok () { s with parameters := stack.push (.int q) } ∧
        effectNamed "MOD" operands = .ok () { s with parameters := stack.push (.int r) } ∧
        effectNamed "/MOD" operands =
          .ok () { s with parameters := (stack.push (.int r)).push (.int q) } := by
  intro operands
  have hquotient : effectNamed "/" = division Number.divide? := rfl
  have hremainder : effectNamed "MOD" = division Number.remainder? := rfl
  have hboth : effectNamed "/MOD" = divMod := rfl
  have hs : operands.parameters = (stack.push (.int a)).push (.int b) := rfl
  have hdivide := division_apply hs (Number.divide?_int a b)
  have hremain := division_apply hs (Number.remainder?_int a b)
  have hdivMod := divMod_apply hs
  rw [← hquotient] at hdivide
  rw [← hremainder] at hremain
  rw [← hboth] at hdivMod
  by_cases hb : b = 0
  · rw [if_pos hb] at hdivide hremain hdivMod ⊢
    intro name hname
    simp only [List.mem_cons, List.not_mem_nil, or_false] at hname
    rcases hname with rfl | rfl | rfl
    · exact hdivide
    · exact hremain
    · exact hdivMod
  · rw [if_neg hb] at hdivide hremain hdivMod ⊢
    exact ⟨a / b, a % b, isDivision a hb, hdivide, hremain, hdivMod⟩

end ThreadedForth
