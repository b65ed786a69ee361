import Mathlib.Data.List.Forall2
import Mathlib.Data.Nat.Digits.Defs
import Mathlib.Tactic.Ring
import ThreadedForth.Numeral
import ThreadedForth.Text.Blank

/-!
# Which tokens are numerals

`Denotes` says what a numeral is and what its value is, over the integers and without a word about
how it is read: an optional sign, an optional mark of the radix, and digits by their places.  The
reader goes from the left in 64-bit integers.  It reads exactly the numerals whose value is a 64-bit
integer, because what is read so far never gets closer to zero again: where one step fails, the
whole value is out of range too (`foldlM_extend?_eq_some_iff`).

What is written of an integer is a numeral of that integer, with no more characters than needed.
-/

namespace ThreadedForth.Numeral

variable {radix base value magnitude : Nat} {negative : Bool} {c : Char} {n : Int64}

/-! ## What a numeral is -/

/-- A letter or a digit of ASCII, and what it counts. -/
inductive IsDigit : Char → Nat → Prop
  | digit {k : Nat} (h : k < 10) : IsDigit (Char.ofNat (48 + k)) k
  | upper {k : Nat} (h : k < 26) : IsDigit (Char.ofNat (65 + k)) (10 + k)
  | lower {k : Nat} (h : k < 26) : IsDigit (Char.ofNat (97 + k)) (10 + k)

/-- What digits count by their places, most significant digit first. -/
def placeValue (radix : Nat) (values : List Nat) : Nat := Nat.ofDigits radix values.reverse

/-- A magnitude with a sign. -/
def signed (negative : Bool) (magnitude : Nat) : Int :=
  if negative then -(magnitude : Int) else magnitude

/-- The signs that a numeral can begin with, and whether they are negative. -/
def signs : List (List Char × Bool) := [([], false), (['+'], false), (['-'], true)]

/-- The marks that can follow the sign, and the radixes that they stand for. -/
def marks (base : Nat) : List (List Char × Nat) :=
  [([], base), (['$'], 16), (['#'], 10), (['%'], 2)]

/-- The token is a numeral in that base, and this is its exact value. -/
inductive Denotes (base : Nat) : List Char → Int → Prop
  | intro {sign mark digits : List Char} {negative : Bool} {radix : Nat} {values : List Nat}
      (hsign : (sign, negative) ∈ signs) (hmark : (mark, radix) ∈ marks base)
      (hradix : IsRadix radix) (hdigits : digits ≠ [])
      (hvalues : List.Forall₂ (fun c value => IsDigit c value ∧ value < radix) digits values) :
      Denotes base (sign ++ mark ++ digits) (signed negative (placeValue radix values))

/-- An optional minus, and digits below the radix, none of them a small letter, and the first of
them not zero unless nothing else is there. -/
def IsCanonical (radix : Nat) (token : List Char) : Prop :=
  ∃ sign ∈ [[], ['-']], ∃ digits, token = sign ++ digits ∧ digits ≠ [] ∧
    (∀ c ∈ digits, c.isLower = false ∧ ∃ value < radix, IsDigit c value) ∧
    (digits.head? = some '0' → token = ['0'])

/-! ## Digits -/

theorem digitValue?_of_isDigit (h : IsDigit c value) : digitValue? c = some value := by
  have hdigit : ∀ k < 10, digitValue? (Char.ofNat (48 + k)) = some k := by decide
  have hupper : ∀ k < 26, digitValue? (Char.ofNat (65 + k)) = some (10 + k) := by decide
  have hlower : ∀ k < 26, digitValue? (Char.ofNat (97 + k)) = some (10 + k) := by decide
  cases h with
  | digit h => exact hdigit _ h
  | upper h => exact hupper _ h
  | lower h => exact hlower _ h

theorem isDigit_of_digitValue? (h : digitValue? c = some value) : IsDigit c value := by
  have hplace : ∀ low : Nat, low ≤ c.toNat → c = Char.ofNat (low + (c.toNat - low)) := by
    intro low hlow
    rw [Nat.add_sub_cancel' hlow, Char.ofNat_toNat]
  have hle : ∀ a b : Char, a ≤ b → a.toNat ≤ b.toNat := fun _ _ h => h
  unfold digitValue? at h
  split at h
  · rename_i hrange
    have hlow : 48 ≤ c.toNat := hle _ _ hrange.1
    have hhigh : c.toNat ≤ 57 := hle _ _ hrange.2
    cases h
    have hdigit := IsDigit.digit (show c.toNat - 48 < 10 by omega)
    rwa [← hplace 48 hlow] at hdigit
  split at h
  · rename_i hrange
    have hlow : 97 ≤ c.toNat := hle _ _ hrange.1
    have hhigh : c.toNat ≤ 122 := hle _ _ hrange.2
    cases h
    have hlower := IsDigit.lower (show c.toNat - 97 < 26 by omega)
    rwa [← hplace 97 hlow, Nat.add_comm] at hlower
  split at h
  · rename_i hrange
    have hlow : 65 ≤ c.toNat := hle _ _ hrange.1
    have hhigh : c.toNat ≤ 90 := hle _ _ hrange.2
    cases h
    have hupper := IsDigit.upper (show c.toNat - 65 < 26 by omega)
    rwa [← hplace 65 hlow, Nat.add_comm] at hupper
  · cases h

theorem digitValue?_eq_some_iff : digitValue? c = some value ↔ IsDigit c value :=
  ⟨isDigit_of_digitValue?, digitValue?_of_isDigit⟩

theorem digit?_eq_some_iff : digit? radix c = some value ↔ IsDigit c value ∧ value < radix := by
  rw [digit?, Option.filter_eq_some_iff, digitValue?_eq_some_iff, decide_eq_true_iff]

/-- A digit is neither a sign nor a mark. -/
theorem IsDigit.not_mark (h : IsDigit c value) : c ∉ ['-', '+', '$', '#', '%'] := by
  have hnone : ∀ mark ∈ ['-', '+', '$', '#', '%'], digitValue? mark = none := by
    intro mark hmark
    simp only [List.mem_cons, List.not_mem_nil, or_false] at hmark
    rcases hmark with rfl | rfl | rfl | rfl | rfl <;> rfl
  intro hmem
  have hvalue := digitValue?_of_isDigit h
  rw [hnone c hmem] at hvalue
  cases hvalue

/-- Every digit that is written is read as its value, is no blank and no small letter. -/
theorem digitChar_cases : ∀ value < 36, digitValue? (digitChar value) = some value ∧
    Text.isBlank (digitChar value) = false ∧ (digitChar value).isLower = false ∧
    (digitChar value = '0' → value = 0) := by
  decide

/-! ## The value of digits -/

@[simp] theorem placeValue_nil : placeValue radix [] = 0 := rfl

theorem placeValue_cons (values : List Nat) :
    placeValue radix (value :: values) =
      value * radix ^ values.length + placeValue radix values := by
  rw [placeValue, List.reverse_cons, Nat.ofDigits_append, Nat.ofDigits_singleton,
    List.length_reverse, Nat.mul_comm, Nat.add_comm, placeValue]

theorem placeValue_append_singleton (values : List Nat) :
    placeValue radix (values ++ [value]) = placeValue radix values * radix + value := by
  rw [placeValue, List.reverse_append, List.reverse_singleton, List.singleton_append,
    Nat.ofDigits_cons, placeValue, Nat.mul_comm, Nat.add_comm]

/-! ## Integers with a value -/

theorem ofInt?_eq_some_iff {exact : Int} : ofInt? exact = some n ↔ n.toInt = exact := by
  have hlow : Int64.minValue.toInt ≤ n.toInt := n.le_toInt
  have hhigh := n.toInt_le
  constructor
  · intro h
    unfold ofInt? at h
    split at h
    · rename_i hrange
      cases h
      exact Int64.toInt_ofInt_of_le hrange.1 (Int.lt_add_one_of_le hrange.2)
    · cases h
  · rintro rfl
    rw [ofInt?, if_pos ⟨hlow, hhigh⟩, Int64.ofInt_toInt]

/-- If a value is a 64-bit integer, then so is every value of the same sign that is closer to
zero. -/
theorem exists_toInt_eq_signed {most : Nat} (hle : magnitude ≤ most)
    (h : n.toInt = signed negative most) : ∃ m : Int64, m.toInt = signed negative magnitude := by
  have hlow : Int64.minValue.toInt ≤ n.toInt := n.le_toInt
  have hhigh := n.toInt_le
  have hmin : Int64.minValue.toInt = -9223372036854775808 := rfl
  have hmax : Int64.maxValue.toInt = 9223372036854775807 := rfl
  refine ⟨Int64.ofInt (signed negative magnitude), Int64.toInt_ofInt_of_le ?_ ?_⟩
  all_goals
    cases negative
    all_goals
      simp only [signed, if_true, Bool.false_eq_true, if_false] at h ⊢
      omega

/-! ## Reading digits -/

/-- A step fails exactly if its exact result is out of range. -/
theorem extend?_eq_some_iff {value next : Int64} {digit : Nat}
    (hvalue : value.toInt = signed negative magnitude) :
    extend? negative radix value digit = some next ↔
      next.toInt = signed negative (magnitude * radix + digit) := by
  have hshifted : value.toInt * radix = signed negative (magnitude * radix) := by
    rw [hvalue]
    cases negative <;> simp [signed]
  have hadded : (if negative then signed negative (magnitude * radix) - digit
      else signed negative (magnitude * radix) + digit) =
        signed negative (magnitude * radix + digit) := by
    cases negative
    · simp [signed]
    · simp only [signed, if_true]
      omega
  rw [extend?, Option.bind_eq_bind, Option.bind_eq_some_iff]
  simp only [ofInt?_eq_some_iff, hshifted]
  constructor
  · rintro ⟨shifted, hshift, hnext⟩
    rw [hnext, hshift, hadded]
  · intro hnext
    obtain ⟨shifted, hshift⟩ := exists_toInt_eq_signed (Nat.le_add_right _ digit) hnext
    exact ⟨shifted, hshift, by rw [hnext, hshift, hadded]⟩

/-- Digits are read behind others exactly if the exact value of all of them is in range: on the way
there the values have only grown. -/
theorem foldlM_extend?_eq_some_iff (hradix : 0 < radix) {value : Int64} {digits : List Char}
    (hvalue : value.toInt = signed negative magnitude) :
    digits.foldlM (fun value c => digit? radix c >>= extend? negative radix value) value = some n ↔
      ∃ values, List.Forall₂ (fun c value => IsDigit c value ∧ value < radix) digits values ∧
        n.toInt =
          signed negative (magnitude * radix ^ digits.length + placeValue radix values) := by
  induction digits generalizing value magnitude with
  | nil =>
      rw [List.foldlM_nil, Option.pure_def, Option.some.injEq]
      simp only [List.forall₂_nil_left_iff, exists_eq_left, List.length_nil, pow_zero, mul_one,
        placeValue_nil, add_zero, ← hvalue, Int64.toInt_inj]
      exact eq_comm
  | cons c digits ih =>
      -- the values after the first digit, and what is left to be read
      have hsplit : ∀ {digit : Nat} {values : List Nat},
          List.Forall₂ (fun c value => IsDigit c value ∧ value < radix) digits values →
          magnitude * radix ^ (c :: digits).length + placeValue radix (digit :: values) =
            (magnitude * radix + digit) * radix ^ digits.length + placeValue radix values := by
        intro digit values hvalues
        rw [placeValue_cons, ← hvalues.length_eq, List.length_cons, pow_succ]
        ring
      rw [List.foldlM_cons, Option.bind_eq_bind, Option.bind_eq_some_iff]
      simp only [Option.bind_eq_bind, Option.bind_eq_some_iff, digit?_eq_some_iff]
      constructor
      · rintro ⟨next, ⟨digit, hdigit, hnext⟩, hrest⟩
        obtain ⟨values, hvalues, hn⟩ :=
          (ih ((extend?_eq_some_iff hvalue).mp hnext)).mp hrest
        exact ⟨digit :: values, .cons hdigit hvalues, by rw [hn, hsplit hvalues]⟩
      · rintro ⟨_, hall, hn⟩
        cases hall with
        | @cons _ digit _ values hdigit hvalues =>
            rw [hsplit hvalues] at hn
            have hle : magnitude * radix + digit ≤
                (magnitude * radix + digit) * radix ^ digits.length + placeValue radix values :=
              Nat.le_add_right_of_le (Nat.le_mul_of_pos_right _ (Nat.pow_pos hradix))
            obtain ⟨next, hnext⟩ := exists_toInt_eq_signed hle hn
            exact ⟨next, ⟨digit, hdigit, (extend?_eq_some_iff hvalue).mpr hnext⟩,
              (ih hnext).mpr ⟨values, hvalues, hn⟩⟩

theorem readDigits?_eq_some_iff (hradix : 0 < radix) {digits : List Char} :
    readDigits? negative radix digits = some n ↔
      ∃ values, List.Forall₂ (fun c value => IsDigit c value ∧ value < radix) digits values ∧
        n.toInt = signed negative (placeValue radix values) := by
  have hzero : (0 : Int64).toInt = signed negative 0 := by cases negative <;> rfl
  rw [readDigits?, foldlM_extend?_eq_some_iff hradix hzero]
  simp

/-! ## Reading tokens -/

theorem exists_sign (token : List Char) :
    ∃ sign, (sign, (splitSign token).1) ∈ signs ∧ token = sign ++ (splitSign token).2 := by
  unfold splitSign
  split
  · exact ⟨['-'], by simp [signs], rfl⟩
  · exact ⟨['+'], by simp [signs], rfl⟩
  · exact ⟨[], by simp [signs], rfl⟩

theorem exists_mark (base : Nat) (unsigned : List Char) :
    ∃ mark, (mark, (splitRadix base unsigned).1) ∈ marks base ∧
      unsigned = mark ++ (splitRadix base unsigned).2 := by
  unfold splitRadix
  split
  · exact ⟨['$'], by simp [marks], rfl⟩
  · exact ⟨['#'], by simp [marks], rfl⟩
  · exact ⟨['%'], by simp [marks], rfl⟩
  · exact ⟨[], by simp [marks], rfl⟩

/-- A sign is taken off if none follows. -/
theorem splitSign_append {sign rest : List Char} (hsign : (sign, negative) ∈ signs)
    (hrest : ∀ c ∈ rest.head?, c ≠ '-' ∧ c ≠ '+') :
    splitSign (sign ++ rest) = (negative, rest) := by
  simp only [signs, List.mem_cons, Prod.mk.injEq, List.not_mem_nil, or_false] at hsign
  obtain ⟨rfl, rfl⟩ | ⟨rfl, rfl⟩ | ⟨rfl, rfl⟩ := hsign
  · rcases rest with _ | ⟨c, rest⟩
    · rfl
    · obtain ⟨hminus, hplus⟩ := hrest c rfl
      rw [List.nil_append, splitSign]
      · exact fun _ h => hminus (List.cons.inj h).1
      · exact fun _ h => hplus (List.cons.inj h).1
  · rfl
  · rfl

/-- A mark is taken off if none follows. -/
theorem splitRadix_append {mark rest : List Char} (hmark : (mark, radix) ∈ marks base)
    (hrest : ∀ c ∈ rest.head?, c ≠ '$' ∧ c ≠ '#' ∧ c ≠ '%') :
    splitRadix base (mark ++ rest) = (radix, rest) := by
  simp only [marks, List.mem_cons, Prod.mk.injEq, List.not_mem_nil, or_false] at hmark
  obtain ⟨rfl, rfl⟩ | ⟨rfl, rfl⟩ | ⟨rfl, rfl⟩ | ⟨rfl, rfl⟩ := hmark
  · rcases rest with _ | ⟨c, rest⟩
    · rfl
    · obtain ⟨hdollar, hhash, hpercent⟩ := hrest c rfl
      rw [List.nil_append, splitRadix]
      · exact fun _ h => hdollar (List.cons.inj h).1
      · exact fun _ h => hhash (List.cons.inj h).1
      · exact fun _ h => hpercent (List.cons.inj h).1
  · rfl
  · rfl
  · rfl

/-- Behind a mark, and before digits, there is no sign. -/
theorem head_mark {mark rest : List Char} (hmark : (mark, radix) ∈ marks base)
    (hc : c ≠ '-' ∧ c ≠ '+') : ∀ first ∈ (mark ++ c :: rest).head?, first ≠ '-' ∧ first ≠ '+' := by
  simp only [marks, List.mem_cons, Prod.mk.injEq, List.not_mem_nil, or_false] at hmark
  obtain ⟨rfl, rfl⟩ | ⟨rfl, rfl⟩ | ⟨rfl, rfl⟩ | ⟨rfl, rfl⟩ := hmark
  all_goals rintro _ ⟨⟩
  · exact hc
  all_goals decide

theorem read?_eq (base : Nat) (token : String) :
    read? base token =
      if IsRadix (splitRadix base (splitSign token.toList).2).1 ∧
          (splitRadix base (splitSign token.toList).2).2 ≠ [] then
        readDigits? (splitSign token.toList).1 (splitRadix base (splitSign token.toList).2).1
          (splitRadix base (splitSign token.toList).2).2
      else none := by
  have hguard : ∀ (p : Prop) [Decidable p] (x : Option Int64),
      (guard p >>= fun _ => x) = if p then x else none := by
    intro p _ x
    unfold guard
    split <;> rfl
  exact hguard _ _

/-- **A token is read as an integer exactly if it is a numeral of that integer.** -/
theorem read?_eq_some_iff {token : String} :
    read? base token = some n ↔ Denotes base token.toList n.toInt := by
  rw [read?_eq]
  constructor
  · intro h
    obtain ⟨sign, hsign, htoken⟩ := exists_sign token.toList
    obtain ⟨mark, hmark, hunsigned⟩ := exists_mark base (splitSign token.toList).2
    generalize splitSign token.toList = signed at h hsign htoken hmark hunsigned
    generalize splitRadix base signed.2 = marked at h hmark hunsigned
    split at h
    · rename_i hguard
      obtain ⟨hradix, hdigits⟩ := hguard
      obtain ⟨values, hvalues, hn⟩ :=
        (readDigits?_eq_some_iff (Nat.zero_lt_of_lt hradix.1)).mp h
      rw [hn, htoken, hunsigned, ← List.append_assoc]
      exact .intro hsign hmark hradix hdigits hvalues
    · cases h
  · intro h
    generalize htoken : token.toList = text at h ⊢
    generalize hexact : n.toInt = exact at h
    cases h with
    | @intro sign mark digits negative radix values hsign hmark hradix hdigits hvalues =>
        obtain _ | ⟨c, rest⟩ := digits
        · exact absurd rfl hdigits
        cases hvalues with
        | cons hfirst hrest =>
            -- the first digit is not taken for a sign or for a mark
            have hc := hfirst.1.not_mark
            simp only [List.mem_cons, List.not_mem_nil, or_false, not_or] at hc
            obtain ⟨hminus, hplus, hdollar, hhash, hpercent⟩ := hc
            have hmarked : splitRadix base (mark ++ c :: rest) = (radix, c :: rest) := by
              apply splitRadix_append hmark
              rintro _ ⟨⟩
              exact ⟨hdollar, hhash, hpercent⟩
            have hsigned :
                splitSign (sign ++ (mark ++ c :: rest)) = (negative, mark ++ c :: rest) :=
              splitSign_append hsign (head_mark hmark ⟨hminus, hplus⟩)
            rw [List.append_assoc, hsigned]
            dsimp only
            rw [hmarked]
            dsimp only
            rw [if_pos ⟨hradix, hdigits⟩, readDigits?_eq_some_iff (Nat.zero_lt_of_lt hradix.1)]
            exact ⟨_, .cons hfirst hrest, hexact⟩

/-- **Numerals in the range are read, and nothing else is.**  No step of the reading is out of range
if the value is not, and no value that is out of range comes out as another one. -/
theorem numerals_are_read_exactly (base : Nat) (token : String) :
    (∀ n, read? base token = some n ↔ Denotes base token.toList n.toInt) ∧
      (read? base token = none ↔ ∀ exact, Denotes base token.toList exact →
        exact < Int64.minValue.toInt ∨ Int64.maxValue.toInt < exact) := by
  refine ⟨fun n => read?_eq_some_iff, ?_⟩
  rw [Option.eq_none_iff_forall_ne_some]
  constructor
  · intro hnone exact hdenotes
    by_contra hrange
    rw [not_or, Int.not_lt, Int.not_lt] at hrange
    have hexact : (Int64.ofInt exact).toInt = exact :=
      Int64.toInt_ofInt_of_le hrange.1 (Int.lt_add_one_of_le hrange.2)
    rw [← hexact] at hdenotes
    exact hnone _ (read?_eq_some_iff.mpr hdenotes)
  · intro hrange n hread
    have hlow : Int64.minValue.toInt ≤ n.toInt := n.le_toInt
    have hhigh := n.toInt_le
    have hout := hrange n.toInt (read?_eq_some_iff.mp hread)
    omega

example : read? 10 "-$8000000000000000" = some Int64.minValue := by decide +kernel

example : read? 36 "$-1" = none := by decide +kernel

/-! ## Writing -/

theorem isDigit_digitChar (hradix : radix ≤ 36) (h : value < radix) :
    IsDigit (digitChar value) value :=
  isDigit_of_digitValue? (digitChar_cases value (Nat.lt_of_lt_of_le h hradix)).1

/-- Every character that is written of a number is a digit in the radix. -/
theorem mem_digits (hradix : 2 ≤ radix) {m : Nat} (h : c ∈ digits radix m) :
    ∃ value < radix, c = digitChar value := by
  fun_induction digits radix m with
  | case1 m hlast =>
      rw [List.mem_singleton] at h
      exact ⟨m, by omega, h⟩
  | case2 m _ ih =>
      rcases List.mem_append.mp h with h | h
      · exact ih h
      · rw [List.mem_singleton] at h
        exact ⟨m % radix, Nat.mod_lt _ (by omega), h⟩

theorem digits_ne_nil (radix m : Nat) : digits radix m ≠ [] := by
  rw [digits]
  split <;> simp

/-- The digits of a number have its value. -/
theorem exists_values_digits (hradix : IsRadix radix) (m : Nat) :
    ∃ values,
      List.Forall₂ (fun c value => IsDigit c value ∧ value < radix) (digits radix m) values ∧
      placeValue radix values = m := by
  obtain ⟨htwo, hmost⟩ := hradix
  fun_induction digits radix m with
  | case1 m hlast =>
      have hm : m < radix := by omega
      refine ⟨[m], .cons ⟨isDigit_digitChar hmost hm, hm⟩ .nil, ?_⟩
      simp [placeValue_cons]
  | case2 m _ ih =>
      have hm : m % radix < radix := Nat.mod_lt _ (by omega)
      obtain ⟨values, hvalues, hvalue⟩ := ih
      refine ⟨values ++ [m % radix],
        List.rel_append hvalues (.cons ⟨isDigit_digitChar hmost hm, hm⟩ .nil), ?_⟩
      rw [placeValue_append_singleton, hvalue, Nat.div_add_mod']

/-- Only zero begins with a zero. -/
theorem eq_zero_of_head_digits (hradix : IsRadix radix) {m : Nat}
    (h : (digits radix m).head? = some '0') : m = 0 := by
  obtain ⟨htwo, hmost⟩ := hradix
  fun_induction digits radix m with
  | case1 m hlast =>
      exact (digitChar_cases m (by omega)).2.2.2 (Option.some.inj h)
  | case2 m hmore ih =>
      rw [List.head?_append_of_ne_nil _ (digits_ne_nil _ _)] at h
      have hzero := ih h
      rw [Nat.div_eq_zero_iff] at hzero
      omega

/-- What is written is a numeral of what it was written of. -/
theorem denotes_write (hradix : IsRadix radix) (n : Int64) :
    Denotes radix (write radix n).toList n.toInt := by
  obtain ⟨values, hvalues, hvalue⟩ := exists_values_digits hradix n.toInt.natAbs
  have hmark : ([], radix) ∈ marks radix := by simp [marks]
  have hnumeral : ∀ {sign : List Char} {negative : Bool}, (sign, negative) ∈ signs →
      Denotes radix (sign ++ [] ++ digits radix n.toInt.natAbs)
        (signed negative (placeValue radix values)) :=
    fun hsign => .intro hsign hmark hradix (digits_ne_nil _ _) hvalues
  rw [write, if_pos hradix, String.toList_ofList]
  by_cases hnegative : n < 0
  · have hminus := hnumeral (show (['-'], true) ∈ signs by decide)
    rw [Int64.lt_iff_toInt_lt, Int64.toInt_zero] at hnegative
    have hn : signed true (placeValue radix values) = n.toInt := by
      rw [hvalue, signed, if_pos rfl]
      omega
    rw [if_pos (by rwa [Int64.lt_iff_toInt_lt, Int64.toInt_zero])]
    rw [hn] at hminus
    exact hminus
  · have hplain := hnumeral (show ([], false) ∈ signs by decide)
    rw [Int64.lt_iff_toInt_lt, Int64.toInt_zero] at hnegative
    have hn : signed false (placeValue radix values) = n.toInt := by
      rw [hvalue, signed, if_neg Bool.false_ne_true]
      omega
    rw [if_neg (by rwa [Int64.lt_iff_toInt_lt, Int64.toInt_zero])]
    rw [hn] at hplain
    exact hplain

/-- What is written is read back. -/
theorem read?_write (hradix : IsRadix radix) (n : Int64) :
    read? radix (write radix n) = some n :=
  read?_eq_some_iff.mpr (denotes_write hradix n)

/-- No character is written that is not needed. -/
theorem isCanonical_write (hradix : IsRadix radix) (n : Int64) :
    IsCanonical radix (write radix n).toList := by
  have hdigits : ∀ c ∈ digits radix n.toInt.natAbs,
      c.isLower = false ∧ ∃ value < radix, IsDigit c value := by
    intro c hc
    obtain ⟨value, hvalue, rfl⟩ := mem_digits hradix.1 hc
    exact ⟨(digitChar_cases value (Nat.lt_of_lt_of_le hvalue hradix.2)).2.2.1, value, hvalue,
      isDigit_digitChar hradix.2 hvalue⟩
  rw [write, if_pos hradix, String.toList_ofList]
  by_cases hnegative : n < 0
  · rw [if_pos hnegative]
    refine ⟨['-'], by simp, digits radix n.toInt.natAbs, rfl, digits_ne_nil _ _, hdigits, ?_⟩
    intro hhead
    have hzero := eq_zero_of_head_digits hradix hhead
    rw [Int64.lt_iff_toInt_lt, Int64.toInt_zero] at hnegative
    omega
  · rw [if_neg hnegative]
    refine ⟨[], by simp, digits radix n.toInt.natAbs, rfl, digits_ne_nil _ _, hdigits, ?_⟩
    intro hhead
    rw [eq_zero_of_head_digits hradix hhead, digits, dif_pos (.inr (by have := hradix.1; omega))]
    rfl

/-- **What is written is read back, and it is written without anything needless.**  A base that is
no radix stands for ten. -/
theorem written_canonically_and_read_back (base : Nat) (n : Int64) :
    read? (if IsRadix base then base else 10) (write base n) = some n ∧
      IsCanonical (if IsRadix base then base else 10) (write base n).toList := by
  by_cases hradix : IsRadix base
  · rw [if_pos hradix]
    exact ⟨read?_write hradix n, isCanonical_write hradix n⟩
  · have hten : IsRadix 10 := by decide
    have hwrite : write base n = write 10 n := by rw [write, if_neg hradix, write, if_pos hten]
    rw [if_neg hradix, hwrite]
    exact ⟨read?_write hten n, isCanonical_write hten n⟩

end ThreadedForth.Numeral
