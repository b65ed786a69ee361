import ThreadedForth.Input

/-!
# Reading on

Everything that reads source reads it character by character, so all it can do to an input is to
move on in it.
-/

namespace ThreadedForth

/-! ## Dropping a line of a text -/

namespace TextInput

variable {rest after : List Char} {newline : Char}

theorem dropLine_of_nil (h : rest.dropWhile (· != '\n') = []) :
    dropLine ⟨rest, false⟩ = ⟨[], false⟩ := by
  cases rest with
  | nil => rfl
  | cons c rest =>
      rw [dropLine, if_neg (by simp)]
      simp only [h]

theorem dropLine_of_cons (h : rest.dropWhile (· != '\n') = newline :: after) :
    dropLine ⟨rest, false⟩ = ⟨after, true⟩ := by
  cases rest with
  | nil => cases h
  | cons c rest =>
      rw [dropLine, if_neg (by simp)]
      simp only [h]

end TextInput

namespace Input

/-! ## Moving on -/

/-- The other input is what is left of this one after reading some characters. -/
inductive Advances : Input → Input → Prop
  | refl (input : Input) : Advances input input
  | next {input rest : Input} (h : Advances input.next.2 rest) : Advances input rest

theorem Advances.trans {first second third : Input} (h : first.Advances second)
    (h' : second.Advances third) : first.Advances third := by
  induction h with
  | refl => exact h'
  | next _ ih => exact .next (ih h')

theorem advances_skipBlanks (input : Input) : input.Advances input.skipBlanks.2 := by
  fun_induction skipBlanks input with
  | case1 input rest h => exact .next (by rw [h]; exact .refl _)
  | case2 input c rest h hblank ih => exact .next (by rw [h]; exact ih)
  | case3 input c rest h hink => exact .next (by rw [h]; exact .refl _)

theorem advances_readInk (token : List Char) (input : Input) :
    input.Advances (input.readInk token).2 := by
  fun_induction readInk token input with
  | case1 token input rest h => exact .next (by rw [h]; exact .refl _)
  | case2 token input c rest h hblank => exact .next (by rw [h]; exact .refl _)
  | case3 token input c rest h hink ih => exact .next (by rw [h]; exact ih)

theorem advances_readToken (input : Input) : input.Advances input.readToken.2 := by
  have hskip := input.advances_skipBlanks
  unfold readToken
  split
  · rename_i rest h
    rwa [h] at hskip
  · rename_i c rest h
    rw [h] at hskip
    exact hskip.trans (advances_readInk [c] rest)

theorem advances_collectBefore (delimiter : Char) (before : List Char) (input : Input) :
    input.Advances (input.collectBefore delimiter before).2 := by
  fun_induction collectBefore delimiter before input with
  | case1 before input rest h => exact .next (by rw [h]; exact .refl _)
  | case2 before input rest h => exact .next (by rw [h]; exact .refl _)
  | case3 before input c rest h hne ih => exact .next (by rw [h]; exact ih)

theorem advances_readText (delimiter : Char) (input : Input) :
    input.Advances (input.readText delimiter).2 := advances_collectBefore delimiter [] input

/-! ## One character at a time -/

theorem skipBlanks_eq (input : Input) : input.skipBlanks =
    match input.next with
    | (none, rest) => (none, rest)
    | (some c, rest) => if Text.isBlank c then rest.skipBlanks else (some c, rest) := by
  rw [skipBlanks]
  split <;> simp only [*]

theorem readInk_eq (token : List Char) (input : Input) : input.readInk token =
    match input.next with
    | (none, rest) => (token, rest)
    | (some c, rest) =>
      if Text.isBlank c then (token, rest) else rest.readInk (c :: token) := by
  rw [readInk]
  split <;> simp only [*]

theorem collectBefore_eq (delimiter : Char) (before : List Char) (input : Input) :
    input.collectBefore delimiter before =
      match input.next with
      | (none, rest) => (none, rest)
      | (some c, rest) =>
        if c = delimiter then (some before, rest)
        else rest.collectBefore delimiter (c :: before) := by
  rw [collectBefore]
  split <;> simp only [*]

/-! ## Inputs that deliver the same characters

Whatever is read is read character by character.  So two inputs that agree on the next character,
and on what they leave behind it, agree on all that is read. -/

/-- Two readings found the same, and what they leave is related. -/
inductive Alike {α : Type} (after : Input → Input → Prop) : α × Input → α × Input → Prop
  | intro (found : α) {rest rest' : Input} (h : after rest rest') :
      Alike after (found, rest) (found, rest')

theorem Alike.exists_rest {α : Type} {after : Input → Input → Prop} {first second : α × Input}
    {found : α} {rest : Input} (h : Alike after first second) (hfirst : first = (found, rest)) :
    ∃ rest', second = (found, rest') ∧ after rest rest' := by
  cases h with
  | intro _ hrest =>
      cases hfirst
      exact ⟨_, rfl, hrest⟩

/-- Related inputs agree on the next character. -/
def Agree (start after : Input → Input → Prop) : Prop :=
  ∀ ⦃first second⦄, start first second → Alike after first.next second.next

section Agreeing

variable {start after : Input → Input → Prop} {first second : Input}
variable (hagree : Agree start after)
variable (hafter : ∀ ⦃first second⦄, after first second → start first second)
include hagree hafter

theorem Agree.skipBlanks (h : start first second) :
    Alike after first.skipBlanks second.skipBlanks := by
  fun_induction Input.skipBlanks first generalizing second with
  | case1 first rest hread =>
      obtain ⟨rest', hread', hrest⟩ := (hagree h).exists_rest hread
      rw [skipBlanks_eq second, hread']
      exact .intro none hrest
  | case2 first c rest hread hblank ih =>
      obtain ⟨rest', hread', hrest⟩ := (hagree h).exists_rest hread
      rw [skipBlanks_eq second, hread']
      simp only [if_pos hblank]
      exact ih (hafter hrest)
  | case3 first c rest hread hink =>
      obtain ⟨rest', hread', hrest⟩ := (hagree h).exists_rest hread
      rw [skipBlanks_eq second, hread']
      simp only [if_neg hink]
      exact .intro (some c) hrest

theorem Agree.readInk (token : List Char) (h : start first second) :
    Alike after (first.readInk token) (second.readInk token) := by
  fun_induction Input.readInk token first generalizing second with
  | case1 token first rest hread =>
      obtain ⟨rest', hread', hrest⟩ := (hagree h).exists_rest hread
      rw [readInk_eq token second, hread']
      exact .intro token hrest
  | case2 token first c rest hread hblank =>
      obtain ⟨rest', hread', hrest⟩ := (hagree h).exists_rest hread
      rw [readInk_eq token second, hread']
      simp only [if_pos hblank]
      exact .intro token hrest
  | case3 token first c rest hread hink ih =>
      obtain ⟨rest', hread', hrest⟩ := (hagree h).exists_rest hread
      rw [readInk_eq token second, hread']
      simp only [if_neg hink]
      exact ih (hafter hrest)

theorem Agree.collectBefore (delimiter : Char) (before : List Char) (h : start first second) :
    Alike after (first.collectBefore delimiter before)
      (second.collectBefore delimiter before) := by
  fun_induction Input.collectBefore delimiter before first generalizing second with
  | case1 before first rest hread =>
      obtain ⟨rest', hread', hrest⟩ := (hagree h).exists_rest hread
      rw [collectBefore_eq delimiter before second, hread']
      exact .intro none hrest
  | case2 before first rest hread =>
      obtain ⟨rest', hread', hrest⟩ := (hagree h).exists_rest hread
      rw [collectBefore_eq delimiter before second, hread']
      simp only [if_true]
      exact .intro (some before) hrest
  | case3 before first c rest hread hne ih =>
      obtain ⟨rest', hread', hrest⟩ := (hagree h).exists_rest hread
      rw [collectBefore_eq delimiter before second, hread']
      simp only [if_neg hne]
      exact ih (hafter hrest)

theorem Agree.readToken (h : start first second) :
    Alike after first.readToken second.readToken := by
  have hskip := Agree.skipBlanks hagree hafter h
  rcases hfirst : first.skipBlanks with ⟨_ | c, rest⟩
  · obtain ⟨rest', hsecond, hrest⟩ := hskip.exists_rest hfirst
    rw [Input.readToken, hfirst, Input.readToken, hsecond]
    exact .intro none hrest
  · obtain ⟨rest', hsecond, hrest⟩ := hskip.exists_rest hfirst
    rw [Input.readToken, hfirst, Input.readToken, hsecond]
    rcases hink : rest.readInk [c] with ⟨token, rest₁⟩
    obtain ⟨rest₂, hink', hrest'⟩ :=
      (Agree.readInk hagree hafter [c] (hafter hrest)).exists_rest hink
    simp only [hink, hink']
    exact .intro _ hrest'

theorem Agree.readText (delimiter : Char) (h : start first second) :
    Alike after (first.readText delimiter) (second.readText delimiter) := by
  have hcollect := Agree.collectBefore hagree hafter delimiter [] h
  rcases hfirst : first.collectBefore delimiter [] with ⟨before?, rest⟩
  obtain ⟨rest', hsecond, hrest⟩ := hcollect.exists_rest hfirst
  rw [Input.readText, hfirst, Input.readText, hsecond]
  exact .intro _ hrest

end Agreeing

end Input

end ThreadedForth
