import ThreadedForth.Proofs.Machine.Surroundings
import ThreadedForth.Proofs.Input.Lines

/-!
# The seam between two texts

A text may be read alone or with a newline and more text behind it.  Until the end of the first text
is noticed, both readers find the same.  A token at the very end is the same too, but the second
reader has then read the newline as well, and so has one that drops the last line.  `Seam` says how
far the two readers may be apart, and every reading keeps it, or else the first reader misses what
the second one may find.
-/

namespace ThreadedForth

namespace Input

/-- The second input goes on behind the first one, with a newline and more text. -/
inductive Seam (more : List Char) : Input → Input → Prop
  /-- The end of the first text was not noticed yet. -/
  | before (rest : List Char) (ended : Bool) :
      Seam more (.text ⟨rest, ended⟩) (.text ⟨rest ++ '\n' :: more, ended⟩)
  /-- The first text is used up, and behind it the newline was read. -/
  | past (ended : Bool) : Seam more (.text ⟨[], ended⟩) (.text ⟨more, true⟩)

variable {more : List Char} {input other : Input}

/-! ## What every reading keeps -/

theorem Seam.next (h : Seam more input other) :
    input.next.1 = none ∨
      other.next.1 = input.next.1 ∧ Seam more input.next.2 other.next.2 := by
  cases h with
  | before rest ended =>
      cases rest with
      | nil => exact .inl rfl
      | cons c rest => exact .inr ⟨rfl, .before rest (decide (c = '\n'))⟩
  | past => exact .inl rfl

theorem Seam.readToken (h : Seam more input other) :
    input.readToken.1 = none ∨
      other.readToken.1 = input.readToken.1 ∧
        Seam more input.readToken.2 other.readToken.2 := by
  cases h with
  | past ended =>
      obtain ⟨ended', hskip⟩ := @skipBlanks_text_end ended [] fun c hc => by cases hc
      exact .inl (by rw [Input.readToken, hskip])
  | before rest ended =>
      rcases Text.blank_or_ink rest with hblank | ⟨blanks, ink, rest, rfl, hblanks, hne, hink, hgap⟩
      · obtain ⟨ended', hskip⟩ := skipBlanks_text_end ended hblank
        exact .inl (by rw [Input.readToken, hskip])
      · obtain ⟨first, hfirst, hread⟩ := readToken_text ended hblanks hne hink hgap
        have hgap' : ∀ d ∈ (rest ++ '\n' :: more).head?, Text.isBlank d = true := by
          cases rest with
          | nil => exact fun d hd => by cases hd; decide
          | cons c rest => exact hgap
        obtain ⟨second, hsecond, hread'⟩ := readToken_text ended hblanks hne hink hgap'
        rw [← List.append_assoc ink, ← List.append_assoc blanks] at hread'
        rw [hread, hread']
        refine .inr ⟨rfl, ?_⟩
        cases rest with
        | nil =>
            rw [hsecond '\n' rfl]
            exact .past first
        | cons c rest =>
            rw [hsecond c rfl, hfirst c rfl]
            exact .before rest _

theorem Seam.readText (h : Seam more input other) (delimiter : Char) :
    (input.readText delimiter).1 = none ∨
      (other.readText delimiter).1 = (input.readText delimiter).1 ∧
        Seam more (input.readText delimiter).2 (other.readText delimiter).2 := by
  cases h with
  | past ended => exact .inl (readText_text_end ended fun h => by cases h)
  | before rest ended =>
      by_cases hmem : delimiter ∈ rest
      · obtain ⟨ink, rest, rfl, hink⟩ := List.eq_append_cons_of_mem hmem
        rw [List.append_assoc, List.cons_append, readText_text ended hink, readText_text ended hink]
        exact .inr ⟨rfl, .before rest _⟩
      · exact .inl (readText_text_end ended hmem)

theorem Seam.dropLine (h : Seam more input other) : Seam more input.dropLine other.dropLine := by
  cases h with
  | past ended =>
      cases ended with
      | false => exact .past false
      | true => exact .past true
  | before rest ended =>
      cases ended with
      | true => exact .before rest true
      | false =>
          -- the newline at the seam ends the line if there is none before it
          have hall : (rest ++ '\n' :: more).dropWhile (· != '\n') =
              if (rest.dropWhile (· != '\n')).isEmpty then '\n' :: more
              else rest.dropWhile (· != '\n') ++ '\n' :: more := by
            rw [List.dropWhile_append]
            rfl
          rcases hdrop : rest.dropWhile (· != '\n') with _ | ⟨newline, after⟩
          · rw [hdrop] at hall
            rw [Input.dropLine, Input.dropLine, TextInput.dropLine_of_nil hdrop,
              TextInput.dropLine_of_cons hall]
            exact .past false
          · rw [hdrop] at hall
            rw [Input.dropLine, Input.dropLine, TextInput.dropLine_of_cons hdrop,
              TextInput.dropLine_of_cons hall]
            exact .before after true

/-- What words insist on, they find in the second input if they find it in the first one. -/
theorem Seam.insisted {α : Type} {reading : Input → Option α × Input} (h : Seam more input other)
    (hreading : Insisted reading) :
    (reading input).1 = none ∨
      (reading other).1 = (reading input).1 ∧ Seam more (reading input).2 (reading other).2 := by
  cases hreading with
  | char => exact h.next
  | token => exact h.readToken
  | text delimiter => exact h.readText delimiter

/-! ## Across the seam -/

/-- The next token is the same and leaves the same, or there is none in either input. -/
def SameToken (first second : Input) : Prop :=
  first.readToken = second.readToken ∨
    first.readToken.1 = none ∧ second.readToken.1 = none

theorem SameToken.symm {first second : Input} (h : first.SameToken second) :
    second.SameToken first :=
  h.imp Eq.symm And.symm

/-- Blanks before a text make no difference to its first token. -/
theorem sameToken_append_of_blank {blanks : List Char}
    (hblanks : ∀ c ∈ blanks, Text.isBlank c = true) (text : List Char) (ended ended' : Bool) :
    (Input.text ⟨blanks ++ text, ended⟩).SameToken (.text ⟨text, ended'⟩) := by
  rw [SameToken, Input.readToken, Input.readToken]
  rcases Text.blank_or_ink text with hblank | ⟨blanks', ink, rest, rfl, hblanks', hne, hink, -⟩
  · obtain ⟨_, hskip⟩ := skipBlanks_text_end ended' hblank
    obtain ⟨_, hskip'⟩ := skipBlanks_text_end ended (List.forall_mem_append.mpr ⟨hblanks, hblank⟩)
    rw [hskip, hskip']
    exact .inr ⟨rfl, rfl⟩
  · obtain ⟨first, ink, rfl⟩ := List.exists_cons_of_ne_nil hne
    have hfirst : Text.isBlank first = false := hink first (List.mem_cons_self ..)
    have hskip := @skipBlanks_text ended' blanks' (ink ++ rest) first hblanks' hfirst
    have hskip' := @skipBlanks_text ended (blanks ++ blanks') (ink ++ rest) first
      (List.forall_mem_append.mpr ⟨hblanks, hblanks'⟩) hfirst
    rw [List.append_assoc] at hskip'
    rw [List.cons_append, hskip, hskip']
    exact .inl rfl

/-- If the first text holds no more tokens, then the second reader finds the first token of the
further text, just as a reader of that text alone. -/
theorem Seam.sameToken (h : Seam more input other) (hnone : input.readToken.1 = none)
    (ended : Bool) : other.SameToken (.text ⟨more, ended⟩) := by
  cases h with
  | past ended' => exact @sameToken_append_of_blank [] (fun c hc => by cases hc) more true ended
  | before rest ended' =>
      have hblank : ∀ c ∈ rest, Text.isBlank c = true := by
        rcases Text.blank_or_ink rest with
          hblank | ⟨blanks, ink, gap, rfl, hblanks, hne, hink, hgap⟩
        · exact hblank
        · obtain ⟨_, -, hread⟩ := readToken_text ended' hblanks hne hink hgap
          rw [hread] at hnone
          cases hnone
      have hnewline : ∀ c ∈ rest ++ ['\n'], Text.isBlank c = true :=
        List.forall_mem_append.mpr ⟨hblank, List.forall_mem_singleton.mpr (by decide)⟩
      have hread := sameToken_append_of_blank hnewline more ended' ended
      rwa [List.append_assoc, List.singleton_append] at hread

end Input

end ThreadedForth
