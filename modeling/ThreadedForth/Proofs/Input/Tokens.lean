import Mathlib.Logic.Function.Iterate
import ThreadedForth.Proofs.Input.Lines

/-!
# Tokens are the maximal runs of ink

`Input.readToken` skips blanks, collects ink and drops the one blank behind it.  What it cuts out of
a text is said here without it: a token is a stretch of the text with no blank in it that cannot be
made longer at either end (`Text.IsRun`).  Reading tokens delivers exactly these, from left to
right, and between two reads the unread text begins right behind the blank that ended the last
token, so that a text read next, up to some delimiter, is cut out there.

A text is read piece by piece, so the bridge between the two is `Text.Splits`: it follows the reads
from a place on, and for each of them it has the stretch that was read.
-/

namespace ThreadedForth

namespace Text

/-! ## Runs -/

/-- A stretch of a text that is not empty and has no blank in it. -/
structure IsInk (text : List Char) (start stop : ℕ) : Prop where
  nonempty : start < stop
  within : stop ≤ text.length
  ink : ∀ place, start ≤ place → place < stop → ∀ c ∈ text[place]?, isBlank c = false

/-- A stretch of ink that is not part of a longer one. -/
structure IsRun (text : List Char) (start stop : ℕ) : Prop extends IsInk text start stop where
  maximal : ∀ start' stop', IsInk text start' stop' → start' ≤ start → stop ≤ stop' →
    start' = start ∧ stop' = stop

variable {text blanks ink rest : List Char} {place start stop start' stop' : ℕ}

theorem IsInk.exists_ink (h : IsInk text start stop) (hstart : start ≤ place)
    (hstop : place < stop) : ∃ c, text[place]? = some c ∧ isBlank c = false := by
  have hplace : place < text.length := by have := h.within; omega
  have hget : text[place]? = some text[place] := List.getElem?_eq_getElem hplace
  exact ⟨_, hget, h.ink place hstart hstop _ hget⟩

/-- There is ink at no place where there is a blank. -/
theorem IsInk.not_blank (h : IsInk text start stop) (hstart : start ≤ place) (hstop : place < stop)
    (hblank : ∀ c ∈ text[place]?, isBlank c = true) : False := by
  obtain ⟨c, hget, hink⟩ := h.exists_ink hstart hstop
  rw [hblank c hget] at hink
  cases hink

/-- Two stretches of ink that share a place are one. -/
theorem IsInk.union (h : IsInk text start stop) (h' : IsInk text start' stop')
    (hshared : start' < stop) :
    IsInk text start (max stop stop') where
  nonempty := Nat.lt_of_lt_of_le h.nonempty (Nat.le_max_left ..)
  within := max_le h.within h'.within
  ink place hplace hbound := by
    by_cases hstop : place < stop
    · exact h.ink place hplace hstop
    · exact h'.ink place (by omega) (by omega)

/-- Ink with a blank, or with nothing, on either side is a run. -/
theorem IsInk.isRun (h : IsInk text start stop)
    (hbefore : 0 < start → ∀ c ∈ text[start - 1]?, isBlank c = true)
    (hbehind : ∀ c ∈ text[stop]?, isBlank c = true) : IsRun text start stop where
  toIsInk := h
  maximal start' stop' h' hstart hstop := by
    have hnonempty := h.nonempty
    constructor
    · by_contra hne
      exact h'.not_blank (by omega) (by omega) (hbefore (by omega))
    · by_contra hne
      exact h'.not_blank (by omega) (by omega) hbehind

/-- Runs that share a place are the same. -/
theorem IsRun.unique (h : IsRun text start stop) (h' : IsRun text start' stop')
    (hbegin : start ≤ start') (hshared : start' < stop) : start' = start ∧ stop' = stop := by
  have hunion := h.toIsInk.union h'.toIsInk hshared
  obtain ⟨-, hstop⟩ := h.maximal _ _ hunion le_rfl (le_max_left ..)
  obtain ⟨hstart, hstop'⟩ := h'.maximal _ _ hunion hbegin (le_max_right ..)
  omega

/-! ## Splitting a text -/

/-- From a place on the text is split into these stretches: each is ink between blanks, and the next
one is looked for behind the blank that ends it. -/
inductive Splits (text : List Char) : ℕ → List (ℕ × ℕ) → Prop
  | nil {place : ℕ} (hblanks : ∀ c ∈ text.drop place, isBlank c = true) : Splits text place []
  | cons {place : ℕ} {blanks ink rest : List Char} {runs : List (ℕ × ℕ)}
      (htext : text.drop place = blanks ++ (ink ++ rest))
      (hblanks : ∀ c ∈ blanks, isBlank c = true) (hne : ink ≠ [])
      (hink : ∀ c ∈ ink, isBlank c = false) (hgap : ∀ c ∈ rest.head?, isBlank c = true)
      (hruns : Splits text (place + blanks.length + ink.length + 1) runs) :
      Splits text place ((place + blanks.length, place + blanks.length + ink.length) :: runs)

/-- The text of a stretch. -/
def cut (text : List Char) (run : ℕ × ℕ) : String := String.ofList (text.extract run.1 run.2)

theorem exists_splits (text : List Char) (place : ℕ) : ∃ runs, Splits text place runs := by
  induction hn : text.length - place using Nat.strong_induction_on generalizing place with
  | _ n ih =>
    rcases blank_or_ink (text.drop place) with
      hblank | ⟨blanks, ink, rest, htext, hblanks, hne, hink, hgap⟩
    · exact ⟨[], .nil hblank⟩
    · have hlength := congrArg List.length htext
      have hpositive := List.length_pos_iff.mpr hne
      simp only [List.length_drop, List.length_append] at hlength
      obtain ⟨runs, hruns⟩ := ih _ (by omega) (place + blanks.length + ink.length + 1) rfl
      exact ⟨_, .cons htext hblanks hne hink hgap hruns⟩

section First

variable (htext : text.drop place = blanks ++ (ink ++ rest))

include htext

theorem drop_behind : text.drop (place + blanks.length + ink.length + 1) = rest.tail := by
  rw [Nat.add_assoc, Nat.add_assoc, ← List.drop_drop, htext, ← List.drop_drop, List.drop_left,
    ← List.drop_drop, List.drop_left, List.drop_one]

theorem cut_first :
    cut text (place + blanks.length, place + blanks.length + ink.length) = String.ofList ink := by
  rw [cut, List.extract_eq_take_drop, ← List.drop_drop, htext, List.drop_left,
    Nat.add_sub_cancel_left, List.take_left]

theorem getElem?_blanks (hblanks : ∀ c ∈ blanks, isBlank c = true) {i : ℕ} (hstart : place ≤ i)
    (hstop : i < place + blanks.length) : ∀ c ∈ text[i]?, isBlank c = true := by
  obtain ⟨offset, rfl⟩ := Nat.exists_eq_add_of_le hstart
  rw [← List.getElem?_drop, htext, List.getElem?_append_left (by omega)]
  exact fun c hc => hblanks c (List.mem_of_getElem? hc)

theorem getElem?_gap (hgap : ∀ c ∈ rest.head?, isBlank c = true) :
    ∀ c ∈ text[place + blanks.length + ink.length]?, isBlank c = true := by
  rw [Nat.add_assoc, ← List.getElem?_drop, htext, List.getElem?_append_right (by omega),
    List.getElem?_append_right (by omega)]
  simpa [← List.head?_eq_getElem?] using hgap

theorem isInk_first (hne : ink ≠ []) (hink : ∀ c ∈ ink, isBlank c = false) :
    IsInk text (place + blanks.length) (place + blanks.length + ink.length) where
  nonempty := Nat.lt_add_of_pos_right (List.length_pos_iff.mpr hne)
  within := by
    have hlength := congrArg List.length htext
    have hpositive := List.length_pos_iff.mpr hne
    simp only [List.length_drop, List.length_append] at hlength
    omega
  ink i hstart hstop := by
    obtain ⟨offset, rfl⟩ := Nat.exists_eq_add_of_le hstart
    rw [Nat.add_assoc, ← List.getElem?_drop, htext, List.getElem?_append_right (by omega),
      Nat.add_sub_cancel_left, List.getElem?_append_left (by omega)]
    exact fun c hc => hink c (List.mem_of_getElem? hc)

/-- The first stretch of ink is a run, since there is a blank before the place if anything is. -/
theorem isRun_first (hblanks : ∀ c ∈ blanks, isBlank c = true) (hne : ink ≠ [])
    (hink : ∀ c ∈ ink, isBlank c = false) (hgap : ∀ c ∈ rest.head?, isBlank c = true)
    (hbefore : 0 < place → ∀ c ∈ text[place - 1]?, isBlank c = true) :
    IsRun text (place + blanks.length) (place + blanks.length + ink.length) := by
  apply (isInk_first htext hne hink).isRun
  · intro hpos
    by_cases hlength : blanks.length = 0
    · simpa [hlength] using hbefore (by omega)
    · exact getElem?_blanks htext hblanks (by omega) (by omega)
  · exact getElem?_gap htext hgap

end First

/-- Splitting a text finds its runs, from the place on where it begins. -/
theorem Splits.mem_iff {runs : List (ℕ × ℕ)} (h : Splits text place runs)
    (hbefore : 0 < place → ∀ c ∈ text[place - 1]?, isBlank c = true) :
    (start, stop) ∈ runs ↔ IsRun text start stop ∧ place ≤ start := by
  induction h with
  | @nil place hblanks =>
      refine iff_of_false List.not_mem_nil ?_
      rintro ⟨hrun, hplace⟩
      obtain ⟨c, hget, hink⟩ := hrun.toIsInk.exists_ink le_rfl hrun.nonempty
      have hmem : c ∈ text.drop place := by
        obtain ⟨offset, rfl⟩ := Nat.exists_eq_add_of_le hplace
        rw [← List.getElem?_drop] at hget
        exact List.mem_of_getElem? hget
      rw [hblanks c hmem] at hink
      cases hink
  | @cons place blanks ink rest runs htext hblanks hne hink hgap _ ih =>
      have hbehind := getElem?_gap htext hgap
      have hlater := ih fun _ => by simpa using hbehind
      have hfirst := isRun_first htext hblanks hne hink hgap hbefore
      rw [List.mem_cons, hlater, Prod.mk.injEq]
      constructor
      · rintro (⟨rfl, rfl⟩ | ⟨hrun, hstart⟩)
        · exact ⟨hfirst, by omega⟩
        · exact ⟨hrun, by omega⟩
      · rintro ⟨hrun, hstart⟩
        -- A run from here on begins behind the blanks; it is the first one or begins behind it.
        by_cases hshared : start < place + blanks.length + ink.length
        · refine .inl (hfirst.unique hrun ?_ hshared)
          by_contra hlt
          apply hrun.toIsInk.not_blank le_rfl hrun.nonempty
          exact getElem?_blanks htext hblanks hstart (by omega)
        · refine .inr ⟨hrun, ?_⟩
          by_contra hlt
          obtain rfl : start = place + blanks.length + ink.length := by omega
          exact hrun.toIsInk.not_blank le_rfl hrun.nonempty hbehind

/-- The runs come from left to right. -/
theorem Splits.pairwise {runs : List (ℕ × ℕ)} (h : Splits text place runs) :
    (∀ run ∈ runs, place ≤ run.1) ∧ runs.Pairwise fun first second => first.2 < second.1 := by
  induction h with
  | nil => exact ⟨by simp, .nil⟩
  | cons _ _ _ _ _ _ ih =>
      obtain ⟨hlater, hpairwise⟩ := ih
      refine ⟨?_, .cons (fun run hrun => ?_) hpairwise⟩
      · rintro run hrun
        rcases List.mem_cons.mp hrun with rfl | hrun
        · exact Nat.le_add_right ..
        · exact le_trans (by omega) (hlater run hrun)
      · exact lt_of_lt_of_le (Nat.lt_succ_self _) (hlater run hrun)

/-- What follows the last one of the stretches that were read, and the blank that ended it. -/
def behind (text : List Char) (read : List (ℕ × ℕ)) : List Char :=
  match read.getLast? with
  | none => text
  | some run => text.drop (run.2 + 1)

end Text

/-! ## Reading the tokens of a text -/

namespace Input

/-- The input is a text of which this is unread. -/
def HasLeft (input : Input) (unread : List Char) : Prop := ∃ ended, input = .text ⟨unread, ended⟩

variable {input : Input} {unread : List Char}

/-- Reading up to a delimiter: what is before it, or all that is left. -/
theorem HasLeft.readText (h : input.HasLeft unread) (delimiter : Char) :
    (input.readText delimiter).1 =
        (if delimiter ∈ unread then
          some (String.ofList (unread.takeWhile (· != delimiter))) else none) ∧
      (input.readText delimiter).2.HasLeft (unread.dropWhile (· != delimiter)).tail := by
  obtain ⟨ended, rfl⟩ := h
  have hbefore : delimiter ∉ unread.takeWhile (· != delimiter) := fun hmem => by
    simpa using List.mem_takeWhile_imp hmem
  have hsplit := List.takeWhile_append_dropWhile (p := (· != delimiter)) (l := unread)
  rcases hdrop : unread.dropWhile (· != delimiter) with _ | ⟨d, rest⟩
  · rw [hdrop, List.append_nil] at hsplit
    rw [hsplit] at hbefore
    obtain ⟨ended', hcollect⟩ := @collectBefore_text_end ended unread delimiter [] hbefore
    rw [if_neg hbefore, Input.readText, hcollect]
    exact ⟨rfl, ended', rfl⟩
  · obtain rfl : d = delimiter := Text.eq_of_dropWhile_ne hdrop
    rw [hdrop] at hsplit
    have hread := @readText_text ended _ rest _ hbefore
    rw [hsplit] at hread
    have hmem : d ∈ unread := by
      rw [← hsplit]
      simp
    rw [hread, if_pos hmem]
    exact ⟨rfl, _, rfl⟩

theorem HasLeft.readToken_of_blank (h : input.HasLeft unread)
    (hblanks : ∀ c ∈ unread, Text.isBlank c = true) :
    input.readToken.1 = none ∧ input.readToken.2.HasLeft [] := by
  obtain ⟨ended, rfl⟩ := h
  obtain ⟨ended', hskip⟩ := skipBlanks_text_end ended hblanks
  rw [Input.readToken, hskip]
  exact ⟨rfl, ended', rfl⟩

/-- The input after a number of reads of a token. -/
def afterTokens (k : ℕ) (input : Input) : Input := (fun input => input.readToken.2)^[k] input

theorem afterTokens_succ (k : ℕ) (input : Input) :
    input.afterTokens (k + 1) = input.readToken.2.afterTokens k :=
  Function.iterate_succ_apply _ k input

theorem afterTokens_succ' (k : ℕ) (input : Input) :
    input.afterTokens (k + 1) = (input.afterTokens k).readToken.2 :=
  Function.iterate_succ_apply' _ k input

/-- Where there are only blanks, no read finds a token. -/
theorem HasLeft.afterTokens_of_blank (h : input.HasLeft unread)
    (hblanks : ∀ c ∈ unread, Text.isBlank c = true) (k : ℕ) :
    (input.afterTokens k).readToken.1 = none ∧ (input.afterTokens k).readToken.2.HasLeft [] := by
  induction k generalizing input unread with
  | zero => exact h.readToken_of_blank hblanks
  | succ k ih =>
      rw [afterTokens_succ]
      exact ih (h.readToken_of_blank hblanks).2 (by simp)

section Splits

variable {text : List Char} {place : ℕ} {runs : List (ℕ × ℕ)}

/-- Every stretch is read in its turn, together with the blank behind it. -/
theorem HasLeft.reads_run (hruns : Text.Splits text place runs)
    (h : input.HasLeft (text.drop place)) {k : ℕ} {run : ℕ × ℕ} (hrun : runs[k]? = some run) :
    (input.afterTokens k).readToken.1 = some (Text.cut text run) ∧
      (input.afterTokens k).readToken.2.HasLeft (text.drop (run.2 + 1)) := by
  induction hruns generalizing input k with
  | nil => cases hrun
  | @cons place blanks ink rest runs htext hblanks hne hink hgap _ ih =>
      obtain ⟨ended, rfl⟩ := h
      obtain ⟨ended', -, hread⟩ := readToken_text ended hblanks hne hink hgap
      rw [← htext] at hread
      cases k with
      | zero =>
          obtain rfl := Option.some.inj hrun
          rw [Text.cut_first htext, Text.drop_behind htext, afterTokens,
            Function.iterate_zero_apply, hread]
          exact ⟨rfl, ended', rfl⟩
      | succ k =>
          rw [afterTokens_succ, hread]
          exact ih ⟨ended', by rw [Text.drop_behind htext]⟩ hrun

/-- Then there is no other token, and nothing is left unread. -/
theorem HasLeft.reads_end (hruns : Text.Splits text place runs)
    (h : input.HasLeft (text.drop place)) {k : ℕ} (hk : runs.length ≤ k) :
    (input.afterTokens k).readToken.1 = none ∧ (input.afterTokens k).readToken.2.HasLeft [] := by
  induction hruns generalizing input k with
  | nil hblanks => exact h.afterTokens_of_blank hblanks k
  | @cons place blanks ink rest runs htext hblanks hne hink hgap _ ih =>
      obtain ⟨ended, rfl⟩ := h
      obtain ⟨ended', -, hread⟩ := readToken_text ended hblanks hne hink hgap
      rw [← htext] at hread
      cases k with
      | zero => cases hk
      | succ k =>
          rw [afterTokens_succ, hread]
          exact ih ⟨ended', by rw [Text.drop_behind htext]⟩ (Nat.le_of_succ_le_succ hk)

end Splits

/-- **Tokenizing is exact and resumable.** The runs of a text can be listed from left to right, and
reading token after token delivers exactly them; then there is no token, and everything was read.
Before that, between two reads, what follows the last token and the blank behind it is unread, and
reading up to a delimiter there delivers the characters before the first one, and drops it; or
nothing, and then everything was read. -/
theorem tokens_ofString (source : String) : ∃ runs : List (ℕ × ℕ),
    (∀ start stop, (start, stop) ∈ runs ↔ Text.IsRun source.toList start stop) ∧
    (runs.Pairwise fun first second => first.2 < second.1) ∧
    (∀ k, ((ofString source).afterTokens k).readToken.1 =
      runs[k]?.map (Text.cut source.toList)) ∧
    (∀ k, runs.length < k → ((ofString source).afterTokens k).HasLeft []) ∧
    ∀ k ≤ runs.length, ∃ unread, unread = Text.behind source.toList (runs.take k) ∧
      ((ofString source).afterTokens k).HasLeft unread ∧
      ∀ delimiter,
        (((ofString source).afterTokens k).readText delimiter).1 =
          (if delimiter ∈ unread then
            some (String.ofList (unread.takeWhile (· != delimiter))) else none) ∧
        (((ofString source).afterTokens k).readText delimiter).2.HasLeft
          (unread.dropWhile (· != delimiter)).tail := by
  obtain ⟨runs, hruns⟩ := Text.exists_splits source.toList 0
  have hstart : (ofString source).HasLeft (source.toList.drop 0) := ⟨false, rfl⟩
  have hmem : ∀ start stop, (start, stop) ∈ runs ↔ Text.IsRun source.toList start stop := by
    intro start stop
    rw [hruns.mem_iff (fun hpos => absurd hpos (Nat.lt_irrefl 0))]
    simp
  have hreads : ∀ k, ((ofString source).afterTokens k).readToken.1 =
      runs[k]?.map (Text.cut source.toList) := by
    intro k
    cases hrun : runs[k]? with
    | none => exact (hstart.reads_end hruns (List.getElem?_eq_none_iff.mp hrun)).1
    | some run => exact (hstart.reads_run hruns hrun).1
  have hend : ∀ k, runs.length < k → ((ofString source).afterTokens k).HasLeft [] := by
    intro k hk
    cases k with
    | zero => cases hk
    | succ k =>
        rw [afterTokens_succ']
        exact (hstart.reads_end hruns (Nat.le_of_lt_succ hk)).2
  refine ⟨runs, hmem, hruns.pairwise.2, hreads, hend, fun k hk => ?_⟩
  have hleft : ((ofString source).afterTokens k).HasLeft
      (Text.behind source.toList (runs.take k)) := by
    cases k with
    | zero => exact hstart
    | succ k =>
        have hrun : runs[k]? = some runs[k] := List.getElem?_eq_getElem hk
        rw [afterTokens_succ', List.take_add_one, hrun, Text.behind, Option.toList_some,
          List.getLast?_append, List.getLast?_singleton, Option.some_or]
        exact (hstart.reads_run hruns hrun).2
  exact ⟨_, rfl, hleft, hleft.readText⟩

end Input

end ThreadedForth
