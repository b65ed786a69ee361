import Mathlib.Data.List.TakeWhile
import ThreadedForth.Proofs.Input.Source

/-!
# Line by line

A failure costs the rest of its line and nothing more.  What that comes to for a whole text is said
by `evaluateLines`: it cuts the text into lines and each line into tokens, evaluates the tokens of a
line up to the first one that fails, and goes on with the next line.

The machine knows no lines.  It reads one token after the other, together with the blank behind it,
and only when a token fails it drops what is left of the line.  The lemmas here say what each of
these does to `evaluateLines`: a blank may be left out, a token that does not fail may be evaluated
in advance, and a token that fails counts for its whole line.
-/

namespace ThreadedForth

/-! ## Tokens -/

namespace Text

variable {blanks ink rest text : List Char} {c : Char}

theorem tokens_of_nil (h : text.dropWhile isBlank = []) : tokens text = [] := by
  rw [tokens]
  split
  · rfl
  · rename_i hcons
    rw [h] at hcons
    cases hcons

theorem tokens_of_cons (h : text.dropWhile isBlank = c :: rest) :
    tokens text = String.ofList (c :: rest.takeWhile (! isBlank ·)) ::
      tokens (rest.dropWhile (! isBlank ·)) := by
  rw [tokens]
  split
  · rename_i hnil
    rw [h] at hnil
    cases hnil
  · rename_i hcons
    rw [h] at hcons
    cases hcons
    rfl

theorem tokens_of_blank (h : ∀ c ∈ text, isBlank c = true) : tokens text = [] :=
  tokens_of_nil (List.dropWhile_eq_nil_iff.mpr h)

theorem tokens_cons_of_blank (h : isBlank c = true) (text : List Char) :
    tokens (c :: text) = tokens text := by
  have hsame : (c :: text).dropWhile isBlank = text.dropWhile isBlank := by simp [h]
  rcases hdrop : text.dropWhile isBlank with _ | ⟨first, rest⟩
  · rw [tokens_of_nil hdrop, tokens_of_nil (hsame.trans hdrop)]
  · rw [tokens_of_cons hdrop, tokens_of_cons (hsame.trans hdrop)]

theorem tokens_append (hne : ink ≠ []) (hink : ∀ d ∈ ink, isBlank d = false)
    (hgap : ∀ d ∈ rest.head?, isBlank d = true) :
    tokens (ink ++ rest) = String.ofList ink :: tokens rest := by
  obtain ⟨first, ink, rfl⟩ := List.exists_cons_of_ne_nil hne
  obtain ⟨hfirst, hink⟩ := List.forall_mem_cons.mp hink
  have hkeep : (first :: ink ++ rest).dropWhile isBlank = first :: (ink ++ rest) := by simp [hfirst]
  have htake : rest.takeWhile (! isBlank ·) = [] := by
    rcases rest with _ | ⟨d, rest⟩
    · rfl
    · simp [hgap d rfl]
  have hdrop : rest.dropWhile (! isBlank ·) = rest := by
    rcases rest with _ | ⟨d, rest⟩
    · rfl
    · simp [hgap d rfl]
  have hall : ∀ d ∈ ink, (! isBlank d) = true := fun d hd => by rw [hink d hd]; rfl
  rw [tokens_of_cons hkeep, List.takeWhile_append_of_pos hall, List.dropWhile_append_of_pos hall,
    htake, hdrop, List.append_nil]

theorem tokens_append_of_blank (h : ∀ c ∈ blanks, isBlank c = true) (text : List Char) :
    tokens (blanks ++ text) = tokens text := by
  induction blanks with
  | nil => rfl
  | cons c blanks ih =>
      obtain ⟨hc, hblanks⟩ := List.forall_mem_cons.mp h
      rw [List.cons_append, tokens_cons_of_blank hc, ih hblanks]

theorem tokens_tail (hgap : ∀ d ∈ rest.head?, isBlank d = true) :
    tokens rest.tail = tokens rest := by
  cases rest with
  | nil => rfl
  | cons d rest => exact (tokens_cons_of_blank (hgap d rfl) rest).symm

/-- A text is blank, or it begins with a token. -/
theorem blank_or_ink (text : List Char) : (∀ c ∈ text, isBlank c = true) ∨
    ∃ blanks ink rest, text = blanks ++ (ink ++ rest) ∧ (∀ c ∈ blanks, isBlank c = true) ∧
      ink ≠ [] ∧ (∀ c ∈ ink, isBlank c = false) ∧ ∀ c ∈ rest.head?, isBlank c = true := by
  rcases hdrop : text.dropWhile isBlank with _ | ⟨first, more⟩
  · exact .inl (List.dropWhile_eq_nil_iff.mp hdrop)
  · have hfirst : isBlank first = false := by
      have hhead := List.head?_dropWhile_not isBlank text
      rw [hdrop] at hhead
      simpa using hhead
    refine .inr ⟨text.takeWhile isBlank, (first :: more).takeWhile (! isBlank ·),
      (first :: more).dropWhile (! isBlank ·), ?_, ?_, ?_, ?_, ?_⟩
    · rw [List.takeWhile_append_dropWhile, ← hdrop, List.takeWhile_append_dropWhile]
    · exact fun c hc => List.mem_takeWhile_imp hc
    · simp [hfirst]
    · intro c hc
      simpa using List.mem_takeWhile_imp hc
    · intro c hc
      have hhead := List.head?_dropWhile_not (! isBlank ·) (first :: more)
      rw [Option.mem_def.mp hc] at hhead
      simpa using hhead

/-- No token reaches over a blank. -/
theorem tokens_append_cons (hc : isBlank c = true) (first second : List Char) :
    tokens (first ++ c :: second) = tokens first ++ tokens second := by
  induction hn : first.length using Nat.strong_induction_on generalizing first with
  | _ n ih =>
    rcases blank_or_ink first with hblank | ⟨blanks, ink, rest, rfl, hblanks, hne, hink, hgap⟩
    · rw [tokens_append_of_blank hblank, tokens_cons_of_blank hc, tokens_of_blank hblank,
        List.nil_append]
    · have hgap' : ∀ d ∈ (rest ++ c :: second).head?, isBlank d = true := by
        cases rest with
        | nil => exact fun d hd => by cases hd; exact hc
        | cons d rest => exact hgap
      have hshorter : rest.length < n := by
        have hpositive := List.length_pos_iff.mpr hne
        simp only [List.length_append] at hn
        omega
      rw [List.append_assoc, List.append_assoc, tokens_append_of_blank hblanks,
        tokens_append hne hink hgap', tokens_append_of_blank hblanks, tokens_append hne hink hgap,
        ih _ hshorter rest rfl, List.cons_append]

/-! ## Lines -/

/-- The lines of a text, without the newlines that end them. -/
def lines (text : List Char) : List (List Char) := text.splitOn '\n'

/-- What follows the first line. -/
def afterLine (text : List Char) : List Char := (text.dropWhile (· != '\n')).tail

theorem lines_nil : lines [] = [[]] := rfl

theorem lines_newline (text : List Char) : lines ('\n' :: text) = [] :: lines text := by
  simp [lines, List.splitOn_cons_eq_if_modifyHead]

theorem lines_cons (hc : c ≠ '\n') (text : List Char) :
    lines (c :: text) = (lines text).modifyHead (c :: ·) := by
  simp [lines, List.splitOn_cons_eq_if_modifyHead, hc]

theorem lines_append (hink : '\n' ∉ ink) (rest : List Char) :
    lines (ink ++ rest) = (lines rest).modifyHead (ink ++ ·) := by
  induction ink with
  | nil => cases hlines : lines rest <;> simp [hlines]
  | cons c ink ih =>
      rw [List.mem_cons, not_or] at hink
      rw [List.cons_append, lines_cons (Ne.symm hink.1), ih hink.2]
      cases lines rest <;> rfl

/-- There is a first line, and the other lines are those of what follows it, if anything does. -/
theorem exists_lines (text : List Char) : ∃ line others, lines text = line :: others ∧
    (∀ c ∈ line.head?, text.head? = some c) ∧
    (others = lines (afterLine text) ∨ others = [] ∧ afterLine text = []) := by
  induction text with
  | nil => exact ⟨[], [], lines_nil, by simp, .inr ⟨rfl, rfl⟩⟩
  | cons c text ih =>
      by_cases hc : c = '\n'
      · subst hc
        exact ⟨[], lines text, lines_newline text, by simp, .inl (by simp [afterLine])⟩
      · obtain ⟨line, others, hlines, -, hothers⟩ := ih
        refine ⟨c :: line, others, ?_, by simp, ?_⟩
        · rw [lines_cons hc, hlines]
          rfl
        · simpa [afterLine, hc] using hothers

theorem length_afterLine_le (text : List Char) : (afterLine text).length ≤ text.length := by
  have hle := (text.dropWhile_suffix (· != '\n')).length_le
  rw [afterLine, List.length_tail]
  omega

/-- Reading up to a delimiter stops at one. -/
theorem eq_of_dropWhile_ne {delimiter : Char} (h : text.dropWhile (· != delimiter) = c :: rest) :
    c = delimiter := by
  have hhead := List.head?_dropWhile_not (· != delimiter) text
  rw [h] at hhead
  simpa using hhead

/-- The tokens of the other lines are among those of the text. -/
theorem mem_tokens_of_afterLine {token : String} (h : token ∈ tokens (afterLine text)) :
    token ∈ tokens text := by
  rw [← List.takeWhile_append_dropWhile (p := (· != '\n')) (l := text)]
  unfold afterLine at h
  rcases hdrop : text.dropWhile (· != '\n') with _ | ⟨c, after⟩
  · rw [hdrop, List.tail_nil, tokens_of_blank (by simp)] at h
    cases h
  · have hc : isBlank c = true := by
      rw [eq_of_dropWhile_ne hdrop]
      decide
    rw [hdrop, List.tail_cons] at h
    rw [tokens_append_cons hc]
    exact List.mem_append_right _ h

end Text

/-! ## Evaluating -/

section Evaluating

variable {Desk Failure : Type} (evaluate : Desk → String → Except Failure Desk)

/-- The tokens of a line are evaluated up to the first one that fails. -/
def evaluateLine (desk : Desk) : List String → Desk × Option Failure
  | [] => (desk, none)
  | token :: tokens =>
    match evaluate desk token with
    | .ok desk => evaluateLine desk tokens
    | .error failure => (desk, some failure)

/-- The lines are evaluated one after the other, and the failures are collected. -/
def evaluateLines (desk : Desk) : List (List Char) → Desk × List Failure
  | [] => (desk, [])
  | line :: lines =>
    let (desk, failure?) := evaluateLine evaluate desk (Text.tokens line)
    let (desk, failures) := evaluateLines desk lines
    (desk, failure?.toList ++ failures)

variable {evaluate} {desk desk' : Desk} {blanks ink rest text : List Char} {c : Char}

theorem evaluateLines_nil : evaluateLines evaluate desk (Text.lines []) = (desk, []) := by
  rw [Text.lines_nil, evaluateLines, Text.tokens_of_blank (by simp)]
  rfl

/-- A blank before a text may as well be missing. -/
theorem evaluateLines_cons_of_blank (h : Text.isBlank c = true) :
    evaluateLines evaluate desk (Text.lines (c :: text)) =
      evaluateLines evaluate desk (Text.lines text) := by
  by_cases hc : c = '\n'
  · rw [hc, Text.lines_newline, evaluateLines, Text.tokens_of_blank (by simp)]
    rfl
  · obtain ⟨line, others, hlines, -⟩ := Text.exists_lines text
    rw [Text.lines_cons hc, hlines, List.modifyHead_cons, evaluateLines, evaluateLines,
      Text.tokens_cons_of_blank h]

theorem evaluateLines_append_of_blank (h : ∀ c ∈ blanks, Text.isBlank c = true) :
    evaluateLines evaluate desk (Text.lines (blanks ++ text)) =
      evaluateLines evaluate desk (Text.lines text) := by
  induction blanks with
  | nil => rfl
  | cons c blanks ih =>
      obtain ⟨hc, hblanks⟩ := List.forall_mem_cons.mp h
      rw [List.cons_append, evaluateLines_cons_of_blank hc, ih hblanks]

/-- The blank behind a token may as well be missing. -/
theorem evaluateLines_tail (hgap : ∀ d ∈ rest.head?, Text.isBlank d = true) :
    evaluateLines evaluate desk (Text.lines rest.tail) =
      evaluateLines evaluate desk (Text.lines rest) := by
  cases rest with
  | nil => rfl
  | cons d rest => exact (evaluateLines_cons_of_blank (hgap d rfl)).symm

section Token

variable (hne : ink ≠ []) (hink : ∀ d ∈ ink, Text.isBlank d = false)
  (hgap : ∀ d ∈ rest.head?, Text.isBlank d = true)

include hne hink hgap

/-- The first line of a text that begins with a token has that token first. -/
theorem evaluateLines_ink : ∃ line others, Text.lines rest = line :: others ∧
    (others = Text.lines (Text.afterLine rest) ∨ others = [] ∧ Text.afterLine rest = []) ∧
    Text.lines (ink ++ rest) = (ink ++ line) :: others ∧
    Text.tokens (ink ++ line) = String.ofList ink :: Text.tokens line := by
  obtain ⟨line, others, hlines, hhead, hothers⟩ := Text.exists_lines rest
  have hnewline : '\n' ∉ ink := by
    intro hmem
    exact absurd (hink _ hmem) (by decide)
  refine ⟨line, others, hlines, hothers, ?_, ?_⟩
  · rw [Text.lines_append hnewline, hlines]
    rfl
  · exact Text.tokens_append hne hink fun d hd => hgap d (hhead d hd)

/-- A token that does not fail may be evaluated in advance. -/
theorem evaluateLines_of_ok (h : evaluate desk (String.ofList ink) = .ok desk') :
    evaluateLines evaluate desk (Text.lines (ink ++ rest)) =
      evaluateLines evaluate desk' (Text.lines rest) := by
  obtain ⟨line, others, hlines, -, happend, htokens⟩ := evaluateLines_ink hne hink hgap
  rw [happend, hlines, evaluateLines, evaluateLines, htokens, evaluateLine, h]

/-- After a token that fails, evaluation goes on with the next line. -/
theorem evaluateLines_of_error {failure : Failure}
    (h : evaluate desk (String.ofList ink) = .error failure) :
    evaluateLines evaluate desk (Text.lines (ink ++ rest)) =
      ((evaluateLines evaluate desk (Text.lines (Text.afterLine rest))).1,
        failure :: (evaluateLines evaluate desk (Text.lines (Text.afterLine rest))).2) := by
  obtain ⟨line, others, -, hothers, happend, htokens⟩ := evaluateLines_ink hne hink hgap
  have hlater : evaluateLines evaluate desk others =
      evaluateLines evaluate desk (Text.lines (Text.afterLine rest)) := by
    rcases hothers with rfl | ⟨rfl, hafter⟩
    · rfl
    · rw [hafter, evaluateLines_nil]
      rfl
  rw [happend, evaluateLines, htokens, evaluateLine, h]
  simp only [hlater]
  rfl

end Token

end Evaluating

/-! ## Dropping the rest of a line -/

/-- After a token and the blank behind it were read, dropping the line drops it to its end. -/
theorem TextInput.exists_dropLine {rest : List Char} {ended : Bool}
    (hended : ∀ d ∈ rest.head?, ended = decide (d = '\n')) :
    ∃ ended', dropLine ⟨rest.tail, ended⟩ = ⟨Text.afterLine rest, ended'⟩ := by
  cases rest with
  | nil => exact ⟨ended, by cases ended <;> rfl⟩
  | cons d rest =>
      obtain rfl : ended = decide (d = '\n') := hended d rfl
      by_cases hd : d = '\n'
      · exact ⟨true, by simp [dropLine, Text.afterLine, hd]⟩
      · have hafter : Text.afterLine (d :: rest) = Text.afterLine rest := by
          simp [Text.afterLine, hd]
        rw [hafter]
        rcases rest with _ | ⟨c, rest⟩
        · exact ⟨false, by simp [dropLine, hd, Text.afterLine]⟩
        · simp only [dropLine, hd, decide_false, Text.afterLine, List.tail_cons]
          rcases (c :: rest).dropWhile (· != '\n') with _ | ⟨_, more⟩
          · exact ⟨false, rfl⟩
          · exact ⟨true, rfl⟩

end ThreadedForth
