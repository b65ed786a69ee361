import Mathlib.Data.List.Basic
import ThreadedForth.Highlight

/-!
# Colouring only adds colour

A coloured line is a text like any other, and whoever shows it tells the escape sequences in it from
its characters.  So the coloured line is read back here: `pieces` cuts a text into escape sequences
and other characters, by the sequences alone and with no knowledge of how they came into the text.
Of a line that has no escape character of its own, the characters are the line, and the sequences
are the beginnings and ends of coloured stretches in turn (`Painted`).
-/

namespace ThreadedForth.Highlight

/-! ## Reading a coloured text -/

/-- An escape sequence. -/
inductive Code where
  | opening (colour : Colour)
  | closing
  deriving DecidableEq, Repr

namespace Code

def chars : Code → List Char
  | opening colour => colour.code.toList
  | closing => resetCode.toList

def all : List Code :=
  [opening .number, opening .definition, opening .comment, opening .string, closing]

/-- The escape sequence that a text begins with, and what follows it. -/
def read? (text : List Char) : Option (Code × List Char) :=
  all.findSome? fun code => (code.chars.isPrefixOf? text).map (code, ·)

end Code

/-- A text as it is shown. -/
inductive Piece where
  | char (c : Char)
  | escape (code : Code)
  deriving DecidableEq, Repr

namespace Piece

/-- How a piece is written. -/
def chars : Piece → List Char
  | .char c => [c]
  | .escape code => code.chars

/-- The character that is shown. -/
def shown? : Piece → Option Char
  | .char c => some c
  | .escape _ => none

end Piece

variable {text rest later : List Char} {code : Code} {c : Char}

theorem Code.chars_eq (code : Code) : ∃ more, code.chars = '\x1b' :: more := by
  rcases code with (_ | _ | _ | _) | _ <;> exact ⟨_, rfl⟩

theorem Code.read?_eq_some (h : Code.read? text = some (code, rest)) :
    code.chars ++ rest = text := by
  obtain ⟨found, -, hfound⟩ := List.exists_of_findSome?_eq_some h
  obtain ⟨later, hlater, hsame⟩ := Option.map_eq_some_iff.mp hfound
  obtain ⟨rfl, rfl⟩ := Prod.mk.inj hsame
  exact List.isPrefixOf?_eq_some_iff_append_eq.mp hlater

/-- No escape sequence is the beginning of another one. -/
theorem Code.read?_append (code : Code) (rest : List Char) :
    Code.read? (code.chars ++ rest) = some (code, rest) := by
  rcases code with (_ | _ | _ | _) | _ <;> rfl

theorem Code.read?_of_ne (hc : c ≠ '\x1b') : Code.read? (c :: rest) = none := by
  refine List.findSome?_eq_none_iff.mpr fun code _ => ?_
  obtain ⟨more, hmore⟩ := code.chars_eq
  rw [hmore, Option.map_eq_none_iff, List.isPrefixOf?, if_neg (by simpa using hc.symm)]

/-- Cuts a text into its escape sequences and the other characters. -/
def pieces (text : List Char) : List Piece :=
  match _h : text with
  | [] => []
  | c :: later =>
    match _hread : Code.read? (c :: later) with
    | some (code, rest) => .escape code :: pieces rest
    | none => .char c :: pieces later
  termination_by text.length
  decreasing_by
    · obtain ⟨more, hmore⟩ := code.chars_eq
      rw [← Code.read?_eq_some _hread, hmore, List.length_append, List.length_cons]
      omega
    · simp

/-- Deletes every escape sequence from a text. -/
def erased (text : List Char) : List Char := (pieces text).filterMap Piece.shown?

theorem pieces_nil : pieces [] = [] := by
  rw [pieces]

theorem pieces_of_some (h : Code.read? (c :: later) = some (code, rest)) :
    pieces (c :: later) = .escape code :: pieces rest := by
  rw [pieces]
  split
  · rename_i hread
    obtain ⟨rfl, rfl⟩ := Prod.mk.inj (Option.some.inj (hread.symm.trans h))
    rfl
  · rename_i hread
    cases hread.symm.trans h

theorem pieces_of_none (h : Code.read? (c :: later) = none) :
    pieces (c :: later) = .char c :: pieces later := by
  rw [pieces]
  split
  · rename_i hread
    cases hread.symm.trans h
  · rfl

/-- Nothing is lost when a text is cut into pieces. -/
theorem chars_pieces (text : List Char) : (pieces text).flatMap Piece.chars = text := by
  induction text using pieces.induct with
  | case1 => rw [pieces_nil, List.flatMap_nil]
  | case2 c later code rest hread ih =>
      rw [pieces_of_some hread, List.flatMap_cons, ih]
      exact Code.read?_eq_some hread
  | case3 c later hread ih =>
      rw [pieces_of_none hread, List.flatMap_cons, ih]
      rfl

theorem pieces_code (code : Code) (rest : List Char) :
    pieces (code.chars ++ rest) = .escape code :: pieces rest := by
  obtain ⟨more, hmore⟩ := code.chars_eq
  have hread := code.read?_append rest
  rw [hmore, List.cons_append] at hread ⊢
  exact pieces_of_some hread

theorem pieces_plain (h : '\x1b' ∉ text) (rest : List Char) :
    pieces (text ++ rest) = text.map Piece.char ++ pieces rest := by
  induction text with
  | nil => rfl
  | cons c text ih =>
      rw [List.mem_cons, not_or] at h
      rw [List.cons_append, pieces_of_none (Code.read?_of_ne (Ne.symm h.1)), ih h.2, List.map_cons,
        List.cons_append]

/-! ## Painted texts -/

/-- Every coloured stretch has some characters in it, one sequence that begins its colour before
them, and one that ends it behind them.  All other characters are by themselves. -/
inductive Painted : List Piece → Prop
  | nil : Painted []
  | plain (c : Char) {rest : List Piece} (hrest : Painted rest) : Painted (.char c :: rest)
  | coloured (colour : Colour) {text : List Char} {rest : List Piece} (hne : text ≠ [])
      (hrest : Painted rest) :
      Painted (.escape (.opening colour) :: (text.map Piece.char ++ .escape .closing :: rest))

theorem Painted.plains {rest : List Piece} (h : Painted rest) (text : List Char) :
    Painted (text.map Piece.char ++ rest) := by
  induction text with
  | nil => exact h
  | cons c text ih => exact .plain c ih

theorem filterMap_shown?_map_char (text : List Char) :
    (text.map Piece.char).filterMap Piece.shown? = text := by
  rw [List.filterMap_map]
  exact List.filterMap_some

/-- A stretch shows its text, in its colour if it has one. -/
theorem Stretch.render_pieces {stretch : Stretch} (h : '\x1b' ∉ stretch.text)
    (hrest : Painted (pieces rest)) :
    erased (stretch.render.toList ++ rest) = stretch.text ++ erased rest ∧
      Painted (pieces (stretch.render.toList ++ rest)) := by
  obtain ⟨_ | colour, text⟩ := stretch
  · rw [render, String.toList_ofList, erased, pieces_plain h, List.filterMap_append,
      filterMap_shown?_map_char]
    exact ⟨rfl, hrest.plains text⟩
  · cases text with
    | nil => exact ⟨rfl, hrest⟩
    | cons c text =>
        have hrender : (render ⟨some colour, c :: text⟩).toList ++ rest =
            (Code.opening colour).chars ++ (c :: text ++ (Code.closing.chars ++ rest)) := by
          simp [render, Code.chars]
        rw [hrender, erased, pieces_code, pieces_plain h, pieces_code]
        refine ⟨?_, .coloured colour (List.cons_ne_nil c text) hrest⟩
        rw [List.filterMap_cons_none rfl, List.filterMap_append, filterMap_shown?_map_char,
          List.filterMap_cons_none rfl]
        rfl

theorem render_stretches_pieces {list : List Stretch}
    (h : ∀ stretch ∈ list, '\x1b' ∉ stretch.text) :
    erased ((list.map Stretch.render).flatMap String.toList) = list.flatMap Stretch.text ∧
      Painted (pieces ((list.map Stretch.render).flatMap String.toList)) := by
  induction list with
  | nil =>
      rw [List.map_nil, List.flatMap_nil, erased, pieces_nil]
      exact ⟨rfl, .nil⟩
  | cons stretch list ih =>
      obtain ⟨hstretch, hlist⟩ := List.forall_mem_cons.mp h
      obtain ⟨herased, hpainted⟩ := ih hlist
      rw [List.map_cons, List.flatMap_cons, List.flatMap_cons, ← herased]
      exact Stretch.render_pieces hstretch hpainted

/-! ## The stretches of a line -/

/-- The stretches are the line, cut. -/
theorem flatMap_text_stretches (expectation : Expectation) (line : List Char) :
    (stretches expectation line).flatMap Stretch.text = line := by
  induction expectation, line using stretches.induct with
  | case1 expectation =>
      rw [stretches]
      rfl
  | case2 expectation c rest hblank ih =>
      rw [stretches, if_pos hblank, List.flatMap_cons, ih, List.cons_append,
        List.takeWhile_append_dropWhile]
  | case3 expectation c rest hblank token hcomment =>
      -- A backslash: what is left of the line is one stretch.
      rw [stretches, if_neg hblank, if_pos hcomment]
      simp
  | case4 expectation c rest hblank token later hcomment colour next hclass ih =>
      rw [stretches, if_neg hblank, if_neg hcomment]
      simp only [token] at hclass
      simp only [hclass, List.flatMap_cons]
      rw [ih, List.cons_append, List.takeWhile_append_dropWhile]

/-- **Colouring only adds colour.** Take a line that has no escape character.  If the escape
sequences are deleted from the coloured line, the line is left; and each coloured stretch is opened
by one sequence that begins its colour, and closed by one that ends it before the next is opened. -/
theorem line_only_adds_colour (text : String) (h : '\x1b' ∉ text.toList) :
    erased (line text).toList = text.toList ∧ Painted (pieces (line text).toList) := by
  have hstretches := flatMap_text_stretches .any text.toList
  have hplain : ∀ stretch ∈ stretches .any text.toList, '\x1b' ∉ stretch.text := by
    intro stretch hstretch hmem
    rw [← hstretches] at h
    exact h (List.mem_flatMap.mpr ⟨stretch, hstretch, hmem⟩)
  obtain ⟨herased, hpainted⟩ := render_stretches_pieces hplain
  rw [line, String.toList_join]
  exact ⟨herased.trans hstretches, hpainted⟩

theorem line_only_adds_colour_comment :
    '\x1b' ∉ ": sq ( n ) DUP * ; 1 .\" a\" \\ done".toList ∧
      erased (line ": sq ( n ) DUP * ; 1 .\" a\" \\ done").toList =
        ": sq ( n ) DUP * ; 1 .\" a\" \\ done".toList ∧
      Painted (pieces (line ": sq ( n ) DUP * ; 1 .\" a\" \\ done").toList) :=
  ⟨by decide, line_only_adds_colour _ (by decide)⟩

end ThreadedForth.Highlight
