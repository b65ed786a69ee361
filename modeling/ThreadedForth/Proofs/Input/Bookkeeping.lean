import Mathlib.Data.List.Forall2
import ThreadedForth.Proofs.Input.Joined
import ThreadedForth.Proofs.Input.Supply

/-!
# What an editor remembers

Whoever reads from a line editor keeps its books: which lines were read, and which names they
define.  Lines are read when a reader runs out of characters, in the middle of whatever the reader
is doing, and what is left of a line may be dropped later; the books do not care.  After any calls
they are what the lines read so far say, and these are the lines among the first so many things that
the user did.

A line is entered when it is read, so a reader who moves on moves the books on by the lines that it
reads on its way (`EditorInput.Moves`).
-/

namespace ThreadedForth

/-! ## The names in a line -/

/-- The names that a left-to-right scan of tokens finds: a defining word is followed by a name,
which is not looked at again, and a defining word at the end has none. -/
inductive Names : List String → List String → Prop
  | nil : Names [] []
  | skip {word : String} {rest names : List String} (hword : word.toUpper ∉ definingWords)
      (hrest : Names rest names) : Names (word :: rest) names
  | define {word name : String} {rest names : List String} (hword : word.toUpper ∈ definingWords)
      (hrest : Names rest names) : Names (word :: name :: rest) (name.toUpper :: names)
  | last {word : String} (hword : word.toUpper ∈ definingWords) : Names [word] []

theorem names_definedNames (tokens : List String) : Names tokens (definedNames tokens) := by
  fun_induction definedNames tokens with
  | case1 word name rest hword ih => exact .define hword ih
  | case2 word name rest hword ih => exact .skip hword ih
  | case3 tokens hshort =>
      rcases tokens with _ | ⟨word, _ | ⟨name, rest⟩⟩
      · exact .nil
      · by_cases hword : word.toUpper ∈ definingWords
        · exact .last hword
        · exact .skip hword .nil
      · exact absurd rfl (hshort word name rest)

/-- The scan finds one list of names only. -/
theorem Names.eq_definedNames {tokens names : List String} (h : Names tokens names) :
    names = definedNames tokens := by
  induction h with
  | nil => rfl
  | @skip word rest names hword _ ih =>
      cases rest with
      | nil => exact ih
      | cons name rest => rw [definedNames, if_neg hword, ih]
  | define hword _ ih => rw [definedNames, if_pos hword, ih]
  | last => rfl

/-- The names that a line defines. -/
def lineNames (line : String) : List String := definedNames (Text.tokens line.toList)

/-! ## Names that are known -/

section Known

variable {known : Array String} {names : List String} {name : String}

theorem addNew_cons_of_mem (h : name ∈ known) :
    addNew known (name :: names) = addNew known names := by
  simp [addNew, h]

theorem addNew_cons_of_not_mem (h : name ∉ known) :
    addNew known (name :: names) = addNew (known.push name) names := by
  simp [addNew, h]

theorem addNew_append (known : Array String) (first second : List String) :
    addNew known (first ++ second) = addNew (addNew known first) second :=
  List.foldl_append

/-- New names go behind the known ones, in order of their first occurrence. -/
theorem toList_addNew (known : Array String) (names : List String) :
    (addNew known names).toList =
      known.toList ++ (names.filter (· ∉ known.toList)).eraseDups := by
  induction names generalizing known with
  | nil => simp [addNew]
  | cons name names ih =>
      by_cases hname : name ∈ known
      · rw [addNew_cons_of_mem hname, ih, List.filter_cons_of_neg (by simpa using hname)]
      · have hlater : (names.filter (· ∉ (known.push name).toList)) =
            (names.filter (· ∉ known.toList)).filter fun later => !(later == name) := by
          rw [List.filter_filter]
          refine List.filter_congr fun later _ => ?_
          rw [Bool.eq_iff_iff]
          simp [and_comm]
        rw [addNew_cons_of_not_mem hname, ih, List.filter_cons_of_pos (by simpa using hname),
          List.eraseDups_cons, hlater, Array.toList_push, List.append_assoc, List.singleton_append]

/-- Whether a list of names grew is seen from its length. -/
theorem addNew_of_size (h : (addNew known names).size = known.size) :
    addNew known names = known := by
  have hlist := toList_addNew known names
  have hlength := congrArg List.length hlist
  rw [List.length_append, Array.length_toList, Array.length_toList] at hlength
  have hnil : (names.filter (· ∉ known.toList)).eraseDups = [] :=
    List.length_eq_zero_iff.mp (by omega)
  rw [hnil, List.append_nil] at hlist
  exact Array.toList_inj.mp hlist

end Known

/-! ## Books -/

/-- The line that is typed, if one is. -/
def Keystroke.line? : Keystroke → Option String
  | .line text => some text
  | .interrupt | .endOfFile | .failure => none

/-- A line that goes into the history. -/
def isWritten (line : String) : Bool := !line.toList.all Text.isBlank

/-- The lines among the next few things that the user does. -/
def LineEditor.linesRead (editor : LineEditor) (count : Nat) : List String :=
  (editor.script.take count).filterMap Keystroke.line?

theorem LineEditor.Reads.linesRead {first second : LineEditor} {count : Nat}
    (h : first.Reads count second) (more : Nat) :
    first.linesRead (count + more) = first.linesRead count ++ second.linesRead more := by
  rw [LineEditor.linesRead, LineEditor.linesRead, LineEditor.linesRead, h.script, List.take_add,
    List.filterMap_append]

namespace EditorInput

/-- The books of an input that began with some known words and has read these lines. -/
structure Books (known : Array String) (lines : List String) (input : EditorInput) : Prop where
  history : input.editor.history.toList = lines.filter isWritten
  keywords : input.keywords = addNew known (lines.flatMap lineNames)
  offered : input.editor.offered = input.keywords

variable {known : Array String} {lines : List String} {input middle after : EditorInput}

theorem history_accept (input : EditorInput) (line : String) :
    (input.accept line).editor.history.toList =
      input.editor.history.toList ++ [line].filter isWritten := by
  by_cases hblank : line.toList.all Text.isBlank = true
  · simp only [accept, LineEditor.offer, if_pos hblank]
    split <;> simp [isWritten, hblank]
  · simp only [accept, LineEditor.offer, LineEditor.remember, if_neg hblank]
    split <;> simp [isWritten, hblank]

theorem keywords_accept (input : EditorInput) (line : String) :
    (input.accept line).keywords = addNew input.keywords (lineNames line) := rfl

/-- The editor is told of the known words when there are new ones, and so it has heard of all. -/
theorem offered_accept (line : String) (h : input.editor.offered = input.keywords) :
    (input.accept line).editor.offered = (input.accept line).keywords := by
  rw [keywords_accept, lineNames]
  by_cases hsize : (addNew input.keywords (definedNames (Text.tokens line.toList))).size =
      input.keywords.size
  · have hkept : (input.accept line).editor.offered = input.editor.offered := by
      simp only [accept, LineEditor.remember, if_pos hsize]
      split <;> rfl
    rw [hkept, h, addNew_of_size hsize]
  · simp only [accept, LineEditor.offer, if_neg hsize]

theorem Books.accept (h : Books known lines input) (line : String) :
    Books known (lines ++ [line]) (input.accept line) where
  history := by rw [history_accept, h.history, List.filter_append]
  keywords := by
    rw [keywords_accept, h.keywords, ← addNew_append, List.flatMap_append, List.flatMap_singleton]
  offered := offered_accept line h.offered

/-- Reading on: so many things that the user does are read, and the lines among them are entered. -/
structure Moves (input : EditorInput) (count : Nat) (after : EditorInput) : Prop where
  reads : input.editor.Reads count after.editor
  books : ∀ {known : Array String} {lines : List String}, Books known lines input →
    Books known (lines ++ input.editor.linesRead count) after

theorem Moves.zero (heditor : after.editor = input.editor)
    (hkeywords : after.keywords = input.keywords) : Moves input 0 after where
  reads := .zero (congrArg LineEditor.prompts heditor) (congrArg LineEditor.script heditor)
  books {known lines} h := by
    have hlines : input.editor.linesRead 0 = [] := rfl
    rw [hlines, List.append_nil]
    exact ⟨by rw [heditor, h.history], by rw [hkeywords, h.keywords],
      by rw [heditor, hkeywords, h.offered]⟩

theorem Moves.trans {count more : Nat} (h : Moves input count middle)
    (h' : Moves middle more after) : Moves input (count + more) after where
  reads := h.reads.trans h'.reads
  books hbooks := by
    rw [h.reads.linesRead, ← List.append_assoc]
    exact h'.books (h.books hbooks)

/-- Asking for another line is one thing read. -/
theorem moves_refill (input : EditorInput) : Moves input 1 input.refill := by
  refine ⟨input.refill_cases.1, fun {known lines} h => ?_⟩
  rcases hscript : input.editor.script with _ | ⟨text | _ | _ | _, script⟩
  case cons.line =>
    have hlines : input.editor.linesRead 1 = [text] := by
      simp [LineEditor.linesRead, hscript, Keystroke.line?]
    have hread : Books known lines
        { input with editor := (input.editor.read input.prompt).2 } := by
      simp only [LineEditor.read, hscript]
      exact ⟨h.history, h.keywords, h.offered⟩
    have hrefill : input.refill =
        accept { input with editor := (input.editor.read input.prompt).2 } text := by
      simp [refill, LineEditor.read, hscript]
    rw [hlines, hrefill]
    exact hread.accept text
  all_goals
    -- No line was typed, and nothing else is entered.
    have hlines : input.editor.linesRead 1 = [] := by
      simp [LineEditor.linesRead, hscript, Keystroke.line?]
    rw [hlines, List.append_nil]
    simp only [refill, LineEditor.read, hscript]
    exact ⟨h.history, h.keywords, h.offered⟩

theorem moves_next (input : EditorInput) : ∃ count, Moves input count input.next.2 := by
  by_cases hline : input.line.isEmpty = true
  · refine ⟨1, ?_⟩
    rcases hfilled : input.refill.line with _ | ⟨c, line⟩
    · simpa [next, hline, hfilled] using input.moves_refill
    · have hdropped : Moves input.refill 0 { input.refill with line } := .zero rfl rfl
      simpa [next, hline, hfilled] using input.moves_refill.trans hdropped
  · refine ⟨0, .zero ?_ ?_⟩
    all_goals
      rcases hfilled : input.line with _ | ⟨c, line⟩ <;> simp [next, hfilled] at hline ⊢

end EditorInput

namespace Input

variable {source : EditorInput} {input rest : Input}

theorem Advances.exists_moves (h : input.Advances rest) (hinput : input = .editor source) :
    ∃ after count, rest = .editor after ∧ source.Moves count after := by
  induction h generalizing source with
  | refl => exact ⟨source, 0, hinput, .zero rfl rfl⟩
  | next _ ih =>
      subst hinput
      obtain ⟨count, hnext⟩ := source.moves_next
      obtain ⟨after, more, rfl, hlater⟩ := ih rfl
      exact ⟨after, count + more, rfl, hnext.trans hlater⟩

/-- A call reads on. -/
theorem exists_moves_answer (source : EditorInput) (call : Call) :
    ∃ after count, ((editor source).answer call).2 = .editor after ∧ source.Moves count after := by
  cases call with
  | char => exact (Advances.next (.refl _)).exists_moves rfl
  | token => exact (advances_readToken _).exists_moves rfl
  | text delimiter => exact (advances_readText delimiter _).exists_moves rfl
  | dropLine => exact ⟨source.dropLine, 0, rfl, .zero rfl rfl⟩

/-- What is left of an input after some calls. -/
def after (input : Input) (calls : List Call) : Input :=
  calls.foldl (fun input call => (input.answer call).2) input

theorem exists_moves_after (source : EditorInput) (calls : List Call) :
    ∃ rest count, (editor source).after calls = .editor rest ∧ source.Moves count rest := by
  induction calls generalizing source with
  | nil => exact ⟨source, 0, rfl, .zero rfl rfl⟩
  | cons call calls ih =>
      obtain ⟨middle, count, hmiddle, hfirst⟩ := exists_moves_answer source call
      obtain ⟨rest, more, hrest, hlater⟩ := ih middle
      refine ⟨rest, count + more, ?_, hfirst.trans hlater⟩
      rw [after, List.foldl_cons, hmiddle]
      exact hrest

/-- **The books say what was read.**  Whatever is called for, after it some of what the user does
has been read, and the history has the lines among it that are not blank, in order.  The known words
are those from the beginning, and then the names that the lines define, in order, each once and none
that was known before; and these words were offered to the user last. -/
theorem editor_keeps_books (script : List Keystroke) (prompt : String) (known : Array String)
    (calls : List Call) :
    ∃ source count names,
      (editor (EditorInput.knowing { editor := { script }, prompt } known)).after calls =
        editor source ∧
      LineEditor.Reads { script } count source.editor ∧
      source.editor.history.toList =
        (LineEditor.linesRead { script } count).filter isWritten ∧
      List.Forall₂ (fun line found => Names (Text.tokens line.toList) found)
        (LineEditor.linesRead { script } count) names ∧
      source.keywords.toList =
        known.toList ++ (names.flatten.filter (· ∉ known.toList)).eraseDups ∧
      source.editor.offered = source.keywords := by
  let start := EditorInput.knowing { editor := { script }, prompt } known
  have hbooks : EditorInput.Books known [] start := ⟨rfl, rfl, rfl⟩
  obtain ⟨source, count, hafter, hmoves⟩ := exists_moves_after start calls
  have hlines : start.editor.linesRead count = LineEditor.linesRead { script } count := rfl
  obtain ⟨hhistory, hkeywords, hoffered⟩ := hmoves.books hbooks
  rw [List.nil_append, hlines] at hhistory hkeywords
  refine ⟨source, count, (LineEditor.linesRead { script } count).map lineNames, hafter,
    ⟨hmoves.reads.prompts, hmoves.reads.script⟩, hhistory, ?_, ?_, hoffered⟩
  · rw [List.forall₂_map_right_iff]
    exact List.forall₂_same.mpr fun line _ => names_definedNames _
  · rw [hkeywords, toList_addNew, List.flatMap_def]

end Input

end ThreadedForth
