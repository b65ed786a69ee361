import ThreadedForth.Proofs.Input.Reading

/-!
# Source text

Source is a sequence of items with blanks between them.  Most items are single tokens; a quotation
is a token that reads on, up to the next double quote.  `Spells` says which texts are ways to write
a sequence of items, and `Delivers` says what the machine notices of it: which items it reads, one
after the other, before the input ends.
-/

namespace ThreadedForth

/-- A piece of source. -/
inductive Item where
  | token (text : String)
  /-- `S" text"` -/
  | string (text : String)
  /-- `." text"` -/
  | print (text : String)
  deriving DecidableEq

namespace Item

/-- How an item is written. -/
def chars : Item → List Char
  | token text => text.toList
  | string text => 'S' :: '"' :: ' ' :: (text.toList ++ ['"'])
  | print text => '.' :: '"' :: ' ' :: (text.toList ++ ['"'])

/-- A token has no blanks and is not empty, and a quotation has no double quote in it. -/
def IsWritable : Item → Prop
  | token text => text.toList ≠ [] ∧ ∀ c ∈ text.toList, Text.isBlank c = false
  | string text | print text => '"' ∉ text.toList

instance : DecidablePred IsWritable
  | token text =>
    have : Decidable (∀ c ∈ text.toList, Text.isBlank c = false) := List.decidableBAll _ _
    inferInstanceAs (Decidable (text.toList ≠ [] ∧ ∀ c ∈ text.toList, Text.isBlank c = false))
  | string text | print text => inferInstanceAs (Decidable ('"' ∉ text.toList))

/-- The item is what comes next in the input. -/
inductive IsNext : Item → Input → Input → Prop
  | token {text input rest} (h : input.readToken = (some text, rest)) :
      IsNext (.token text) input rest
  | string {text input middle rest} (h : input.readToken = (some "S\"", middle))
      (htext : middle.readText '"' = (some text, rest)) : IsNext (.string text) input rest
  | print {text input middle rest} (h : input.readToken = (some ".\"", middle))
      (htext : middle.readText '"' = (some text, rest)) : IsNext (.print text) input rest

end Item

/-- The text is a way to write the items: there are blanks between them, and there may be some
before and after them. -/
inductive Spells : List Item → List Char → Prop
  | nil {blanks : List Char} (hblanks : ∀ c ∈ blanks, Text.isBlank c = true) : Spells [] blanks
  | cons {item : Item} {items : List Item} {blanks rest : List Char}
      (hblanks : ∀ c ∈ blanks, Text.isBlank c = true) (hitem : item.IsWritable)
      (hgap : ∀ c ∈ rest.head?, Text.isBlank c = true) (hrest : Spells items rest) :
      Spells (item :: items) (blanks ++ item.chars ++ rest)

namespace Input

/-- The items are read one after the other, and this is what is left of the input then. -/
inductive Delivers : Input → List Item → Input → Prop
  | nil {input : Input} : Delivers input [] input
  | cons {input middle rest : Input} {item : Item} {items : List Item}
      (hitem : item.IsNext input middle) (hitems : Delivers middle items rest) :
      Delivers input (item :: items) rest

theorem delivers_cons {input rest : Input} {item : Item} {items : List Item}
    (h : input.Delivers (item :: items) rest) :
    ∃ middle, item.IsNext input middle ∧ middle.Delivers items rest := by
  cases h with
  | cons hitem hitems => exact ⟨_, hitem, hitems⟩

theorem delivers_append {input rest : Input} {first second : List Item}
    (h : input.Delivers (first ++ second) rest) :
    ∃ middle, input.Delivers first middle ∧ middle.Delivers second rest := by
  induction first generalizing input with
  | nil => exact ⟨input, .nil, h⟩
  | cons item first ih =>
      obtain ⟨between, hitem, hitems⟩ := delivers_cons h
      obtain ⟨middle, hfirst, hsecond⟩ := ih hitems
      exact ⟨middle, .cons hitem hfirst, hsecond⟩

/-! ## Reading from a text -/

section Texts

variable (ended : Bool) {blanks ink rest : List Char} {c : Char}

theorem skipBlanks_text (hblanks : ∀ b ∈ blanks, Text.isBlank b = true)
    (hc : Text.isBlank c = false) :
    (text ⟨blanks ++ c :: rest, ended⟩).skipBlanks =
      (some c, text ⟨rest, decide (c = '\n')⟩) := by
  induction blanks generalizing ended with
  | nil =>
      rw [skipBlanks]
      simp [next, TextInput.next, hc]
  | cons blank blanks ih =>
      have hblank : Text.isBlank blank = true := hblanks blank (List.mem_cons_self ..)
      have hrest := ih (decide (blank = '\n')) fun b hb => hblanks b (List.mem_cons_of_mem _ hb)
      rw [skipBlanks]
      simp [next, TextInput.next, hblank, hrest]

theorem skipBlanks_text_end (hblanks : ∀ b ∈ blanks, Text.isBlank b = true) :
    ∃ ended', (text ⟨blanks, ended⟩).skipBlanks = (none, text ⟨[], ended'⟩) := by
  induction blanks generalizing ended with
  | nil =>
      refine ⟨ended, ?_⟩
      rw [skipBlanks]
      simp [next, TextInput.next]
  | cons blank blanks ih =>
      have hblank : Text.isBlank blank = true := hblanks blank (List.mem_cons_self ..)
      obtain ⟨ended', hrest⟩ := ih (decide (blank = '\n'))
        fun b hb => hblanks b (List.mem_cons_of_mem _ hb)
      refine ⟨ended', ?_⟩
      rw [skipBlanks]
      simp [next, TextInput.next, hblank, hrest]

/-- Ink is read together with the blank behind it, which may end the line. -/
theorem readInk_text (token : List Char) (hink : ∀ d ∈ ink, Text.isBlank d = false)
    (hgap : ∀ d ∈ rest.head?, Text.isBlank d = true) :
    ∃ ended', (∀ d ∈ rest.head?, ended' = decide (d = '\n')) ∧
      (text ⟨ink ++ rest, ended⟩).readInk token =
        (ink.reverse ++ token, text ⟨rest.tail, ended'⟩) := by
  induction ink generalizing ended token with
  | nil =>
      rw [readInk]
      cases rest with
      | nil => exact ⟨ended, by simp, by simp [next, TextInput.next]⟩
      | cons blank rest =>
          have hblank : Text.isBlank blank = true := hgap blank rfl
          exact ⟨decide (blank = '\n'), by simp, by simp [next, TextInput.next, hblank]⟩
  | cons d ink ih =>
      have hd : Text.isBlank d = false := hink d (List.mem_cons_self ..)
      obtain ⟨ended', hended, hrest⟩ := @ih (decide (d = '\n')) (d :: token)
        fun e he => hink e (List.mem_cons_of_mem _ he)
      refine ⟨ended', hended, ?_⟩
      rw [readInk]
      simp [next, TextInput.next, hd, hrest]

theorem collectBefore_text {delimiter : Char} {before : List Char} (hink : delimiter ∉ ink) :
    (text ⟨ink ++ delimiter :: rest, ended⟩).collectBefore delimiter before =
      (some (ink.reverse ++ before), text ⟨rest, decide (delimiter = '\n')⟩) := by
  induction ink generalizing ended before with
  | nil =>
      rw [collectBefore]
      simp [next, TextInput.next]
  | cons d ink ih =>
      rw [List.mem_cons, not_or] at hink
      have hrest := @ih (decide (d = '\n')) (d :: before) hink.2
      rw [collectBefore]
      simp [next, TextInput.next, Ne.symm hink.1, hrest]

theorem collectBefore_text_end {delimiter : Char} {before : List Char} (hink : delimiter ∉ ink) :
    ∃ ended', (text ⟨ink, ended⟩).collectBefore delimiter before = (none, text ⟨[], ended'⟩) := by
  induction ink generalizing ended before with
  | nil =>
      refine ⟨ended, ?_⟩
      rw [collectBefore]
      simp [next, TextInput.next]
  | cons d ink ih =>
      rw [List.mem_cons, not_or] at hink
      obtain ⟨ended', hrest⟩ := @ih (decide (d = '\n')) (d :: before) hink.2
      refine ⟨ended', ?_⟩
      rw [collectBefore]
      simp [next, TextInput.next, Ne.symm hink.1, hrest]

theorem readToken_text (hblanks : ∀ b ∈ blanks, Text.isBlank b = true) (hne : ink ≠ [])
    (hink : ∀ d ∈ ink, Text.isBlank d = false) (hgap : ∀ d ∈ rest.head?, Text.isBlank d = true) :
    ∃ ended', (∀ d ∈ rest.head?, ended' = decide (d = '\n')) ∧
      (text ⟨blanks ++ (ink ++ rest), ended⟩).readToken =
        (some (String.ofList ink), text ⟨rest.tail, ended'⟩) := by
  obtain ⟨first, ink, rfl⟩ := List.exists_cons_of_ne_nil hne
  have hfirst : Text.isBlank first = false := hink first (List.mem_cons_self ..)
  have hrest : ∀ d ∈ ink, Text.isBlank d = false := fun d hd => hink d (List.mem_cons_of_mem _ hd)
  have hskip := @skipBlanks_text ended blanks (ink ++ rest) first hblanks hfirst
  obtain ⟨ended', hended, hread⟩ := readInk_text (decide (first = '\n')) [first] hrest hgap
  refine ⟨ended', hended, ?_⟩
  rw [readToken, List.cons_append, hskip]
  simp only [hread]
  simp

theorem readText_text {delimiter : Char} (hink : delimiter ∉ ink) :
    (text ⟨ink ++ delimiter :: rest, ended⟩).readText delimiter =
      (some (String.ofList ink), text ⟨rest, decide (delimiter = '\n')⟩) := by
  rw [readText, collectBefore_text ended hink]
  simp

theorem readText_text_end {delimiter : Char} (hink : delimiter ∉ ink) :
    ((text ⟨ink, ended⟩).readText delimiter).1 = none := by
  obtain ⟨ended', hcollect⟩ := @collectBefore_text_end ended ink delimiter [] hink
  rw [readText, hcollect]
  rfl

/-- A token that opens a quotation, and the quotation. -/
theorem readQuotation_text {quoted : String} (hblanks : ∀ b ∈ blanks, Text.isBlank b = true)
    (hne : ink ≠ []) (hink : ∀ d ∈ ink, Text.isBlank d = false) (hquoted : '"' ∉ quoted.toList) :
    ∃ middle,
      (text ⟨blanks ++ (ink ++ ' ' :: (quoted.toList ++ '"' :: rest)), ended⟩).readToken =
        (some (String.ofList ink), middle) ∧
      middle.readText '"' = (some quoted, text ⟨rest, false⟩) := by
  have hgap : ∀ d ∈ (' ' :: (quoted.toList ++ '"' :: rest)).head?, Text.isBlank d = true := by
    simp only [List.head?_cons, Option.mem_some, forall_eq']
    decide
  obtain ⟨between, -, hread⟩ := readToken_text ended hblanks hne hink hgap
  have htext := @readText_text between quoted.toList rest _ hquoted
  rw [String.ofList_toList] at htext
  exact ⟨_, hread, htext⟩

end Texts

end Input

/-! ## Texts that spell items -/

theorem Item.head_chars {item : Item} (h : item.IsWritable) :
    ∃ c rest, item.chars = c :: rest ∧ Text.isBlank c = false := by
  cases item with
  | token text =>
      obtain ⟨c, rest, hchars⟩ := List.exists_cons_of_ne_nil h.1
      exact ⟨c, rest, hchars, h.2 c (by rw [hchars]; exact List.mem_cons_self ..)⟩
  | string text => exact ⟨'S', _, rfl, by decide⟩
  | print text => exact ⟨'.', _, rfl, by decide⟩

/-- There may be one more blank before the items. -/
theorem Spells.cons_blank {items : List Item} {chars : List Char} (h : Spells items chars)
    {blank : Char} (hblank : Text.isBlank blank = true) : Spells items (blank :: chars) := by
  cases h with
  | nil hblanks => exact .nil (List.forall_mem_cons.mpr ⟨hblank, hblanks⟩)
  | cons hblanks hitem hgap hrest =>
      exact .cons (List.forall_mem_cons.mpr ⟨hblank, hblanks⟩) hitem hgap hrest

/-- Items with one blank after each spell themselves. -/
theorem spells_separated {items : List Item} (h : ∀ item ∈ items, item.IsWritable) :
    Spells items (items.flatMap fun item => item.chars ++ [' ']) := by
  induction items with
  | nil => exact .nil fun c hc => by cases hc
  | cons item items ih =>
      obtain ⟨hitem, hitems⟩ := List.forall_mem_cons.mp h
      have hblank : Text.isBlank ' ' = true := by decide
      have hgap : ∀ c ∈ (' ' :: items.flatMap fun item => item.chars ++ [' ']).head?,
          Text.isBlank c = true := by
        rintro c ⟨⟩
        exact hblank
      have hspells : Spells (item :: items)
          ([] ++ item.chars ++ ' ' :: items.flatMap fun item => item.chars ++ [' ']) :=
        .cons (fun c hc => by cases hc) hitem hgap ((ih hitems).cons_blank hblank)
      simpa using hspells

/-- A blank before the items may as well be missing. -/
theorem Spells.tail {items : List Item} {chars : List Char} (h : Spells items chars)
    (hblank : ∀ c ∈ chars.head?, Text.isBlank c = true) : Spells items chars.tail := by
  cases h with
  | nil hblanks => exact .nil fun c hc => hblanks c (List.mem_of_mem_tail hc)
  | @cons item items blanks rest hblanks hitem hgap hrest =>
      cases blanks with
      | nil =>
          -- an item does not begin with a blank
          obtain ⟨c, more, hchars, hc⟩ := Item.head_chars hitem
          have hc' : Text.isBlank c = true := hblank c (by rw [hchars]; rfl)
          rw [hc] at hc'
          cases hc'
      | cons blank blanks =>
          exact .cons (fun c hc => hblanks c (List.mem_cons_of_mem _ hc)) hitem hgap hrest

/-- A text that begins with an item delivers it. -/
theorem Item.isNext_text {item : Item} {blanks rest : List Char} (ended : Bool)
    (hblanks : ∀ c ∈ blanks, Text.isBlank c = true) (hitem : item.IsWritable)
    (hgap : ∀ c ∈ rest.head?, Text.isBlank c = true) :
    ∃ after ended', (after = rest ∨ after = rest.tail) ∧
      item.IsNext (.text ⟨blanks ++ item.chars ++ rest, ended⟩) (.text ⟨after, ended'⟩) := by
  rw [List.append_assoc]
  cases item with
  | token text =>
      obtain ⟨ended', -, hread⟩ := Input.readToken_text ended hblanks hitem.1 hitem.2 hgap
      rw [String.ofList_toList] at hread
      exact ⟨rest.tail, ended', .inr rfl, .token hread⟩
  | string text =>
      have hink : ∀ c ∈ ['S', '"'], Text.isBlank c = false :=
        List.forall_mem_cons.mpr ⟨by decide, List.forall_mem_singleton.mpr (by decide)⟩
      obtain ⟨middle, hread, htext⟩ :=
        Input.readQuotation_text ended hblanks (List.cons_ne_nil _ _) hink hitem
      refine ⟨rest, false, .inl rfl, .string ?_ htext⟩
      simpa [chars] using hread
  | print text =>
      have hink : ∀ c ∈ ['.', '"'], Text.isBlank c = false :=
        List.forall_mem_cons.mpr ⟨by decide, List.forall_mem_singleton.mpr (by decide)⟩
      obtain ⟨middle, hread, htext⟩ :=
        Input.readQuotation_text ended hblanks (List.cons_ne_nil _ _) hink hitem
      refine ⟨rest, false, .inl rfl, .print ?_ htext⟩
      simpa [chars] using hread

/-- A text that spells items delivers them and nothing else. -/
theorem Spells.delivers {items : List Item} {chars : List Char} (h : Spells items chars)
    (ended : Bool) : ∃ rest last, (Input.text ⟨chars, ended⟩).Delivers items rest ∧
      rest.readToken = (none, last) := by
  induction items generalizing chars ended with
  | nil =>
      cases h with
      | nil hblanks =>
          obtain ⟨ended', hskip⟩ := Input.skipBlanks_text_end ended hblanks
          refine ⟨_, .text ⟨[], ended'⟩, .nil, ?_⟩
          rw [Input.readToken, hskip]
  | cons item items ih =>
      cases h with
      | @cons _ _ blanks after hblanks hitem hgap hafter =>
          obtain ⟨next, ended', hnext, hread⟩ := Item.isNext_text ended hblanks hitem hgap
          have hspells : Spells items next := by
            rcases hnext with rfl | rfl
            · exact hafter
            · exact hafter.tail hgap
          obtain ⟨rest, last, hdelivers, hend⟩ := ih hspells ended'
          exact ⟨rest, last, .cons hread hdelivers, hend⟩

/-- If the last item is a token, then it is read when the others were delivered. -/
theorem Spells.delivers_last {items : List Item} {token source : String}
    (h : Spells (items ++ [.token token]) source.toList) :
    ∃ rest last, (Input.ofString source).Delivers items rest ∧
      rest.readToken = (some token, last) := by
  obtain ⟨_, _, hdelivers, -⟩ := h.delivers false
  obtain ⟨rest, hbody, hlast⟩ := Input.delivers_append hdelivers
  obtain ⟨last, ⟨hread⟩, -⟩ := Input.delivers_cons hlast
  exact ⟨rest, last, hbody, hread⟩

end ThreadedForth
