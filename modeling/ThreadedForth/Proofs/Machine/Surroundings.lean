import ThreadedForth.Machine.State

/-!
# What a machine lives in

The input, the output and the order in which the dictionary goes through its names are the
`Surroundings` of a machine.  Most words pay no attention to them.  The others find out about them
in few ways: they read the input, and mostly they insist on what they read, and they write texts,
one of which lists names in the order of the dictionary.

A relation between surroundings `IsKept` if no word can tell them apart in any of these ways, unless
it fails in the first ones for a reason that excuses the second ones.  One such relation is
`Refusing`: the first sink takes nothing, and that excuses the second machine.  So a run that never
writes shows what it does wherever the machine lives.
-/

namespace ThreadedForth

/-- What most words pay no attention to. -/
structure Surroundings where
  input : Input
  output : Output
  /-- In what order names are listed. -/
  order : NameOrder

namespace State

/-- The state lives in these surroundings. -/
def surroundings (s : State) : Surroundings := ⟨s.input, s.output, s.dictionary.order⟩

/-- The same state in other surroundings. -/
def within (s : State) (around : Surroundings) : State :=
  { s with
    input := around.input
    output := around.output
    dictionary := { s.dictionary with order := around.order } }

@[simp] theorem surroundings_within (s : State) (around : Surroundings) :
    (s.within around).surroundings = around := rfl

@[simp] theorem memory_within (s : State) (around : Surroundings) :
    (s.within around).memory = s.memory := rfl

@[simp] theorem within_surroundings (s : State) : s.within s.surroundings = s := rfl

end State

/-! ## Finding out about them -/

/-- The readings of the input that words insist on. -/
inductive Insisted : {α : Type} → (Input → Option α × Input) → Prop
  | char : Insisted Input.next
  | token : Insisted Input.readToken
  | text (delimiter : Char) : Insisted (Input.readText delimiter)

/-- What a sink has after a text, which it may have refused. -/
def Output.print (output : Output) (text : String) : Output :=
  match output.write text with
  | .ok output => output
  | .error _ => output

/-- The names of a dictionary in some order. -/
def Dictionary.listing (dictionary : Dictionary) (order : NameOrder) : String :=
  " ".intercalate { dictionary with order }.visibleNames

namespace Surroundings

section Keeping

variable (related : Surroundings → Surroundings → Prop) (excused : Cause → Prop)

/-- Writing fails in the first surroundings for a reason that excuses the second ones, or it comes
to the same in both. -/
def Agree (around other : Surroundings) : Except Cause Output → Except Cause Output → Prop
  | .error cause, result => excused cause ∨ result = .error cause
  | .ok output, result => ∃ output', result = .ok output' ∧
      related { around with output } { other with output := output' }

/-- Whatever a word can find out about its surroundings it finds in the second ones as well as in
the first ones, and then the two are related as before. -/
structure IsKept : Prop where
  insisted : ∀ ⦃α : Type⦄ ⦃reading : Input → Option α × Input⦄, Insisted reading →
    ∀ ⦃around other⦄, related around other →
      (reading around.input).1 = none ∧ excused .endOfInput ∨
      (reading other.input).1 = (reading around.input).1 ∧
        related { around with input := (reading around.input).2 }
          { other with input := (reading other.input).2 }
  dropLine : ∀ ⦃around other⦄, related around other →
    related { around with input := around.input.dropLine }
      { other with input := other.input.dropLine }
  write : ∀ ⦃around other⦄, related around other → ∀ text,
    Agree related excused around other (around.output.write text) (other.output.write text)
  names : ∀ ⦃around other⦄, related around other → ∀ dictionary : Dictionary,
    Agree related excused around other (around.output.write (dictionary.listing around.order))
      (other.output.write (dictionary.listing other.order))
  print : ∀ ⦃around other⦄, related around other → ∀ text,
    related { around with output := around.output.print text }
      { other with output := other.output.print text }

end Keeping

/-! ## A sink that takes nothing -/

/-- The inputs are the same, and the first sink takes nothing. -/
def Refusing (order : NameOrder) (around other : Surroundings) : Prop :=
  around.output.allowance = some 0 ∧ other.input = around.input ∧ other.order = order

theorem write_of_refusing {output : Output} (h : output.allowance = some 0) (text : String) :
    output.write text = .error (.io "sink closed") := by
  rw [Output.write, h]
  rfl

/-- Whatever the first machine cannot write excuses the second one. -/
theorem isKept_refusing {order : NameOrder} :
    IsKept (Refusing order) (· = .io "sink closed") where
  insisted := by
    rintro α reading - around other ⟨hsink, hinput, horder⟩
    rw [hinput]
    exact .inr ⟨rfl, hsink, rfl, horder⟩
  dropLine := by
    rintro around other ⟨hsink, hinput, horder⟩
    rw [hinput]
    exact ⟨hsink, rfl, horder⟩
  write := by
    rintro around other ⟨hsink, -⟩ text
    rw [write_of_refusing hsink]
    exact .inl rfl
  names := by
    rintro around other ⟨hsink, -⟩ dictionary
    rw [write_of_refusing hsink]
    exact .inl rfl
  print := by
    rintro around other ⟨hsink, hinput, horder⟩ text
    refine ⟨?_, hinput, horder⟩
    rw [Output.print, write_of_refusing hsink]
    exact hsink

end Surroundings

end ThreadedForth
