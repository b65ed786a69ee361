import ThreadedForth.Proofs.Decompile.Bounds
import ThreadedForth.Proofs.Input.Source
import ThreadedForth.Proofs.Machine.Installing
import ThreadedForth.Proofs.Memory.Layout

/-!
# The listing of a definition

The body of a definition without branches is a row of calls and literals, and `Instruction` is one
of these.  The scan finds where each instruction begins, since none of them is a return and only a
literal has an operand; so such a definition is shown as its instructions, one item for each,
between `:` and `;`.

The listing is also read as these items again, if they are what source can be made of
(`spells_listing`).
-/

namespace ThreadedForth

/-- What the body of a definition without branches is made of. -/
inductive Instruction where
  | call (address : Address)
  | literal (v : Value)
  deriving DecidableEq

namespace Instruction

/-- The cells of an instruction. -/
def cells : Instruction → List Cell
  | call address => [.reference address]
  | literal v => [.reference (kernelAddress "LIT"), .literal v]

/-- The instruction does not end the definition, and has no operand that it does not show. -/
def IsStraight : Instruction → Prop
  | call address => address ∉ ["EXIT", "LIT", "BRANCH", "0BRANCH"].map kernelAddress
  | literal _ => True

end Instruction

/-- The cells of a definition with that body. -/
def definitionCells (kernel : Kernel) (body : List Instruction) : List Cell :=
  .native kernel.docol :: body.flatMap Instruction.cells ++ [.reference (kernelAddress "EXIT")]

/-- What an instruction is shown as. -/
def State.itemOf (s : State) (base : Nat) : Instruction → Item
  | .call address => .token (s.nameOf address)
  | .literal (.string text) => .string text
  | .literal v => .token (State.source base v)

/-- An item as source. -/
def Item.text (item : Item) : String := String.ofList item.chars

/-- Items as source, with one blank between them. -/
def listing (items : List Item) : String := " ".intercalate (items.map Item.text)

/-- The items of a definition with a body, and of a mark behind it. -/
def definitionItems (name : String) (body : List Item) (immediate : Bool) : List Item :=
  .token ":" :: .token name :: body ++ [.token ";"] ++
    if immediate then [.token "IMMEDIATE"] else []

theorem length_definitionCells (kernel : Kernel) (body : List Instruction) :
    (definitionCells kernel body).length = (body.flatMap Instruction.cells).length + 2 := by
  simp [definitionCells]

/-- Without its last instruction a definition is no longer. -/
theorem length_definitionCells_dropLast_le (kernel : Kernel) (body : List Instruction) :
    (definitionCells kernel body.dropLast).length ≤ (definitionCells kernel body).length := by
  by_cases hne : body = []
  · rw [hne]
    exact Nat.le_refl _
  · have hcells := congrArg (List.flatMap Instruction.cells) (List.dropLast_concat_getLast hne)
    rw [length_definitionCells, length_definitionCells, ← hcells, List.flatMap_append,
      List.length_append]
    omega

/-! ## Reading a listing -/

@[simp] theorem Item.toList_text (item : Item) : item.text.toList = item.chars :=
  String.toList_ofList

@[simp] theorem Item.text_token (token : String) : (Item.token token).text = token :=
  String.ofList_toList

/-- The listing of a definition, put together from larger pieces. -/
theorem listing_definitionItems (name : String) (body : List Item) (immediate : Bool) :
    listing (definitionItems name body immediate) =
      " ".intercalate ([": " ++ name] ++ body.map Item.text ++
        [";" ++ if immediate then " IMMEDIATE" else ""]) := by
  have hcolon : ": " ++ name = ":" ++ " " ++ name := rfl
  have hbegin : ∀ rest : List String,
      " ".intercalate ((": " ++ name) :: rest) = " ".intercalate (":" :: name :: rest) := by
    intro rest
    rw [hcolon, String.intercalate_cons_append, String.intercalate_cons_cons]
  have hend : ∀ front : List String, front ≠ [] →
      " ".intercalate (front ++ [";" ++ " IMMEDIATE"]) =
        " ".intercalate (front ++ [";", "IMMEDIATE"]) := by
    intro front hfront
    rw [String.intercalate_append_of_ne_nil hfront (List.cons_ne_nil _ _),
      String.intercalate_append_of_ne_nil hfront (List.cons_ne_nil _ _)]
    rfl
  rw [listing, definitionItems, List.singleton_append, List.cons_append (a := ": " ++ name), hbegin]
  cases immediate
  · simp
  · have hmarked := hend (":" :: name :: body.map Item.text) (List.cons_ne_nil _ _)
    simpa using hmarked.symm

/-! ## Showing a definition -/

namespace State

section Listing

variable {s : State} {kernel : Kernel} {first base : Nat} {outerLoop here start past : Address}
variable {instruction : Instruction} {instructions : List Instruction} {entry : Entry}

/-- At its first cell an instruction does not end the body, and its size and its text are known. -/
theorem itemText_of_holds (hholds : s.memory.Holds start instruction.cells)
    (hstraight : instruction.IsStraight) (here : Int) (base : Nat) :
    s.closesBody (.ofLayout first outerLoop) here start.toInt = false ∧
      s.itemSize (.ofLayout first outerLoop) start.toInt = instruction.cells.length ∧
      s.itemText (.ofLayout first outerLoop) base start.toInt =
        (s.itemOf base instruction).text := by
  have hstart : Int64.ofInt start.toInt = start := Int64.ofInt_toInt _
  have hnext : Int64.ofInt (start.toInt + 1) = start + 1 := by
    rw [Int64.ofInt_add, hstart]
    rfl
  cases instruction with
  | call address =>
      simp only [Instruction.IsStraight, List.map_cons, List.map_nil, List.mem_cons,
        List.not_mem_nil, or_false, not_or] at hstraight
      obtain ⟨hexit, hlit, hbranch, hzeroBranch⟩ := hstraight
      have hcell : s.memory.get start = .reference address := hholds.1
      refine ⟨?_, ?_, ?_⟩
      · simp [closesBody, hstart, hcell, hexit]
      · simp [itemSize, Kernel.takesOperand, hstart, hcell, hlit, hbranch, hzeroBranch,
          Instruction.cells]
      · simp [itemText, hstart, hcell, hlit, hbranch, hzeroBranch, itemOf]
  | literal v =>
      have hcell : s.memory.get start = .reference (kernelAddress "LIT") := hholds.1
      have hvalue : s.memory.get (start + 1) = .literal v := hholds.2.1
      have hexit : kernelAddress "LIT" ≠ kernelAddress "EXIT" := by decide
      refine ⟨?_, ?_, ?_⟩
      · simp [closesBody, hstart, hcell, hexit]
      · simp [itemSize, hstart, hcell, Kernel.takesOperand, Instruction.cells]
      · simp only [itemText, hstart, hnext, hcell, hvalue, Kernel.ofLayout_lit, if_true]
        cases v with
        | string text =>
            rw [itemOf, source, ← String.toList_inj]
            simp [Item.chars]
        | int n => simp [itemOf]
        | float x => simp [itemOf]
        | char c => simp [itemOf]

/-- The scan finds the instructions of a body one by one, and nothing behind them, if `HERE` lies
behind the beginning of the last one and there is nothing but a word, if anything, behind the
return. -/
theorem exists_places (hlayout : kernel = .ofLayout first outerLoop)
    (hstraight : ∀ instruction ∈ instructions, instruction.IsStraight)
    (hholds : s.memory.Holds start
      (instructions.flatMap Instruction.cells ++ [.reference (kernelAddress "EXIT")]))
    (hpast : past.toInt = start.toInt + (instructions.flatMap Instruction.cells).length + 1)
    (hlast : instructions ≠ [] →
      start.toInt + (instructions.dropLast.flatMap Instruction.cells).length < here.toInt)
    (hended : here ≤ past ∨ s.dictionary.nameAt? past ≠ none)
    (base : Nat) (found : Array Int) :
    ∃ places : List Int,
      s.bodyItems kernel here.toInt start.toInt found = .ok (found ++ places.toArray) ∧
      places.map (s.itemText kernel base) =
        instructions.map fun instruction => (s.itemOf base instruction).text := by
  subst hlayout
  have hmost := past.toInt_le
  induction instructions generalizing start found with
  | nil =>
      have hcloses : s.closesBody (.ofLayout first outerLoop) here.toInt start.toInt = true := by
        have hcell : s.memory.get start = .reference (kernelAddress "EXIT") := hholds.1
        have hbehind : start.toInt + 1 = past.toInt := by simp at hpast; omega
        have hended' : here.toInt ≤ past.toInt ∨ (s.dictionary.nameAt? past).isSome = true :=
          hended.imp Int64.le_iff_toInt_le.mp Option.isSome_iff_ne_none.mpr
        simpa [closesBody, Int64.ofInt_toInt, hcell, hbehind] using hended'
      refine ⟨[], ?_, rfl⟩
      rw [bodyItems, if_neg (by simp [hcloses])]
      simp
  | cons instruction instructions ih =>
      obtain ⟨hfirst, hmore⟩ := List.forall_mem_cons.mp hstraight
      rw [List.flatMap_cons, List.append_assoc] at hholds
      rw [List.flatMap_cons, List.length_append] at hpast
      obtain ⟨hcells, hrest⟩ := Memory.holds_append.mp hholds
      obtain ⟨hopen, hsize, htext⟩ := itemText_of_holds hcells hfirst here.toInt base
      have hpositive := s.itemSize_pos (.ofLayout first outerLoop) start.toInt
      rw [hsize] at hpositive
      have hnext : (start + Int64.ofNat instruction.cells.length).toInt =
          start.toInt + instruction.cells.length := Address.toInt_add_ofNat (by omega)
      have hreach := hlast (List.cons_ne_nil _ _)
      have hlast' : instructions ≠ [] →
          (start + Int64.ofNat instruction.cells.length).toInt +
            (instructions.dropLast.flatMap Instruction.cells).length < here.toInt := by
        intro hne
        rw [List.dropLast_cons_of_ne_nil hne, List.flatMap_cons, List.length_append] at hreach
        omega
      obtain ⟨places, hplaces, htexts⟩ :=
        ih hmore hrest (by omega) hlast' (found.push start.toInt)
      refine ⟨start.toInt :: places, ?_, by rw [List.map_cons, List.map_cons, htext, htexts]⟩
      rw [bodyItems, if_pos ⟨by omega, hopen⟩, hsize, if_pos (by omega), ← hnext, hplaces]
      simp

/-- **A definition without branches is shown as its instructions**, as long as `HERE` lies behind
the beginning of the last one and there is nothing but a word, if anything, behind the
definition. -/
theorem decompile_ended (hkernel : s.kernel = .ok kernel)
    (hlayout : kernel = .ofLayout first outerLoop) (hbase : s.base = .ok base)
    (hhere : s.here = .ok here) (hstraight : ∀ instruction ∈ instructions, instruction.IsStraight)
    (hholds : s.memory.Holds entry.address (definitionCells kernel instructions))
    (hpast : past.toInt = entry.address.toInt + (definitionCells kernel instructions).length)
    (hlast : instructions ≠ [] →
      entry.address.toInt + (definitionCells kernel instructions.dropLast).length ≤ here.toInt)
    (hended : here ≤ past ∨ s.dictionary.nameAt? past ≠ none) :
    s.decompile entry = .ok (listing
      (definitionItems entry.name (instructions.map (s.itemOf base)) entry.immediate)) := by
  obtain ⟨hcodeword, hbody⟩ := hholds
  have hmost := past.toInt_le
  rw [length_definitionCells] at hpast
  obtain ⟨hmax, -⟩ | ⟨hnext, hfirst⟩ := entry.address.next_cases
  · rw [hmax] at hpast
    omega
  have hplace : past.toInt =
      (entry.address + 1).toInt + (instructions.flatMap Instruction.cells).length + 1 := by
    omega
  have hreach : instructions ≠ [] → (entry.address + 1).toInt +
      (instructions.dropLast.flatMap Instruction.cells).length < here.toInt := by
    intro hne
    have hbehind := hlast hne
    rw [length_definitionCells] at hbehind
    omega
  obtain ⟨places, hplaces, htexts⟩ :=
    exists_places hlayout hstraight hbody hplace hreach hended base #[]
  rw [decompile_definition hkernel hbase hhere hcodeword, hnext]
  change (s.bodyItems kernel here.toInt (entry.address + 1).toInt #[] >>= _) = _
  rw [hplaces]
  refine congrArg Except.ok ?_
  rw [listing_definitionItems, definitionSource, Array.toList_append, List.map_append, List.map_map]
  simp only [List.map_nil, List.nil_append, htexts]
  rfl

end Listing

end State

end ThreadedForth
