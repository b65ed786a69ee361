import ThreadedForth.Proofs.Decompile.Listing
import ThreadedForth.Proofs.Machine.AppendOnly
import ThreadedForth.Proofs.Machine.Naming

/-!
# How long a definition is shown the same

Nothing records where a definition ends.  It is shown up to a return with a word behind it, or with
nothing behind it before `HERE`, and so what a program does after a definition was made may change
what is shown of it.

A word that is defined behind it ends it for good: no address loses its first name, so from then on
it does not matter what else is compiled, or where `HERE` is moved, as long as the last instruction
begins below `HERE`.  It is another matter if something that is no word is put there.  Then it is
shown as if it were a part of the definition (`decompile_shows_what_follows`).
-/

namespace ThreadedForth

/-- The name means this entry, and at its address there is a definition with that body, which ends
right below another address. -/
structure State.HasDefinition (s : State) (kernel : Kernel) (name : String) (entry : Entry)
    (body : List Instruction) (past : Address) : Prop where
  found : s.dictionary.find? name = some entry
  cells : s.memory.Holds entry.address (definitionCells kernel body)
  ends : past.toInt = entry.address.toInt + (definitionCells kernel body).length

instance (s : State) (kernel : Kernel) (name : String) (entry : Entry) (body : List Instruction)
    (past : Address) : Decidable (s.HasDefinition kernel name entry body past) :=
  decidable_of_iff (s.dictionary.find? name = some entry ∧
      s.memory.Holds entry.address (definitionCells kernel body) ∧
      past.toInt = entry.address.toInt + (definitionCells kernel body).length)
    ⟨fun ⟨hfound, hcells, hends⟩ => ⟨hfound, hcells, hends⟩,
      fun h => ⟨h.found, h.cells, h.ends⟩⟩

/-- The source of what a name means, if it means something and can be shown. -/
def State.shown? (s : State) (name : String) : Option (Except Cause String) :=
  (s.dictionary.find? name).map s.decompile

section Lasting

variable {s t : State} {kernel : Kernel} {name : String} {entry : Entry}
variable {body : List Instruction} {past here : Address} {base first : Nat} {outerLoop : Address}

/-- Instructions are shown from the names of the words that they call. -/
theorem itemOf_congr {instruction : Instruction}
    (hnames : ∀ address, instruction = .call address →
      t.dictionary.nameAt? address = s.dictionary.nameAt? address) :
    t.itemOf base instruction = s.itemOf base instruction := by
  cases instruction with
  | call address => rw [State.itemOf, State.itemOf, State.nameOf, State.nameOf, hnames address rfl]
  | literal v => cases v <;> rfl

theorem State.HasDefinition.shown?_eq (h : s.HasDefinition kernel name entry body past)
    (hkernel : s.kernel? = some kernel) (hlayout : kernel = .ofLayout first outerLoop)
    (hbase : s.base = .ok base) (hhere : s.here = .ok here)
    (hstraight : ∀ instruction ∈ body, instruction.IsStraight)
    (hlast : body ≠ [] →
      entry.address.toInt + (definitionCells kernel body.dropLast).length ≤ here.toInt)
    (hended : here ≤ past ∨ s.dictionary.nameAt? past ≠ none) :
    s.shown? name = some (.ok (listing
      (definitionItems entry.name (body.map (s.itemOf base)) entry.immediate))) := by
  have hread : s.kernel = .ok kernel := by rw [State.kernel, hkernel]
  rw [State.shown?, h.found, Option.map_some,
    State.decompile_ended hread hlayout hbase hhere hstraight h.cells h.ends hlast hended]

end Lasting

/-- **A definition is shown the same as long as it can be told where it ends.**  Let a machine be
set up with any libraries whose words take no first name away, as those of the standard library do,
and let it make any number of steps on any sources.  Take a moment at which a straight definition
ends at `HERE`, as it does when it is just made, and a later one at which its name still means it,
its cells and the base are the same, and so are the names of the words that it calls.

If at the later moment the last instruction begins below `HERE`, and if either `HERE` is not above
the end of the definition, or there was a moment at which a word began right there, then at both
moments the name is shown as the same items.  So the text is the same, but for the mark. -/
theorem definition_stays_shown {fresh m : Machine} {libraries : List (List Primitive)}
    {kernel : Kernel} (hm : fresh.bootstrap libraries = .ok () m)
    (hkernel : m.state.kernel? = some kernel)
    (hwords : ∀ word ∈ fresh.primitives.toList ++ libraries.flatten,
      word ∈ vocabulary ∨ word.KeepsNames)
    {report : Bool} {trace : ℕ → State} {inputs : ℕ → Option Input} {n p i : ℕ}
    (hstart : (trace 0).kernel? = m.state.kernel?)
    (hmoves : ∀ i < n, trace (i + 1) = (trace i).move m.primitives kernel report (inputs i))
    (hpi : p ≤ i) (hi : i ≤ n)
    {name : String} {entry : Entry} {immediate hidden : Bool} {body : List Instruction}
    {past here : Address} {base : Nat}
    (hstraight : ∀ instruction ∈ body, instruction.IsStraight)
    (hmade : (trace p).HasDefinition kernel name entry body past) (hend : (trace p).here = .ok past)
    (hbase : (trace p).base = .ok base)
    (hkept : (trace i).HasDefinition kernel name { entry with immediate, hidden } body past)
    (hbase' : (trace i).base = .ok base)
    (hnames : ∀ address, .call address ∈ body →
      (trace i).dictionary.nameAt? address = (trace p).dictionary.nameAt? address)
    (hhere : (trace i).here = .ok here)
    (hlast : body ≠ [] →
      entry.address.toInt + (definitionCells kernel body.dropLast).length ≤ here.toInt)
    (hended : here ≤ past ∨ ∃ q ≤ i, (trace q).dictionary.nameAt? past ≠ none) :
    (trace p).shown? name = some (.ok (listing
        (definitionItems entry.name (body.map ((trace p).itemOf base)) entry.immediate))) ∧
      (trace i).shown? name = some (.ok (listing
        (definitionItems entry.name (body.map ((trace p).itemOf base)) immediate))) := by
  have hkeeps := keepsNames_of_bootstrap hm hwords
  have hknown := kernel?_of_moves (fun id word hword => (hkeeps id word hword).known)
    (hstart.trans hkernel) hmoves
  have hlayout : kernel = fresh.kernelWith libraries :=
    Option.some.inj (hkernel.symm.trans (kernel?_of_bootstrap hm))
  have hitems : body.map ((trace i).itemOf base) = body.map ((trace p).itemOf base) :=
    List.map_congr_left fun instruction hmem =>
      itemOf_congr fun address hcall => hnames address (hcall ▸ hmem)
  have hended' : here ≤ past ∨ (trace i).dictionary.nameAt? past ≠ none := by
    refine hended.imp_right ?_
    rintro ⟨q, hq, hnamed⟩
    obtain ⟨first, hfirst⟩ := Option.ne_none_iff_exists'.mp hnamed
    rw [nameAt?_of_moves hmoves hkeeps hq hi hfirst]
    exact Option.some_ne_none first
  have hreach : body ≠ [] →
      entry.address.toInt + (definitionCells kernel body.dropLast).length ≤ past.toInt := by
    have hshorter := length_definitionCells_dropLast_le kernel body
    have hends := hmade.ends
    omega
  refine ⟨hmade.shown?_eq (hknown p (by omega)) hlayout hbase hend hstraight hreach
    (.inl (Int64.le_refl past)), ?_⟩
  rw [hkept.shown?_eq (hknown i hi) hlayout hbase' hhere hstraight hlast hended', hitems]

/-- A variable behind the definition ends it, and what is compiled behind the variable is no part
of it. -/
def lastingSource : String := ": N 5 DUP ; VARIABLE X 7 ,"

def lastingTrace : ℕ → State := Machine.booted.state.course false (Input.once lastingSource)

theorem lastingTrace_spec :
    (∀ i ∈ [19, 39], (lastingTrace i).memory.Holds 219
        (definitionCells standardKernel [.literal (.int 5), .call 178]) ∧
      (lastingTrace i).base = .ok 10 ∧ (lastingTrace i).dictionary.nameAt? 178 = some "DUP" ∧
      (lastingTrace i).dictionary.find? "N" = some ⟨"N", 219, false, false⟩) ∧
    (lastingTrace 19).here = .ok 224 ∧ (lastingTrace 39).here = .ok 227 ∧
    (lastingTrace 39).memory.get 226 = .literal (.int 7) ∧
    (lastingTrace 25).dictionary.nameAt? 224 ≠ none := by
  decide +kernel

/-- The variable and the integer behind it are not shown. -/
theorem definition_stays_shown_variable :
    (lastingTrace 19).here = .ok 224 ∧ (lastingTrace 39).here = .ok 227 ∧
      (lastingTrace 39).memory.get 226 = .literal (.int 7) ∧
      (lastingTrace 19).shown? "N" = some (.ok ": N 5 DUP ;") ∧
      (lastingTrace 39).shown? "N" = some (.ok ": N 5 DUP ;") := by
  obtain ⟨hmoments, hmade, hlater, hseven, hvariable⟩ := lastingTrace_spec
  obtain ⟨hcells, hbase, hname, hfound⟩ := hmoments 19 (by decide)
  obtain ⟨hcells', hbase', hname', hfound'⟩ := hmoments 39 (by decide)
  have hstandard := isStandard_of_bootstrap rfl bootstrap_booted
  have hmoves : ∀ i < 39, lastingTrace (i + 1) =
      (lastingTrace i).move standardTable standardKernel false (Input.once lastingSource i) :=
    fun _ _ => rfl
  rw [← hstandard.primitives] at hmoves
  let body : List Instruction := [.literal (.int 5), .call 178]
  have hstraight : ∀ instruction ∈ body, instruction.IsStraight :=
    List.forall_mem_cons.mpr
      ⟨trivial, List.forall_mem_singleton.mpr fun hmem => absurd hmem (by decide)⟩
  have hnames : ∀ address, .call address ∈ body →
      (lastingTrace 39).dictionary.nameAt? address =
        (lastingTrace 19).dictionary.nameAt? address := by
    intro address hmem
    obtain rfl : address = 178 := by simpa [body] using hmem
    rw [hname, hname']
  have hitems : body.map ((lastingTrace 19).itemOf 10) =
      [.token (Numeral.write 10 5), .token "DUP"] := by
    simp [body, State.itemOf, State.nameOf, hname, State.source]
  have htext : listing (definitionItems "N" [.token (Numeral.write 10 5), .token "DUP"] false) =
      ": N 5 DUP ;" := by
    decide +kernel
  obtain ⟨hbefore, hafter⟩ := definition_stays_shown bootstrap_booted hstandard.kernel
    (fun word hword => .inl (List.mem_append_right _ (by simpa using hword))) rfl hmoves
    (show 19 ≤ 39 by decide) (Nat.le_refl 39) hstraight ⟨hfound, hcells, rfl⟩ hmade hbase
    ⟨hfound', hcells', rfl⟩ hbase' hnames hlater (fun _ => by decide)
    (.inr ⟨25, by decide, hvariable⟩)
  rw [hitems, htext] at hbefore hafter
  exact ⟨hmade, hlater, hseven, hbefore, hafter⟩

/-- In base ten `N` means a definition that calls `DUP`, and it is shown as that text. -/
def State.ShowsDup (s : State) (immediate : Bool) (text : String) : Prop :=
  s.HasDefinition standardKernel "N" ⟨"N", 219, immediate, false⟩ [.call 178] 222 ∧
    s.base = .ok 10 ∧
    s.dictionary.nameAt? 178 = some "DUP" ∧ s.shown? "N" = some (.ok text)

/-- **What follows a definition may be shown as a part of it.**  Each of these sources leaves the
cells of the definition, the base, the name of the word that it calls and the meaning of its own
name as they are, but for its mark, and after each the definition is shown otherwise than before. -/
theorem decompile_shows_what_follows :
    ∃ made ∈ Machine.booted.runSource 300 ": N DUP ;",
      made.2.state.ShowsDup false ": N DUP ;" ∧
      (∃ later ∈ made.2.runSource 300 "5 ,",
        later.2.state.ShowsDup false ": N DUP EXIT 5 ;") ∧
      (∃ later ∈ made.2.runSource 300 "IMMEDIATE",
        later.2.state.ShowsDup true ": N DUP ; IMMEDIATE") ∧
      ∃ later ∈ made.2.runSource 300 "-2 ALLOT", later.2.state.ShowsDup false ": N ;" := by
  unfold State.ShowsDup
  decide +kernel

end ThreadedForth
