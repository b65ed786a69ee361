import ThreadedForth.Proofs.Decompile.Listing
import ThreadedForth.Proofs.Machine.Standard
import ThreadedForth.Proofs.Structured.Code

/-!
# Named storage

A program may consist of variables, buffers, constants and words, and of their uses.  This module
says what such a program means to somebody who knows nothing of memory: there is a list of what was
defined, newest first, and each slot of a variable or of a buffer has the value that was stored
there last.

A place is written as a name, or as a name, an index and `+`.  `Request` is how a use is written,
and `Action` is what it means once its names are looked up.  A definition keeps the actions of its
body, and they only know of what was defined before; so running a word is a recursion on the list.

No machine is run here.  There is only one thing that is taken from a machine, and this is one that
was just set up: what a token means which the program did not define.
-/

namespace ThreadedForth

/-! ## Source -/

/-- A place as it is written: `x`, or `b k +`. -/
structure Place where
  name : String
  offset? : Option String := none

/-- A piece of source that uses what there is. -/
inductive Request where
  /-- A literal, a constant or a word. -/
  | token (text : String)
  /-- `S" text"` -/
  | string (text : String)
  /-- `place @` -/
  | fetch (place : Place)
  /-- `place !` -/
  | store (place : Place)
  /-- `place +!` -/
  | add (place : Place)

inductive Statement where
  | use (request : Request)
  /-- `VARIABLE name` -/
  | makeVariable (name : String)
  /-- `CONSTANT name` -/
  | makeConstant (name : String)
  /-- `CREATE name size ALLOT` -/
  | makeBuffer (name size : String)
  /-- `: name body ;` -/
  | makeWord (name : String) (body : List Request)

def Place.items (place : Place) : List Item :=
  .token place.name :: match place.offset? with
    | none => []
    | some index => [.token index, .token "+"]

def Request.items : Request → List Item
  | token text => [.token text]
  | string text => [.string text]
  | fetch place => place.items ++ [.token "@"]
  | store place => place.items ++ [.token "!"]
  | add place => place.items ++ [.token "+!"]

def Statement.items : Statement → List Item
  | use request => request.items
  | makeVariable name => [.token "VARIABLE", .token name]
  | makeConstant name => [.token "CONSTANT", .token name]
  | makeBuffer name size => [.token "CREATE", .token name, .token size, .token "ALLOT"]
  | makeWord name body =>
    .token ":" :: .token name :: body.flatMap Request.items ++ [.token ";"]

/-! ## Definitions -/

/-- A slot of a variable or of a buffer, and how it is addressed. -/
structure Slot where
  name : String
  offset? : Option ℕ := none
  deriving DecidableEq

/-- The number of the slot.  A name alone is the first one. -/
def Slot.index (slot : Slot) : ℕ := slot.offset?.getD 0

/-- What a use means. -/
inductive Action where
  | push (v : Value)
  /-- A word that the machine was set up with. -/
  | word (address : Address)
  /-- A constant, or a word that the program defined. -/
  | call (name : String)
  | fetch (slot : Slot)
  | store (slot : Slot)
  | add (slot : Slot)
  deriving DecidableEq

inductive Shape where
  /-- A variable or a buffer with a number of slots. -/
  | storage (size : ℕ)
  | constant (v : Value)
  | word (body : List Action)
  deriving DecidableEq

structure Definition where
  /-- The folded name. -/
  name : String
  shape : Shape
  deriving DecidableEq

namespace Definition

variable (definitions : List Definition)

/-- The definition that a token names. -/
def named? (token : String) : Option Definition :=
  definitions.find? (·.name = Dictionary.fold token)

/-- The token means what it means to a machine that was just set up. -/
def isFree (token : String) : Bool := (named? definitions token).isNone

/-- The number of slots that a folded name has. -/
def slots (name : String) : ℕ :=
  match definitions.find? (·.name = name) with
  | some ⟨_, .storage size⟩ => size
  | _ => 0

/-- What a token means that the program did not define. -/
def meaning? (token : String) : Option Meaning :=
  if isFree definitions token then (Machine.booted.state.classify token).toOption else none

/-- The number that a token is, if it is not negative. -/
def count? (token : String) : Option ℕ :=
  match meaning? definitions token with
  | some (.literal (.int n)) => if 0 ≤ n.toInt then some n.toInt.toNat else none
  | _ => none

end Definition

open Definition

/-- The slot that is at a place. -/
def Place.slot? (definitions : List Definition) (place : Place) : Option Slot :=
  match named? definitions place.name, place.offset? with
  | some ⟨name, .storage _⟩, none => some { name }
  | some ⟨name, .storage _⟩, some index =>
    if isFree definitions "+" then
      (count? definitions index).map fun offset => { name, offset? := some offset }
    else none
  | _, _ => none

/-- What is done at a place by a word that must not have been defined anew. -/
def Place.action? (definitions : List Definition) (place : Place) (word : String)
    (action : Slot → Action) : Option Action :=
  if isFree definitions word then (place.slot? definitions).map action else none

/-- What a use means.  A word that is executed even in a definition is not used here. -/
def Request.action? (definitions : List Definition) : Request → Option Action
  | token text =>
    match named? definitions text, meaning? definitions text with
    | some ⟨_, .storage _⟩, _ => none
    | some ⟨name, _⟩, _ => some (.call name)
    | none, some (.literal v) => some (.push v)
    | none, some (.word entry) => if entry.immediate then none else some (.word entry.address)
    | none, none => none
  | string text => if isFree definitions "S\"" then some (.push (.string text)) else none
  | fetch place => place.action? definitions "@" .fetch
  | store place => place.action? definitions "!" .store
  | add place => place.action? definitions "+!" .add

/-! ## Running -/

/-- The values of the slots, and the desk. -/
structure Storage where
  values : String → ℕ → Value := fun _ _ => .int 0
  desk : Desk := ⟨{}, ""⟩

namespace Storage

variable (storage : Storage)

def push (v : Value) : Storage :=
  { storage with desk := { storage.desk with parameters := storage.desk.parameters.push v } }

/-- Leaves these parameters. -/
def leave (parameters : Stack .parameter) : Storage :=
  { storage with desk := { storage.desk with parameters } }

/-- One slot gets a value. -/
def write (slot : Slot) (v : Value) : Storage :=
  { storage with values := fun name index =>
      if name = slot.name ∧ index = slot.index then v else storage.values name index }

/-- All slots of a name get the value that new cells have. -/
def clear (name : String) : Storage :=
  { storage with values := fun other index =>
      if other = name then .int 0 else storage.values other index }

end Storage

/-- The word of the library at an address, if it only computes. -/
def computingWordAt? (address : Address) : Option Primitive :=
  (libraryWords.zipIdx.find? fun place =>
    primitiveAddress (kernelWords.length + place.2) = address ∧ place.1.name ≠ "+!").map (·.1)

/-- What an action does, given what there is and what it does to call a name; `none` if it cannot be
done. -/
def Action.run (definitions : List Definition) (call : String → Storage → Option Storage) :
    Action → Storage → Option Storage
  | push v, storage => some (storage.push v)
  | word address, storage =>
    match computingWordAt? address with
    | some primitive =>
      match primitive.effect.alone (.literal (.int 10)) storage.desk.parameters with
      | .ok (parameters, text) =>
        some { storage with desk := ⟨parameters, storage.desk.text ++ text⟩ }
      | .error _ => none
    | none => none
  | .call name, storage => call name storage
  | fetch slot, storage =>
    if slot.index < slots definitions slot.name then
      some (storage.push (storage.values slot.name slot.index))
    else none
  | store slot, storage =>
    match storage.desk.parameters.items with
    | v :: rest =>
      if slot.index < slots definitions slot.name then
        some ((storage.leave ⟨rest⟩).write slot v)
      else none
    | [] => none
  | add slot, storage =>
    match storage.desk.parameters.items, storage.values slot.name slot.index with
    | .int n :: rest, .int held =>
      if slot.index < slots definitions slot.name then
        some ((storage.leave ⟨rest⟩).write slot (.int (held + n)))
      else none
    | _, _ => none

/-- What it does to call a folded name: a constant pushes its value, and the body of a word runs
with what was defined before the word. -/
def Definition.run : List Definition → String → Storage → Option Storage
  | [], _, _ => none
  | definition :: older, name, storage =>
    if definition.name = name then
      match definition.shape with
      | .storage _ => none
      | .constant v => some (storage.push v)
      | .word body =>
        body.foldlM (fun storage action => action.run older (Definition.run older) storage) storage
    else Definition.run older name storage

/-- A constant pushes the value that it was defined with, whatever was defined since. -/
theorem Definition.run_constant {definitions : List Definition} {name : String} {v : Value}
    (hdistinct : (definitions.map Definition.name).Nodup)
    (hmem : ⟨name, .constant v⟩ ∈ definitions) (storage : Storage) :
    Definition.run definitions name storage = some (storage.push v) := by
  induction definitions with
  | nil => cases hmem
  | cons definition older ih =>
      rw [List.map_cons, List.nodup_cons] at hdistinct
      obtain ⟨hnew, hdistinct⟩ := hdistinct
      rw [Definition.run]
      rcases List.mem_cons.mp hmem with rfl | holder
      · rw [if_pos rfl]
      · have hother : definition.name ≠ name := by
          rintro rfl
          exact hnew (List.mem_map.mpr ⟨_, holder, rfl⟩)
        rw [if_neg hother]
        exact ih hdistinct holder

/-- What there is at some moment. -/
structure Inventory where
  definitions : List Definition := []
  storage : Storage := {}

namespace Inventory

/-- Nothing is defined yet, the stack is empty, and this text was written. -/
def opening (text : String) : Inventory := { storage.desk := ⟨{}, text⟩ }

/-- Adds a definition; its name must not have been used before. -/
def define? (inventory : Inventory) (name : String) (shape : Shape) : Option Inventory :=
  if isFree inventory.definitions name then
    some {
      definitions := ⟨Dictionary.fold name, shape⟩ :: inventory.definitions
      storage := inventory.storage.clear (Dictionary.fold name) }
  else none

/-- What a statement does. -/
def run (inventory : Inventory) : Statement → Option Inventory
  | .use request => do
    let action ← request.action? inventory.definitions
    let storage ← action.run inventory.definitions (Definition.run inventory.definitions)
      inventory.storage
    return { inventory with storage }
  | .makeVariable name =>
    if isFree inventory.definitions "VARIABLE" then inventory.define? name (.storage 1) else none
  | .makeConstant name =>
    match inventory.storage.desk.parameters.items with
    | v :: rest =>
      if isFree inventory.definitions "CONSTANT" then
        { inventory with storage := inventory.storage.leave ⟨rest⟩ }.define? name (.constant v)
      else none
    | [] => none
  | .makeBuffer name size => do
    -- the size is read when the name is there already
    let created ← inventory.define? name (.storage 0)
    let n ← count? created.definitions size
    if isFree inventory.definitions "CREATE" ∧ isFree created.definitions "ALLOT" ∧
        n ≤ 2 ^ 20 then
      inventory.define? name (.storage n)
    else none
  | .makeWord name body => do
    let actions ← body.mapM (·.action? inventory.definitions)
    if isFree inventory.definitions ":" ∧ isFree inventory.definitions ";" then
      inventory.define? name (.word actions)
    else none

/-- What one statement after the other does. -/
def runAll (inventory : Inventory) (statements : List Statement) : Option Inventory :=
  statements.foldlM run inventory

end Inventory

end ThreadedForth
