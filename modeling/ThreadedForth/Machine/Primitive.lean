import ThreadedForth.Machine.Effect

/-!
# Primitives

A primitive is a word that is an effect and not threaded code.  The machine keeps the primitives it
knows in a table, and a native cell holds the number of one.
-/

namespace ThreadedForth

/-- Who decides where execution goes on after a primitive. -/
inductive Control where
  /-- The machine goes on with the next cell. -/
  | advance
  /-- The primitive has set `ip` itself. -/
  | owned
  deriving DecidableEq, Repr, Inhabited

def Control.name : Control → String
  | .advance => "Advance"
  | .owned => "Owned"

structure Primitive where
  name : String
  /-- It is executed even while a definition is being compiled. -/
  immediate : Bool := false
  /-- It is not found by those who want to execute it. -/
  hidden : Bool := false
  control : Control := .advance
  effect : Effect Unit

instance : Inhabited Primitive := ⟨{ name := "", effect := pure () }⟩

/-- The primitives of a machine, numbered from 0. -/
abbrev PrimitiveTable := Array Primitive

namespace PrimitiveTable

/-- How many primitives a table has numbers for. -/
def capacity : Nat := 4294967296

/-- Adds a primitive and gives it the next number, as long as there is one. -/
def register (table : PrimitiveTable) (primitive : Primitive) :
    Except Cause (Nat × PrimitiveTable) :=
  if table.size < capacity then .ok (table.size, table.push primitive)
  else .error (.internal "primitive table overflow")

/-- The primitive with a number. -/
def lookup (table : PrimitiveTable) (id : Nat) : Except Cause Primitive :=
  match table[id]? with
  | some primitive => .ok primitive
  | none => .error (.internal s!"unbound primitive #{id}")

/-- The number of the primitive with a name that was added last, the case of letters aside. -/
def find? (table : PrimitiveTable) (name : String) : Option Nat :=
  (List.range table.size).reverse.find? fun id =>
    table[id]?.any fun primitive => Dictionary.fold primitive.name == Dictionary.fold name

end PrimitiveTable

end ThreadedForth
