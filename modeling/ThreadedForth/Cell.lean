import ThreadedForth.Value

/-!
# Cells

A cell is the content of one address.  What it does is decided only when the machine reaches it: a
native cell runs a primitive, a reference continues elsewhere, and a literal is inert data.
-/

namespace ThreadedForth

inductive Cell where
  /-- The primitive with this number in the machine's table. -/
  | native (id : Nat)
  /-- Execution goes on at this address. -/
  | reference (target : Address)
  | literal (v : Value)
  /-- Nothing was ever written here. -/
  | empty
  deriving DecidableEq, Inhabited

namespace Cell

def isEmpty : Cell → Bool
  | empty => true
  | _ => false

def asLiteral? : Cell → Option Value
  | literal v => some v
  | _ => none

def asReference? : Cell → Option Address
  | reference target => some target
  | _ => none

/-- The content as data.  A reference reads as the address it leads to. -/
def toValue? : Cell → Option Value
  | literal v => some v
  | reference target => some (.int target)
  | native _ | empty => none

/-- The text in a dump of memory. -/
def display : Cell → String
  | native id => s!"native#{id}"
  | reference target => s!"->{target}"
  | literal v => v.dump
  | empty => "empty"

end Cell

end ThreadedForth
