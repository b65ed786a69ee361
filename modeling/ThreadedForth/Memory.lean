import Std.Data.TreeMap
import ThreadedForth.Cell

/-!
# Flat memory

Memory gives every address a cell.  Nothing is ever removed and no access fails: an address that was
never written holds the empty cell.  The written addresses are kept in order, so that a part of
memory can be listed; writing the empty cell counts as writing.
-/

namespace ThreadedForth

structure Memory where
  cells : Std.TreeMap Address Cell := ∅
  deriving Inhabited

namespace Memory

/-- The cell at an address. -/
def get (memory : Memory) (address : Address) : Cell :=
  memory.cells.getD address .empty

/-- Writes one cell. -/
def set (memory : Memory) (address : Address) (cell : Cell) : Memory :=
  ⟨memory.cells.insert address cell⟩

/-- The number of written addresses. -/
def size (memory : Memory) : Nat := memory.cells.size

def isEmpty (memory : Memory) : Bool := memory.cells.isEmpty

/-- The highest written address. -/
def highest? (memory : Memory) : Option Address := memory.cells.maxKey?

/-- The written cells in ascending order of address. -/
def toList (memory : Memory) : List (Address × Cell) := memory.cells.toList

/-- The written cells from one address up to, but not including, another. -/
def range (memory : Memory) (first past : Address) : List (Address × Cell) :=
  memory.toList.filter fun entry => decide (first ≤ entry.1 ∧ entry.1 < past)

/-- Two memories are the same if the same addresses are written with the same cells. -/
instance : BEq Memory := ⟨fun a b => a.toList == b.toList⟩

/-! ## What writing does to reading -/

theorem get_set (memory : Memory) (written read : Address) (cell : Cell) :
    (memory.set written cell).get read = if written = read then cell else memory.get read := by
  simp [get, set, Std.TreeMap.getD_insert]

@[simp] theorem get_set_self (memory : Memory) (address : Address) (cell : Cell) :
    (memory.set address cell).get address = cell := by
  simp [get_set]

theorem get_set_of_ne (memory : Memory) {written read : Address} (h : written ≠ read)
    (cell : Cell) : (memory.set written cell).get read = memory.get read := by
  simp [get_set, h]

end Memory

end ThreadedForth
