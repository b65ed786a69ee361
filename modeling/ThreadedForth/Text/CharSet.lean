/-!
# Sets of characters

A property of characters that the Unicode standard lists is kept as the code points at which it
changes.  The characters before the first of them do not have the property, those from there to the
second one have it, and so on in turns.
-/

namespace ThreadedForth.Text

structure CharSet where
  /-- The code points at which the property changes, ascending. -/
  turns : Array Nat

/-- A character is in the set if the number of turns up to it is odd. -/
def CharSet.contains (set : CharSet) (c : Char) : Bool :=
  set.turns.countP (· ≤ c.toNat) % 2 == 1

end ThreadedForth.Text
