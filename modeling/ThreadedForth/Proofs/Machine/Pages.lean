import ThreadedForth.Proofs.Dictionary.Lookups
import ThreadedForth.Proofs.Machine.Surroundings

/-!
# What is written, in two orders

Two machines that only differ in the order in which their dictionaries go through names write the
same texts, with one exception: if two names in use have one address, then a list of the names shows
these in the order of the dictionary.  So a `Page` is made of texts and of such lists, and it can be
shown in any order.  Two machines are `Rendered` alike if what both have written is one page, each
in its own order.
-/

namespace ThreadedForth

/-! ## Lists of names -/

namespace Dictionary

variable {dictionary : Dictionary}

/-- Two names in use have one address. -/
def SharesAddress (dictionary : Dictionary) : Prop :=
  ∃ found ∈ dictionary.visible, ∃ other ∈ dictionary.visible,
    found.1 = other.1 ∧ found.2 ≠ other.2

end Dictionary

/-! ## Pages -/

/-- What is written at once: a text that does not depend on any order, or the names of a dictionary
in which two names in use have one address. -/
inductive Piece where
  | text (content : String)
  | names (dictionary : Dictionary) (h : dictionary.SharesAddress)

namespace Surroundings

variable {order order' : NameOrder}

end Surroundings

end ThreadedForth
