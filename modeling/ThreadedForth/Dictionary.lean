import Std.Data.TreeMap
import ThreadedForth.Error

/-!
# The dictionary

A name has a chain of entries, newest first.  Defining a name again shadows its older entries and
destroys none of them; removing a name drops its whole chain.  Names are folded to ASCII upper case
on the way in, so the case of a name never matters.

Apart from the chains, every address that was ever defined remembers two names: the first one, which
is what a dump or a backtrace calls the address, and the newest one, which is where a change of
flags looks first.  Both memories survive the removal of the name.  No operation fails; whether a
missing word matters is for the caller to say.

The chains are kept in a hash map, and every dictionary draws the order in which its map is gone
through.  A copy keeps that order.  It matters only to the names of words with one address, which
are listed in it.
-/

namespace ThreadedForth

/-- One meaning of a name. -/
structure Entry where
  /-- The folded name. -/
  name : String
  /-- Where the word begins. -/
  address : Address
  /-- The word is executed even while a definition is being compiled. -/
  immediate : Bool
  /-- The word is not found by those who want to execute it. -/
  hidden : Bool
  deriving DecidableEq, Repr, Inhabited

/-- The order in which a hash map goes through its names, of which there is nothing to say. -/
structure NameOrder where
  arrange : List String → List String
  perm : ∀ names, (arrange names).Perm names

/-- The names as they come. -/
instance : Inhabited NameOrder := ⟨⟨id, fun _ => .refl _⟩⟩

structure Dictionary where
  /-- The order in which names are gone through. -/
  order : NameOrder := default
  /-- The entries of each name, newest first. -/
  chains : Std.TreeMap String (List Entry) := ∅
  /-- The first name ever defined at each address. -/
  firstNames : Std.TreeMap Address String := ∅
  /-- The latest name defined at each address. -/
  newestNames : Std.TreeMap Address String := ∅
  deriving Inhabited

namespace Dictionary

/-- Names that differ only in the case of ASCII letters are the same name. -/
def fold (name : String) : String := name.toUpper

/-- The entries of a name, newest first. -/
def chain (dictionary : Dictionary) (name : String) : List Entry :=
  dictionary.chains.getD (fold name) []

/-! ## Defining and removing -/

/-- Adds an entry that shadows the older entries of its name. -/
def define (dictionary : Dictionary) (name : String) (address : Address)
    (immediate hidden : Bool) : Dictionary :=
  let name := fold name
  { dictionary with
    chains := dictionary.chains.insert name
      (⟨name, address, immediate, hidden⟩ :: dictionary.chains.getD name [])
    firstNames := dictionary.firstNames.insertIfNew address name
    newestNames := dictionary.newestNames.insert address name }

/-- Drops all entries of a name; `none` if it has none. -/
def remove? (dictionary : Dictionary) (name : String) : Option Dictionary :=
  if dictionary.chains.contains (fold name) then
    some { dictionary with chains := dictionary.chains.erase (fold name) }
  else none

/-! ## Looking up -/

/-- The newest entry of a name, hidden or not. -/
def find? (dictionary : Dictionary) (name : String) : Option Entry :=
  (dictionary.chain name).head?

/-- The newest entry of a name that is not hidden. -/
def findVisible? (dictionary : Dictionary) (name : String) : Option Entry :=
  (dictionary.chain name).find? (! ·.hidden)

/-- The name first defined at an address. -/
def nameAt? (dictionary : Dictionary) (address : Address) : Option String :=
  dictionary.firstNames[address]?

/-- The newest entry with an address among the entries of the name first defined there.  If that
name was removed, or has no entry there any more, a plain entry stands in for it. -/
def entryAt? (dictionary : Dictionary) (address : Address) : Option Entry :=
  (dictionary.nameAt? address).map fun name =>
    let entries := dictionary.chains.getD name []
    (entries.find? (·.address == address)).getD ⟨name, address, false, false⟩

/-- The word that an address lies in: the closest address at or below it that was ever defined, and
its first name. -/
def containing? (dictionary : Dictionary) (address : Address) : Option (Address × String) :=
  dictionary.firstNames.getEntryLE? address

/-- The names that are found by those who want to execute them, with the word at the highest address
first; names of one address stay in the dictionary's own order. -/
def visibleNames (dictionary : Dictionary) : List String :=
  let visible := (dictionary.order.arrange dictionary.chains.keys).filterMap fun name =>
    ((dictionary.chains.getD name []).find? (! ·.hidden)).map fun entry => (entry.address, name)
  (visible.mergeSort fun a b => decide (b.1 ≤ a.1)).map (·.2)

/-- The number of names that have entries. -/
def size (dictionary : Dictionary) : Nat := dictionary.chains.size

def isEmpty (dictionary : Dictionary) : Bool := dictionary.chains.isEmpty

/-! ## Flags -/

/-- Changes the newest entry with an address in a chain, if it has one. -/
def modifyAt? (address : Address) (change : Entry → Entry) : List Entry → Option (List Entry)
  | [] => none
  | entry :: older =>
    if entry.address = address then some (change entry :: older)
    else (modifyAt? address change older).map (entry :: ·)

/-- Changes the newest entry with an address among the entries of one folded name, if there is
one. -/
def modifyNamed? (dictionary : Dictionary) (name : String) (address : Address)
    (change : Entry → Entry) : Option Dictionary := do
  let entries ← dictionary.chains[name]?
  let changed ← modifyAt? address change entries
  return { dictionary with chains := dictionary.chains.insert name changed }

/-- Changes one entry at an address: one of the name defined there last, or else of the name defined
there first.  `none` if neither name has an entry there. -/
def modify? (dictionary : Dictionary) (address : Address) (change : Entry → Entry) :
    Option Dictionary :=
  (dictionary.newestNames[address]?.bind (dictionary.modifyNamed? · address change)) <|>
    (dictionary.firstNames[address]?.bind (dictionary.modifyNamed? · address change))

def setHidden? (dictionary : Dictionary) (address : Address) (hidden : Bool) : Option Dictionary :=
  dictionary.modify? address ({ · with hidden })

def setImmediate? (dictionary : Dictionary) (address : Address) (immediate : Bool) :
    Option Dictionary :=
  dictionary.modify? address ({ · with immediate })

def toggleHidden? (dictionary : Dictionary) (address : Address) : Option Dictionary :=
  dictionary.modify? address fun entry => { entry with hidden := !entry.hidden }

/-! ## What defining does to looking up -/

theorem chain_define (dictionary : Dictionary) (name other : String) (address : Address)
    (immediate hidden : Bool) :
    (dictionary.define name address immediate hidden).chain other =
      if fold name = fold other then
        ⟨fold name, address, immediate, hidden⟩ :: dictionary.chain name
      else dictionary.chain other := by
  simp only [chain, define, Std.TreeMap.getD_insert, Std.LawfulEqCmp.compare_eq_iff_eq]

/-- A new entry is found under its name, hidden or not, and changes no other name. -/
theorem find?_define (dictionary : Dictionary) (name other : String) (address : Address)
    (immediate hidden : Bool) :
    (dictionary.define name address immediate hidden).find? other =
      if fold name = fold other then some ⟨fold name, address, immediate, hidden⟩
      else dictionary.find? other := by
  simp only [find?, chain_define]
  split <;> rfl

/-- A hidden entry leaves the old meaning of its name in use. -/
theorem findVisible?_define_hidden (dictionary : Dictionary) (name other : String)
    (address : Address) (immediate : Bool) :
    (dictionary.define name address immediate true).findVisible? other =
      dictionary.findVisible? other := by
  simp only [findVisible?, chain_define]
  split
  · rename_i h
    simp [chain, h]
  · rfl

/-- The first name of an address stays. -/
theorem nameAt?_define (dictionary : Dictionary) (name : String) (address other : Address)
    (immediate hidden : Bool) :
    (dictionary.define name address immediate hidden).nameAt? other =
      if address = other ∧ dictionary.nameAt? address = none then some (fold name)
      else dictionary.nameAt? other := by
  simp only [nameAt?, define, Std.TreeMap.getElem?_insertIfNew,
    Std.LawfulEqCmp.compare_eq_iff_eq, getElem?_eq_none_iff]

/-! ## Comparing -/

/-- Two dictionaries are the same if they agree on the chains and on both names of every address,
whatever the order in which either goes through its names. -/
instance : BEq Dictionary := ⟨fun a b =>
  a.chains.toList == b.chains.toList && a.firstNames.toList == b.firstNames.toList &&
    a.newestNames.toList == b.newestNames.toList⟩

end Dictionary

end ThreadedForth
