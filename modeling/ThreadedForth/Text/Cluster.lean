import ThreadedForth.Text.ClusterClass

/-!
# Clusters

A text is cut into the clusters that a user takes for one character each (Unicode Standard Annex 29,
extended grapheme clusters).  Whether two neighbours belong together depends on their classes and on
three facts about the text before them, which a `ClusterContext` keeps: whether a flag is half done,
whether a pictograph waits to be joined, and whether a consonant does.
-/

namespace ThreadedForth.Text

/-- How far a sequence that joins its two ends has come. -/
inductive Bond where
  /-- It has not begun. -/
  | none
  /-- Its first end is there. -/
  | started
  /-- Its first end is there, and what joins it to the next one. -/
  | joined
  deriving DecidableEq, Repr

/-- What the text before a place has to do with the characters after it. -/
structure ClusterContext where
  /-- The class of the last character. -/
  last : ClusterClass
  /-- An odd number of regional indicators come last. -/
  halfFlag : Bool
  /-- A pictograph with its extenders comes last, or these and a joiner. -/
  pictographs : Bond
  /-- A consonant with its extenders comes last, and there is a linker among them or not. -/
  conjunct : Bond

namespace ClusterContext

/-- Nothing stands before the text. -/
def start : ClusterContext := ⟨.control, false, .none, .none⟩

/-- Goes on by one character. -/
def next (before : ClusterContext) (c : ClusterClass) : ClusterContext where
  last := c
  halfFlag := c == .regional && !before.halfFlag
  pictographs := match c, before.pictographs with
    | .pictograph, _ => .started
    | .extend, .started | .linker, .started | .nonJoiner, .started => .started
    | .joiner, .started => .joined
    | _, _ => .none
  conjunct := match c, before.conjunct with
    | .consonant, _ => .started
    | .linker, .started | .linker, .joined => .joined
    | .extend, bond | .joiner, bond => bond
    | _, _ => .none

/-- Whether a character belongs to the cluster of the one before it. -/
def joins (before : ClusterContext) (c : ClusterClass) : Bool :=
  match before.last, c with
  | .carriageReturn, .lineFeed => true
  | .carriageReturn, _ | .lineFeed, _ | .control, _ => false
  | _, .carriageReturn | _, .lineFeed | _, .control => false
  | .leading, .leading | .leading, .vowel => true
  | .leading, .openSyllable | .leading, .closedSyllable => true
  | .openSyllable, .vowel | .openSyllable, .trailing => true
  | .vowel, .vowel | .vowel, .trailing => true
  | .closedSyllable, .trailing | .trailing, .trailing => true
  | _, .extend | _, .linker | _, .nonJoiner | _, .joiner | _, .spacingMark => true
  | .prepend, _ => true
  | _, .consonant => before.conjunct == .joined
  | _, .pictograph => before.pictographs == .joined
  | _, .regional => before.halfFlag
  | _, _ => false

end ClusterContext

/-- The clusters of a text whose first cluster has begun with the reversed `cluster`. -/
def clustersFrom (before : ClusterContext) (cluster : List Char) : List Char → List (List Char)
  | [] => [cluster.reverse]
  | c :: rest =>
    let after := before.next (.of c)
    if before.joins (.of c) then clustersFrom after (c :: cluster) rest
    else cluster.reverse :: clustersFrom after [c] rest

/-- The clusters of a text, in order. -/
def clusters : List Char → List (List Char)
  | [] => []
  | c :: rest => clustersFrom (ClusterContext.start.next (.of c)) [c] rest

end ThreadedForth.Text
