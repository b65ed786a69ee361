/-!
# Blank characters

Source text is cut into tokens at blanks: the characters with the Unicode property White_Space,
which are the ASCII blanks, the next-line and no-break characters, the typographic spaces and the
two separators.  A zero-width space is not among them, nor are the ASCII information separators.
-/

namespace ThreadedForth.Text

def isBlank (c : Char) : Bool :=
  let code := c.toNat
  (9 ≤ code && code ≤ 13) || code == 0x20 || code == 0x85 || code == 0xa0 || code == 0x1680 ||
    (0x2000 ≤ code && code ≤ 0x200a) || code == 0x2028 || code == 0x2029 || code == 0x202f ||
    code == 0x205f || code == 0x3000

/-- The maximal runs of other characters, in order. -/
def tokens (text : List Char) : List String :=
  match h : text.dropWhile isBlank with
  | [] => []
  | c :: rest =>
    have : (rest.dropWhile (! isBlank ·)).length < text.length := by
      have hle := (text.dropWhile_suffix isBlank).length_le
      have hlt := (rest.dropWhile_suffix (! isBlank ·)).length_le
      simp only [h, List.length_cons] at hle
      omega
    String.ofList (c :: rest.takeWhile (! isBlank ·)) :: tokens (rest.dropWhile (! isBlank ·))
  termination_by text.length

end ThreadedForth.Text
