import ThreadedForth.Input.Editor
import ThreadedForth.Text.Cluster

/-!
# Typing without a terminal

A user may also type into a pipe.  Then a line is what comes before the end of a line, and a
backspace among it takes back the cluster typed before it.
-/

namespace ThreadedForth

/-- The lines of a text.  A newline ends a line, together with a carriage return before it; the last
line need not be ended. -/
def linesOf (text : List Char) : List String :=
  match _h : text.dropWhile (· != '\n') with
  | [] => if text.isEmpty then [] else [String.ofList text]
  | _ :: rest =>
    let line := text.takeWhile (· != '\n')
    String.ofList (if line.getLast? = some '\r' then line.dropLast else line) :: linesOf rest
  termination_by text.length
  decreasing_by
    have := (text.dropWhile_suffix (· != '\n')).length_le
    simp only [_h, List.length_cons] at this
    omega

/-- Drops a number of bytes of UTF-8 from a reversed text. -/
def dropBytes (n : Nat) : List Char → List Char
  | [] => []
  | c :: kept => if n = 0 then c :: kept else dropBytes (n - c.utf8Size) kept

/-- The bytes of a text in UTF-8. -/
def byteCount (text : List Char) : Nat := text.foldl (fun count c => count + c.utf8Size) 0

/-- A line while it is typed. -/
structure TypedLine where
  /-- What is there, reversed. -/
  kept : List Char := []
  /-- The sizes of the clusters that can be taken back, the last one first. -/
  sizes : List Nat := []

/-- Types one cluster.  The size of a cluster is kept in one byte, so of a cluster with 256 bytes or
more only the bytes beyond the last multiple of 256 can be taken back. -/
def TypedLine.type (line : TypedLine) (cluster : List Char) : TypedLine :=
  if cluster = ['\x08'] then
    match line.sizes with
    | [] => line
    | size :: sizes => ⟨dropBytes size line.kept, sizes⟩
  else ⟨cluster.reverse ++ line.kept, byteCount cluster % 256 :: line.sizes⟩

/-- What is left of a line after everything was taken back that should be. -/
def takeBack (typed : List Char) : List Char :=
  ((Text.clusters typed).foldl TypedLine.type {}).kept.reverse

/-- What a user does who types a text and then ends the input. -/
def scriptOf (text : String) : List Keystroke :=
  (linesOf text.toList).map fun typed => .line (String.ofList (takeBack typed.toList))

end ThreadedForth
