import ThreadedForth.Numeral
import ThreadedForth.Text.Blank
import ThreadedForth.Value.Literal
import ThreadedForth.Input.Editor

/-!
# Colouring a line

A line is coloured token by token, cut at blanks as the interpreter cuts it.  Numbers, comments,
strings and the words around definitions have a colour of their own; all other text, blanks
included, stays as it is.  What a token is depends on the tokens before it, but only within the
line.
-/

namespace ThreadedForth.Highlight

/-- The colours. -/
inductive Colour where
  | number
  | definition
  | comment
  | string
  deriving DecidableEq, Repr

/-- Begins a colour. -/
def Colour.code : Colour → String
  | number => "\x1b[35m"
  | definition => "\x1b[1;32m"
  | comment => "\x1b[2;3m"
  | string => "\x1b[33m"

/-- Ends a colour. -/
def resetCode : String := "\x1b[0m"

/-- What the next token is taken for. -/
inductive Expectation where
  | any
  /-- The name after a defining word. -/
  | name
  /-- Part of a comment in parentheses. -/
  | comment
  /-- Part of a string. -/
  | string
  deriving DecidableEq, Repr

/-- A stretch of a line and its colour. -/
structure Stretch where
  colour : Option Colour
  text : List Char
  deriving DecidableEq, Repr

/-- A coloured stretch of nothing is nothing. -/
def Stretch.render (stretch : Stretch) : String :=
  match stretch.colour with
  | some colour =>
    if stretch.text.isEmpty then "" else colour.code ++ String.ofList stretch.text ++ resetCode
  | none => String.ofList stretch.text

/-- A token that reads as a literal in decimal. -/
def isLiteral (token : String) : Bool :=
  (Numeral.read? 10 token).isSome || (Value.ofToken? token).isSome

/-- The colour of a token, and what to expect after it. -/
def classify (expectation : Expectation) (token : List Char) : Option Colour × Expectation :=
  match expectation with
  | .comment => (some .comment, if token.getLast? = some ')' then .any else .comment)
  | .string => (some .string, if token.getLast? = some '"' then .any else .string)
  | .name => (some .definition, .any)
  | .any =>
    let upper := (String.ofList token).toUpper
    if upper = "(" then (some .comment, .comment)
    else if upper = ".\"" ∨ upper = "S\"" then (some .string, .string)
    else if upper ∈ definingWords then (some .definition, .name)
    else if upper = ";" then (some .definition, .any)
    else if isLiteral (String.ofList token) then (some .number, .any)
    else (none, .any)

/-- Cuts a line into stretches.  A backslash where any token may come makes a comment of the rest of
the line. -/
def stretches (expectation : Expectation) (line : List Char) : List Stretch :=
  match _h : line with
  | [] => []
  | c :: rest =>
    if Text.isBlank c then
      ⟨none, c :: rest.takeWhile Text.isBlank⟩ ::
        stretches expectation (rest.dropWhile Text.isBlank)
    else
      let token := c :: rest.takeWhile (! Text.isBlank ·)
      let later := rest.dropWhile (! Text.isBlank ·)
      if expectation = .any ∧ token = ['\\'] then
        [⟨some .comment, token⟩, ⟨some .comment, later⟩]
      else
        let (colour, next) := classify expectation token
        ⟨colour, token⟩ :: stretches next later
  termination_by line.length
  decreasing_by
    · have := (rest.dropWhile_suffix Text.isBlank).length_le
      simp only [List.length_cons]
      omega
    · have := (rest.dropWhile_suffix (! Text.isBlank ·)).length_le
      simp only [List.length_cons]
      omega

/-- Colours a line. -/
def line (text : String) : String :=
  String.join ((stretches .any text.toList).map Stretch.render)

end ThreadedForth.Highlight
