import ThreadedForth.Value
import ThreadedForth.Decimal.Reader

/-!
# Literal tokens

A token that is no word may be a literal.  Integers depend on the radix and are read in `Numeral`;
this module reads the rest: a character between apostrophes, a string between double quotes, and a
float.  The order matters only for the apostrophes, since no token is both of the others.
-/

namespace ThreadedForth.Value

/-- One character between apostrophes; the character may be an apostrophe. -/
def readChar? : List Char → Option Char
  | [opening, c, closing] =>
    if opening = Char.ofNat 39 ∧ closing = Char.ofNat 39 then some c else none
  | _ => none

/-- Everything between a double quote at the start and another one at the end. -/
def readString? (token : List Char) : Option String :=
  match token with
  | '"' :: rest => if rest.getLast? = some '"' then some (String.ofList rest.dropLast) else none
  | _ => none

/-- A digit follows the sign and the point, if there are any.  This keeps the names of infinity and
of the number that is none available as words. -/
def startsNumber (token : List Char) : Bool :=
  let unsigned := match token with
    | '-' :: rest | '+' :: rest => rest
    | rest => rest
  let digits := match unsigned with
    | '.' :: rest => rest
    | rest => rest
  digits.head?.any Char.isDigit

/-- Reads a token as a literal that is no integer. -/
def ofToken? (token : String) : Option Value :=
  let text := token.toList
  (char <$> readChar? text) <|> (string <$> readString? text) <|>
    if startsNumber text then float <$> Decimal.readFloat? text else none

end ThreadedForth.Value
