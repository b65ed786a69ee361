import ThreadedForth.Text.Printable

/-!
# Quoted text

A dump of memory shows characters and strings between quotes, with everything escaped that would
be invisible or ambiguous there.  Only the quote that delimits the text is escaped, so an
apostrophe stands for itself in a string and a double quote in a character.
-/

namespace ThreadedForth.Text

/-- Lower-case hexadecimal digits without leading zeros. -/
def hexadecimal (n : Nat) : String := String.ofList (Nat.toDigits 16 n)

/-- How one character is written between the quotes `delimiter`. -/
def escape (delimiter c : Char) : String :=
  if c = '\t' then "\\t"
  else if c = '\r' then "\\r"
  else if c = '\n' then "\\n"
  else if c = '\x00' then "\\0"
  else if c = '\\' ∨ c = delimiter then String.ofList ['\\', c]
  else if isPrintable c then c.toString
  else "\\u\x7b" ++ hexadecimal c.toNat ++ "\x7d"

/-- The text between two delimiters, each character escaped. -/
def quoted (delimiter : Char) (text : List Char) : String :=
  delimiter.toString ++ String.join (text.map (escape delimiter)) ++ delimiter.toString

end ThreadedForth.Text
