import SimilarityStore.Text.Visible

/-
  Quoted texts and characters, as they stand in messages and descriptions.  A text stands in double
  quotes and a character in single quotes.  The delimiter in use, the backslash and four controls
  have short escapes; every other hidden character is written by its code point in braces.
-/

namespace SimilarityStore.Text

/-- Lowercase hexadecimal digits of a number, without leading zeros. -/
def hexadecimal (n : Nat) : String := String.ofList (Nat.toDigits 16 n)

/-- One character inside quotes that are written with `delimiter`. -/
def escape (delimiter c : Char) : String :=
  match c with
  | '\x00' => "\\0"
  | '\t' => "\\t"
  | '\n' => "\\n"
  | '\r' => "\\r"
  | '\\' => "\\\\"
  | c =>
    if c = delimiter then "\\" ++ c.toString
    else if isVisible c then c.toString
    else "\\u\x7b" ++ hexadecimal c.toNat ++ "\x7d"

/-- A text in double quotes. -/
def quoted (s : String) : String :=
  "\"" ++ String.join (s.toList.map (escape '"')) ++ "\""

/-- A character in single quotes. -/
def quotedChar (c : Char) : String :=
  "'" ++ escape '\x27' c ++ "'"

end SimilarityStore.Text
