import SimilarityStore.Json.Document

/-
  Writing documents, without blanks.  Strings are written as they are, except for the quote, the
  backslash and the controls below the blank.
-/

namespace SimilarityStore.Json

open SimilarityStore.Numeric

/-- A hexadecimal digit. -/
def hexChar (n : Nat) : Char := if n < 10 then Char.ofNat (48 + n) else Char.ofNat (87 + n)

/-- One character of a string. -/
def escapeChar (c : Char) : List Char :=
  match c with
  | '"' => ['\\', '"']
  | '\\' => ['\\', '\\']
  | '\x08' => ['\\', 'b']
  | '\x0c' => ['\\', 'f']
  | '\n' => ['\\', 'n']
  | '\r' => ['\\', 'r']
  | '\t' => ['\\', 't']
  | c =>
    if c.toNat < 32 then ['\\', 'u', '0', '0', hexChar (c.toNat / 16), hexChar (c.toNat % 16)]
    else [c]

/-- A string with its quotes. -/
def writeText (s : String) : String :=
  "\"" ++ String.ofList (s.toList.flatMap escapeChar) ++ "\""

/-- Pieces separated by commas. -/
def commaJoin (parts : List String) : String := String.intercalate "," parts

namespace Document

mutual

/-- The document as a text.  A string without content is written as `null`. -/
def write : Document → String
  | null => "null"
  | bool b => if b then "true" else "false"
  | number n => n.toText true
  | text none => "null"
  | text (some s) => writeText s
  | array items => "[" ++ commaJoin (writeItems items) ++ "]"
  | object members => "\x7b" ++ commaJoin (writeMembers members) ++ "\x7d"

/-- The items of an array, one text each. -/
def writeItems : List Document → List String
  | [] => []
  | item :: items => write item :: writeItems items

/-- The members of an object, one text each. -/
def writeMembers : List (Option String × Document) → List String
  | [] => []
  | (name, value) :: members =>
    (writeText (name.getD "") ++ ":" ++ write value) :: writeMembers members

end

end Document

end SimilarityStore.Json
