import SimilarityStore.Numeric.Numeral

/-
  Documents as they are written: the tree of a JSON text.  Members keep their order and their
  repetitions, numbers keep their digits, and a string whose escapes do not spell a text is kept as
  a string without content, since it can still be passed over.
-/

namespace SimilarityStore.Json

open SimilarityStore.Numeric

/-- A document. -/
inductive Document where
  | null
  | bool (value : Bool)
  | number (numeral : Numeral)
  | text (content : Option String)
  | array (items : List Document)
  | object (members : List (Option String × Document))
deriving Inhabited

namespace Document

/-- A string that spells a text. -/
def ofString (s : String) : Document := .text (some s)

/-- A whole number. -/
def ofInt (i : Int) : Document := .number (.ofInt i)

/-- An optional value; a missing one is `null`. -/
def ofOption {α : Type} (encode : α → Document) : Option α → Document
  | none => .null
  | some x => encode x

/-- An object whose names are all texts. -/
def ofFields (fields : List (String × Document)) : Document :=
  .object (fields.map fun (name, value) => (some name, value))

end Document

end SimilarityStore.Json
