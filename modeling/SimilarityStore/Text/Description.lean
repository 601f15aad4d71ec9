/-
  Descriptions: the one-line structural text of a value.  A record is written
  `Name { field: value, … }`, a constructor with arguments `Name(value, …)`, a list `[value, …]`,
  and an optional value `Some(value)` or `None`.
-/

namespace SimilarityStore.Text

/-- Pieces separated by a comma and a blank. -/
def commaSeparated (parts : List String) : String := String.intercalate ", " parts

/-- A record with its fields in order. -/
def describeRecord (name : String) (fields : List (String × String)) : String :=
  name ++ " \x7b " ++ commaSeparated (fields.map fun (label, value) => label ++ ": " ++ value) ++
    " \x7d"

/-- A constructor with its arguments in order. -/
def describeCase (name : String) (arguments : List String) : String :=
  name ++ "(" ++ commaSeparated arguments ++ ")"

/-- A list of already described elements. -/
def describeList (elements : List String) : String :=
  "[" ++ commaSeparated elements ++ "]"

/-- An optional value, given how its content is described. -/
def describeOption {α : Type} (describe : α → String) : Option α → String
  | none => "None"
  | some x => describeCase "Some" [describe x]

/-- A truth value. -/
def describeBool (b : Bool) : String := if b then "true" else "false"

end SimilarityStore.Text
