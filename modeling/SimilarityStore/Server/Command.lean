import SimilarityStore.Numeric.Literal
import SimilarityStore.Store.Program

/-
  Commands of a vector-set server.  A command is a list of arguments; a vector is sent as the number
  of its components and the components themselves.  How the digits of a number are written is left
  to the client that sends it, as long as they are a number literal.
-/

namespace SimilarityStore.Server

open SimilarityStore.Numeric SimilarityStore.Store

/-- A command with its arguments. -/
abbrev Command := List String

/-- Whether an argument is a number literal. -/
def isNumber (argument : String) : Bool := (readLiteral? argument.toList).isSome

/-- How a client writes numbers as arguments. -/
structure NumberWriter where
  component : Float32 → String
  number : Float → String
  component_isNumber : ∀ x, isNumber (component x) = true
  number_isNumber : ∀ x, isNumber (number x) = true

section Commands

variable (writer : NumberWriter)

/-- A vector as arguments. -/
def vectorArguments (v : FeatureVector) : List String :=
  "VALUES" :: decimalText v.dimension :: v.components.map writer.component

/-- A name and a value if there is a value, and nothing otherwise. -/
def optionArguments (name : String) : Option String → List String
  | none => []
  | some value => [name, value]

/-- The command that adds an entry. -/
def addCommand (key : String) (entry : Entry) : Command :=
  "VADD" :: key :: vectorArguments writer entry.vector ++
    entry.id :: optionArguments "SETATTR" (entry.metadata.map Metadata.raw)

/-- The command that looks for the elements nearest to a vector. -/
def searchCommand (key : String) (query : FeatureVector) (p : Parameters) : Command :=
  "VSIM" :: key :: vectorArguments writer query ++
    ["WITHSCORES", "WITHATTRIBS", "COUNT", decimalText p.count] ++
    optionArguments "EPSILON" (p.tolerance.map writer.number) ++ optionArguments "FILTER" p.filter

/-- The command of a call. -/
def command : Call → Command
  | .add key entry => addCommand writer key entry
  | .remove key id => ["VREM", key, id]
  | .fetch key id => ["VEMB", key, id]
  | .search key query p => searchCommand writer key query p
  | .delete key => ["UNLINK", key]

end Commands

end SimilarityStore.Server
