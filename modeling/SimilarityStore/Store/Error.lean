import SimilarityStore.Numeric.Digit

/-
  The errors of a store, by cause, and their wording.
-/

namespace SimilarityStore.Store

open SimilarityStore.Numeric

/-- What is wrong with an input. -/
inductive InputFault where
  | emptyVector
  /-- The component at a position is infinite or not a number. -/
  | badComponent (position : Nat)
  | blankText
deriving DecidableEq, Repr

/-- The wording of an input fault. -/
def InputFault.message : InputFault → String
  | emptyVector => "vector cannot be empty"
  | badComponent position =>
    "vector component " ++ decimalText position ++ " is not a finite number"
  | blankText => "text cannot be empty"

/-- What is wrong with a configuration. -/
inductive ConfigFault where
  | blankUrl
  | blankKey
  | zeroTimeout
deriving DecidableEq, Repr

/-- The wording of a configuration fault. -/
def ConfigFault.message : ConfigFault → String
  | blankUrl => "server URL cannot be empty"
  | blankKey => "vector-set key cannot be empty"
  | zeroTimeout => "connect timeout must be at least one second"

/-- Why an operation failed. -/
inductive StoreError where
  /-- An input is rejected, with the words of what is wrong with it. -/
  | invalidInput (message : String)
  | dimensionMismatch (expected actual : Nat)
  /-- A batch that had to yield an id yielded none. -/
  | emptyBatch
  /-- A named backend failed. -/
  | backend (name message : String)
  /-- A configuration is rejected, with the words of what is wrong with it. -/
  | config (message : String)
  /-- A text is no document of the expected kind, or a value has no document. -/
  | serialization
  /-- The server could not be reached, refused a command, or sent an unexpected reply. -/
  | server
deriving DecidableEq, Repr

/-- The wording of an error; the last two are worded by whoever detects them. -/
def StoreError.message? : StoreError → Option String
  | invalidInput message => some ("Invalid input: " ++ message)
  | dimensionMismatch expected actual =>
    some ("Invalid vector dimension: expected " ++ decimalText expected ++ ", got " ++
      decimalText actual)
  | emptyBatch => some "Batch insert returned no identifiers"
  | backend name message => some (name ++ " backend error: " ++ message)
  | config message => some ("Configuration error: " ++ message)
  | serialization => none
  | server => none

end SimilarityStore.Store
