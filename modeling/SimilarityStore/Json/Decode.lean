import SimilarityStore.Json.Value

/-
  Decoding documents into records.  A record is an object in which each field stands at most once
  and other members are passed over, or an array of all fields in order.  What is passed over need
  not have a value, but the names of all members must be texts.
-/

namespace SimilarityStore.Json

/-- The fields of a record: present ones, in the order of the declared names, and missing ones. -/
abbrev Fields := List (Option Document)

namespace Document

/-- A text. -/
def asText? : Document → Option String
  | text s => s
  | _ => none

/-- A number. -/
def asNumber? : Document → Option Number
  | number n => Number.ofNumeral? n
  | _ => none

/-- A number in double precision. -/
def asFloat? (d : Document) : Option Float := d.asNumber?.map Number.toFloat

/-- A number in single precision. -/
def asFloat32? (d : Document) : Option Float32 := d.asNumber?.map Number.toFloat32

/-- A natural number below `2 ^ 64`; a number with a point or a power of ten is none. -/
def asNat? (d : Document) : Option Nat :=
  match d.asNumber? with
  | some (.int i) => if 0 ≤ i then some i.toNat else none
  | _ => none

/-- An array whose items are all decoded. -/
def asList? {α : Type} (decode : Document → Option α) : Document → Option (List α)
  | array items => items.mapM decode
  | _ => none

/-- `null`, or a decoded value. -/
def asOption? {α : Type} (decode : Document → Option α) : Document → Option (Option α)
  | null => some none
  | d => (decode d).map some

/-- The values of all members of a name. -/
def valuesOf (name : String) (members : List (Option String × Document)) : List Document :=
  members.filterMap fun (n, v) => if n = some name then some v else none

/-- The value of a field that stands at most once; none if it stands twice. -/
def field? (name : String) (members : List (Option String × Document)) :
    Option (Option Document) :=
  match valuesOf name members with
  | [] => some none
  | [v] => some (some v)
  | _ => none

/-- The fields of a record with the given names. -/
def fields? (names : List String) : Document → Option Fields
  | object members =>
    if members.all fun m => m.1.isSome then names.mapM (field? · members) else none
  | array items => if items.length = names.length then some (items.map some) else none
  | _ => none

end Document

/-- A field that has to be present. -/
def required? {α : Type} (decode : Document → Option α) (field : Option Document) : Option α :=
  field.bind decode

/-- A field that may be missing or `null`. -/
def optional? {α : Type} (decode : Document → Option α) (field : Option Document) :
    Option (Option α) :=
  match field with
  | none => some none
  | some d => d.asOption? decode

end SimilarityStore.Json
