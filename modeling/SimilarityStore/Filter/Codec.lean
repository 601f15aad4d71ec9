import SimilarityStore.Filter.Expr

/-
  Filters as documents.  A filter is an object with the short name of its kind under `op` and one
  member for each part, or an array of the kind and all parts in order.  The whole document must
  have a value, members of other names are passed over, and no part may stand twice.  The kind of a
  filter inside another one may also be given by its number.
-/

namespace SimilarityStore.Filter

open SimilarityStore.Json

namespace Expr

/-- The filter as a document. -/
def toDocument : Expr → Document
  | leaf r key operand =>
    .ofFields [("op", .ofString (Kind.leaf r).tag), ("key", .ofString key),
      ("value", operand.toDocument)]
  | and left right =>
    .ofFields [("op", .ofString Kind.and.tag), ("left", left.toDocument),
      ("right", right.toDocument)]
  | or left right =>
    .ofFields [("op", .ofString Kind.or.tag), ("left", left.toDocument),
      ("right", right.toDocument)]
  | not inner => .ofFields [("op", .ofString Kind.not.tag), ("expr", inner.toDocument)]

/-- The names of the parts of a kind of filter. -/
def partNames : Kind → List String
  | .leaf _ => ["key", "value"]
  | .and | .or => ["left", "right"]
  | .not => ["expr"]

/-- A kind given by its short name. -/
def kindByName? (d : Document) : Option Kind := d.asText?.bind Kind.ofTag?

/-- A kind given by its short name or its number. -/
def kindByNameOrNumber? (d : Document) : Option Kind :=
  match d with
  | .number _ => d.asNat?.bind fun n => Kind.all[n]?
  | _ => kindByName? d

/-- The kind and the parts of a filter. -/
def split? (kind? : Document → Option Kind) : Document → Option (Kind × List Document)
  | .object members => do
    let tag ← Document.field? "op" members
    let kind ← required? kind? tag
    let parts ← (partNames kind).mapM fun name => (Document.field? name members).bind id
    return (kind, parts)
  | .array (tag :: parts) => (kind? tag).map fun kind => (kind, parts)
  | _ => none

/-- The filter that a document stands for, of which at most `depth` levels are looked at. -/
def decode? (kind? : Document → Option Kind) : Nat → Document → Option Expr
  | 0, _ => none
  | depth + 1, d =>
    match split? kind? d with
    | some (.leaf r, [key, value]) => do
      let key ← key.asText?
      let operand ← Operand.ofDocument? value
      return leaf r key operand
    | some (.and, [left, right]) => do
      let l ← decode? kindByNameOrNumber? depth left
      let r ← decode? kindByNameOrNumber? depth right
      return and l r
    | some (.or, [left, right]) => do
      let l ← decode? kindByNameOrNumber? depth left
      let r ← decode? kindByNameOrNumber? depth right
      return or l r
    | some (.not, [inner]) => do
      let i ← decode? kindByNameOrNumber? depth inner
      return not i
    | _ => none

/-- The filter that a document stands for, if at most `depth` arrays and objects are open in it at
once. -/
def ofDocument? (depth : Nat) (d : Document) : Option Expr :=
  if d.isSound depth then decode? kindByName? depth d else none

/-- The filter that a text holds, if it holds one. -/
def read? (s : String) : Option Expr := (Document.read? s).bind (ofDocument? nestingLimit)

/-- The filter as a text, without blanks. -/
def write (e : Expr) : String := e.toDocument.write

end Expr

end SimilarityStore.Filter
