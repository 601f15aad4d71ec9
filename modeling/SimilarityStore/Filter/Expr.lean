import SimilarityStore.Filter.Scalar

/-
  Filter expressions: Boolean trees over metadata attributes.  A leaf relates the attribute with a
  given key to an operand; inner nodes combine filters.
-/

namespace SimilarityStore.Filter

open SimilarityStore.Text

/-- How a leaf relates an attribute to its operand. -/
inductive Relation where
  | equal
  | notEqual
  | atLeast
  | greater
  | less
  | atMost
  | among
  | notAmong
  /-- The attribute contains the operand as a substring; filter texts cannot say this. -/
  | containing
deriving DecidableEq, Repr

/-- A filter over metadata attributes. -/
inductive Expr where
  | leaf (relation : Relation) (key : String) (operand : Operand)
  | and (left right : Expr)
  | or (left right : Expr)
  | not (inner : Expr)
deriving DecidableEq

/-- The kind of a filter's top node. -/
inductive Kind where
  | leaf (relation : Relation)
  | and
  | or
  | not
deriving DecidableEq, Repr

namespace Kind

/-- All kinds, in their fixed order. -/
def all : List Kind :=
  [leaf .equal, leaf .notEqual, leaf .atLeast, leaf .greater, leaf .less, leaf .atMost,
    leaf .among, leaf .notAmong, leaf .containing, and, or, not]

/-- The short name of a kind, in documents and messages. -/
def tag : Kind → String
  | leaf .equal => "eq"
  | leaf .notEqual => "neq"
  | leaf .atLeast => "gte"
  | leaf .greater => "gt"
  | leaf .less => "lt"
  | leaf .atMost => "lte"
  | leaf .among => "in"
  | leaf .notAmong => "not_in"
  | leaf .containing => "contains_string"
  | and => "and"
  | or => "or"
  | not => "not"

/-- The name of a kind in descriptions. -/
def title : Kind → String
  | leaf .equal => "Eq"
  | leaf .notEqual => "Neq"
  | leaf .atLeast => "Gte"
  | leaf .greater => "Gt"
  | leaf .less => "Lt"
  | leaf .atMost => "Lte"
  | leaf .among => "In"
  | leaf .notAmong => "NotIn"
  | leaf .containing => "ContainsString"
  | and => "And"
  | or => "Or"
  | not => "Not"

/-- The kind with a short name. -/
def ofTag? (s : String) : Option Kind := all.find? fun k => k.tag = s

theorem ofTag?_tag (k : Kind) : ofTag? k.tag = some k := by
  cases k with
  | leaf r => cases r <;> decide
  | _ => decide

end Kind

namespace Expr

/-- The attribute equals the value. -/
def eq (key : String) (value : Scalar) : Expr := leaf .equal key (.scalar value)

/-- The attribute differs from the value. -/
def neq (key : String) (value : Scalar) : Expr := leaf .notEqual key (.scalar value)

/-- The attribute is at least the value. -/
def gte (key : String) (value : Scalar) : Expr := leaf .atLeast key (.scalar value)

/-- The attribute is greater than the value. -/
def gt (key : String) (value : Scalar) : Expr := leaf .greater key (.scalar value)

/-- The attribute is less than the value. -/
def lt (key : String) (value : Scalar) : Expr := leaf .less key (.scalar value)

/-- The attribute is at most the value. -/
def lte (key : String) (value : Scalar) : Expr := leaf .atMost key (.scalar value)

/-- The attribute is one of the values. -/
def isIn (key : String) (values : List Scalar) : Expr := leaf .among key (.set values)

/-- The attribute is none of the values. -/
def notIn (key : String) (values : List Scalar) : Expr := leaf .notAmong key (.set values)

/-- The attribute contains a substring. -/
def containsString (key value : String) : Expr := leaf .containing key (.scalar (.text value))

/-- The kind of the top node. -/
def kind : Expr → Kind
  | leaf r _ _ => .leaf r
  | and _ _ => .and
  | or _ _ => .or
  | not _ => .not

/-- The filter's structural description. -/
def describe : Expr → String
  | leaf r key operand =>
    describeRecord (Kind.leaf r).title [("key", quoted key), ("value", operand.describe)]
  | and left right =>
    describeRecord Kind.and.title [("left", left.describe), ("right", right.describe)]
  | or left right =>
    describeRecord Kind.or.title [("left", left.describe), ("right", right.describe)]
  | not inner => describeRecord Kind.not.title [("expr", inner.describe)]

end Expr

end SimilarityStore.Filter
