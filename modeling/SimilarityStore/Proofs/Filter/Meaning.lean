import SimilarityStore.Filter.Expr
import SimilarityStore.Json.Value

/-
  What filters mean, said directly on the attributes of an element: `Expr.Admits`.  Nothing here
  mentions filter texts, tokens or their terms.  A leaf holds of a present attribute only; values of
  one kind have an order, and values of different kinds only differ.
-/

namespace SimilarityStore.Filter

open SimilarityStore.Json SimilarityStore.Numeric

/-- The attribute with a key in a text: the member of that name, if the text holds an object. -/
def memberOf? (raw : Option String) (key : String) : Option Json.Value :=
  match raw.bind Json.Value.read? with
  | some (.object members) => lookup? key members
  | _ => none

/-! ## Leaves -/

/-- How an attribute compares with a scalar of its kind; an object counts as null. -/
def Scalar.order? (v : Json.Value) (s : Scalar) : Option Ordering :=
  match v, s with
  | .number n, int i => FloatingPoint.order? n.toFloat (FloatingPoint.ofInt i.toInt)
  | .number n, real x => FloatingPoint.order? n.toFloat x
  | .text t, text u => some (compare t u)
  | .bool a, bool b => some (compare a.toNat b.toNat)
  | .null, null | .object _, null => some .eq
  | _, _ => none

namespace Operand

/-- How an attribute compares with an operand; nothing has an order with a set. -/
def order? (v : Json.Value) : Operand → Option Ordering
  | scalar s => s.order? v
  | set _ => none

/-- Whether an attribute is among the items of a set that are not null, or is a text that occurs
inside a text. -/
def Includes (v : Json.Value) (operand : Operand) : Prop :=
  match operand, v with
  | set items, _ => ∃ s ∈ items, s.isNull = false ∧ s.order? v = some .eq
  | scalar (.text u), .text t => t.toList <:+: u.toList
  | _, _ => False

/-- Whether an attribute is a text inside which a text occurs. -/
def IsContained (v : Json.Value) (operand : Operand) : Prop :=
  match operand, v with
  | scalar (.text u), .text t => u.toList <:+: t.toList
  | _, _ => False

-- Of several procedures for occurrences the core one is taken.
attribute [local instance (1100)] List.instDecidableIsInfixOfDecidableEq

instance (v : Json.Value) (operand : Operand) : Decidable (operand.Includes v) := by
  unfold Includes
  split <;> infer_instance

instance (v : Json.Value) (operand : Operand) :
    Decidable (operand.IsContained v) := by
  unfold IsContained
  split <;> infer_instance

end Operand

/-- Whether an attribute is related to an operand. -/
def Relation.Holds (v : Json.Value) (operand : Operand) : Relation → Prop
  | equal => operand.order? v = some .eq
  | notEqual => operand.order? v ≠ some .eq
  | atLeast => operand.order? v = some .gt ∨ operand.order? v = some .eq
  | greater => operand.order? v = some .gt
  | less => operand.order? v = some .lt
  | atMost => operand.order? v = some .lt ∨ operand.order? v = some .eq
  | among => operand.Includes v
  | notAmong => ¬ operand.Includes v
  | containing => operand.IsContained v

instance (v : Json.Value) (operand : Operand) (r : Relation) :
    Decidable (r.Holds v operand) := by
  cases r <;> unfold Relation.Holds <;> infer_instance

/-! ## Filters -/

namespace Expr

/-- Whether a filter lets an element with these attributes through. -/
def Admits (attributes : String → Option Json.Value) : Expr → Prop
  | leaf r key operand => ∃ v, attributes key = some v ∧ r.Holds v operand
  | and left right => left.Admits attributes ∧ right.Admits attributes
  | or left right => left.Admits attributes ∨ right.Admits attributes
  | not inner => ¬ inner.Admits attributes

/-- Filters are decided leaf by leaf. -/
def decideAdmits (attributes : String → Option Json.Value) :
    (e : Expr) → Decidable (e.Admits attributes)
  | leaf r key operand =>
    match h : attributes key with
    | none => isFalse (by simp [Admits, h])
    | some v => decidable_of_iff (r.Holds v operand) (by simp [Admits, h])
  | and left right =>
    have := left.decideAdmits attributes
    have := right.decideAdmits attributes
    inferInstanceAs (Decidable (_ ∧ _))
  | or left right =>
    have := left.decideAdmits attributes
    have := right.decideAdmits attributes
    inferInstanceAs (Decidable (_ ∨ _))
  | not inner =>
    have := inner.decideAdmits attributes
    inferInstanceAs (Decidable (¬ _))

instance (attributes : String → Option Json.Value) (e : Expr) :
    Decidable (e.Admits attributes) := e.decideAdmits attributes

end Expr

/-! ## Filters that can be written -/

/-- A name: an ASCII letter or an underscore, and letters, digits and underscores behind it. -/
def IsName (key : String) : Prop :=
  ∃ c cs, key.toList = c :: cs ∧ (c.isAlpha = true ∨ c = '_') ∧
    ∀ d ∈ cs, d.isAlphanum = true ∨ d = '_'

/-- No double quote stands in the scalar's text, if it has one. -/
def Scalar.IsUnquoted : Scalar → Prop
  | text s => '"' ∉ s.toList
  | _ => True

/-- No double quote stands in any text of the operand. -/
def Operand.IsUnquoted : Operand → Prop
  | scalar s => s.IsUnquoted
  | set items => ∀ s ∈ items, s.IsUnquoted

/-- The keys of a filter, from left to right. -/
def Expr.keys : Expr → List String
  | leaf _ key _ => [key]
  | and left right => left.keys ++ right.keys
  | or left right => left.keys ++ right.keys
  | not inner => inner.keys

/-- The operands of a filter, from left to right. -/
def Expr.operands : Expr → List Operand
  | leaf _ _ operand => [operand]
  | and left right => left.operands ++ right.operands
  | or left right => left.operands ++ right.operands
  | not inner => inner.operands

/-- All keys are names, and no text holds a double quote, which no filter text can say. -/
def Expr.IsWritable : Expr → Prop
  | leaf _ key operand => IsName key ∧ operand.IsUnquoted
  | and left right => left.IsWritable ∧ right.IsWritable
  | or left right => left.IsWritable ∧ right.IsWritable
  | not inner => inner.IsWritable

end SimilarityStore.Filter
