import SimilarityStore.Json.Value
import SimilarityStore.Predicate.Term

/-
  Evaluating terms against the attributes of an element.  A selector without an attribute has no
  value, and nothing compares with a missing value.  Values of different kinds, and lists, have no
  order; they only differ.
-/

namespace SimilarityStore.Predicate

open SimilarityStore.Json (lookup?)
open SimilarityStore.Numeric

/-- The attributes of an element, by name. -/
abbrev Attributes := List (String × Json.Value)

namespace Value

mutual

/-- The value of an attribute; an object counts as null. -/
def ofJson : Json.Value → Value
  | .null => null
  | .bool b => bool b
  | .number n => number n.toFloat
  | .text s => text s
  | .array items => list (ofJsonItems items)
  | .object _ => null

/-- The values of all items. -/
def ofJsonItems : List Json.Value → List Value
  | [] => []
  | item :: items => ofJson item :: ofJsonItems items

end

/-- Whether a value counts as true. -/
def isTrue : Value → Bool
  | null => false
  | bool b => b
  | number x => !FloatingPoint.isZero x
  | text s => !s.isEmpty
  | list items => !items.isEmpty

/-- How two values compare, if they are of one kind and have an order. -/
def order? : Value → Value → Option Ordering
  | number x, number y => FloatingPoint.order? x y
  | text s, text t => some (compare s t)
  | bool a, bool b => some (compare a.toNat b.toNat)
  | null, null => some .eq
  | _, _ => none

end Value

/-- Whether a comparison holds for an order; without an order only inequality does. -/
def Comparison.holds : Comparison → Option Ordering → Bool
  | equal, o => o == some .eq
  | notEqual, o => o != some .eq
  | greater, o => o == some .gt
  | atLeast, o => o == some .gt || o == some .eq
  | less, o => o == some .lt
  | atMost, o => o == some .lt || o == some .eq

/-- Whether a text occurs inside another one. -/
def occursIn (part : List Char) : List Char → Bool
  | [] => part.isEmpty
  | c :: cs => part.isPrefixOf (c :: cs) || occursIn part cs

namespace Value

/-- Whether a value is an item of a list or a text inside a text. -/
def contains (whole part : Value) : Bool :=
  match whole, part with
  | list items, _ => items.any fun item => Comparison.equal.holds (order? part item)
  | text s, text t => occursIn t.toList s.toList
  | _, _ => false

end Value

/-- A test of two values that fails when one of them is missing. -/
def testBoth (test : Value → Value → Bool) : Option Value → Option Value → Bool
  | some l, some r => test l r
  | _, _ => false

namespace Term

mutual

/-- The value of a term, if it has one. -/
def eval (attributes : Attributes) : Term → Option Value
  | literal value => some value
  | selector name => (lookup? name attributes).map Value.ofJson
  | list items => some (.list (evalItems attributes items))
  | compare comparison left right =>
    some (.bool (testBoth (fun l r => comparison.holds (l.order? r)) (eval attributes left)
      (eval attributes right)))
  | isIn left right =>
    some (.bool (testBoth (fun l r => r.contains l) (eval attributes left)
      (eval attributes right)))
  | notIn left right =>
    some (.bool (testBoth (fun l r => !r.contains l) (eval attributes left)
      (eval attributes right)))
  | and left right =>
    some (.bool
      ((eval attributes left).any Value.isTrue && (eval attributes right).any Value.isTrue))
  | or left right =>
    some (.bool
      ((eval attributes left).any Value.isTrue || (eval attributes right).any Value.isTrue))
  | not inner => some (.bool (!(eval attributes inner).any Value.isTrue))

/-- The values of the items that have one. -/
def evalItems (attributes : Attributes) : List Term → List Value
  | [] => []
  | item :: items =>
    match eval attributes item with
    | some v => v :: evalItems attributes items
    | none => evalItems attributes items

end

/-- The attributes in a text; none unless it holds an object. -/
def attributesOf (raw : Option String) : Attributes :=
  match raw.bind Json.Value.read? with
  | some (.object members) => members
  | _ => []

/-- Whether an element with these attributes passes. -/
def accepts (term : Term) (raw : Option String) : Bool :=
  (term.eval (attributesOf raw)).any Value.isTrue

end Term

end SimilarityStore.Predicate
