import SimilarityStore.Predicate.Token

/-
  Terms: the syntax trees of filter texts, and the values that they are evaluated to.
-/

namespace SimilarityStore.Predicate

open SimilarityStore.Numeric SimilarityStore.Text

/-- The comparisons of filter texts. -/
inductive Comparison where
  | equal
  | notEqual
  | greater
  | atLeast
  | less
  | atMost
deriving DecidableEq, Repr

/-- The comparison that an operator stands for, if it stands for one. -/
def Operator.comparison? : Operator → Option Comparison
  | equal => some .equal
  | notEqual => some .notEqual
  | greater => some .greater
  | atLeast => some .atLeast
  | less => some .less
  | atMost => some .atMost
  | and | or | not => none

/-- What filter texts compute with. -/
inductive Value where
  | null
  | bool (b : Bool)
  | number (x : Float)
  | text (s : String)
  | list (items : List Value)

/-- A syntax tree of a filter text. -/
inductive Term where
  | literal (value : Value)
  | selector (name : String)
  | list (items : List Term)
  | compare (comparison : Comparison) (left right : Term)
  | isIn (left right : Term)
  | notIn (left right : Term)
  | and (left right : Term)
  | or (left right : Term)
  | not (inner : Term)

/-- The comparison's name in descriptions. -/
def Comparison.describe : Comparison → String
  | equal => "Eq"
  | notEqual => "Ne"
  | greater => "Gt"
  | atLeast => "Ge"
  | less => "Lt"
  | atMost => "Le"

namespace Value

mutual

/-- The value's structural description. -/
def describe : Value → String
  | null => "Null"
  | bool b => describeCase "Bool" [describeBool b]
  | number x => describeCase "Num" [NumberStyle.descriptive.spell x]
  | text s => describeCase "Str" [quoted s]
  | list items => describeCase "List" [describeList (describeAll items)]

/-- The descriptions of all items. -/
def describeAll : List Value → List String
  | [] => []
  | item :: items => describe item :: describeAll items

end

end Value

namespace Term

mutual

/-- The term's structural description. -/
def describe : Term → String
  | literal value => describeCase "Literal" [value.describe]
  | selector name => describeCase "Selector" [quoted name]
  | list items => describeCase "List" [describeList (describeAll items)]
  | compare comparison left right =>
    describeCase "Compare" [comparison.describe, describe left, describe right]
  | isIn left right => describeCase "In" [describe left, describe right]
  | notIn left right => describeCase "NotIn" [describe left, describe right]
  | and left right => describeCase "And" [describe left, describe right]
  | or left right => describeCase "Or" [describe left, describe right]
  | not inner => describeCase "Not" [describe inner]

/-- The descriptions of all items. -/
def describeAll : List Term → List String
  | [] => []
  | item :: items => describe item :: describeAll items

end

/-- The structural description of a term that is a whole predicate. -/
def describePredicate (t : Term) : String := describeRecord "Predicate" [("root", t.describe)]

end Term

end SimilarityStore.Predicate
