import SimilarityStore.Json.Decode
import SimilarityStore.Text.Description
import SimilarityStore.Text.Quoted

/-
  Scalars: the single literals that metadata attributes are compared with.  In a document a scalar
  is a null, truth value, number or string; whole numbers that fit 64 signed bits are integers and
  all other numbers are reals.
-/

namespace SimilarityStore.Filter

open SimilarityStore.Json SimilarityStore.Numeric SimilarityStore.Text

/-- A literal that an attribute is compared with. -/
inductive Scalar where
  | null
  | bool (b : Bool)
  | int (i : Int64)
  | real (x : Float)
  | text (s : String)
deriving DecidableEq, Inhabited

/-- The right-hand side of a comparison: one literal or a set of literals. -/
inductive Operand where
  | scalar (s : Scalar)
  | set (items : List Scalar)
deriving DecidableEq

namespace Scalar

instance : Coe String Scalar := ⟨text⟩
instance : Coe Bool Scalar := ⟨bool⟩
instance : Coe Int64 Scalar := ⟨int⟩
instance : Coe Float Scalar := ⟨real⟩

/-- An optional scalar; a missing one is null. -/
def ofOption (s : Option Scalar) : Scalar := s.getD null

/-- Whether the scalar is null. -/
def isNull : Scalar → Bool
  | null => true
  | _ => false

/-- The scalar's structural description. -/
def describe : Scalar → String
  | null => "Null"
  | bool b => describeCase "Bool" [describeBool b]
  | int i => describeCase "Int" [signedText i.toInt]
  | real x => describeCase "Float" [NumberStyle.descriptive.spell x]
  | text s => describeCase "Str" [quoted s]

/-- The scalar as a document. -/
def toDocument : Scalar → Document
  | null => .null
  | bool b => .bool b
  | int i => .ofInt i.toInt
  | real x => Number.ofFloat x
  | text s => .ofString s

/-- The scalar that a number stands for. -/
def ofNumber : Number → Scalar
  | .int i =>
    if -2 ^ 63 ≤ i ∧ i < 2 ^ 63 then int (Int64.ofInt i) else real (FloatingPoint.ofInt i)
  | .real x => real x

/-- The scalar that a document stands for. -/
def ofDocument? : Document → Option Scalar
  | .null => some null
  | .bool b => some (bool b)
  | .number n => (Number.ofNumeral? n).map ofNumber
  | .text s => s.map text
  | _ => none

end Scalar

namespace Operand

/-- The operand's structural description. -/
def describe : Operand → String
  | scalar s => describeCase "Scalar" [s.describe]
  | set items => describeCase "Set" [describeList (items.map Scalar.describe)]

/-- The operand as a document. -/
def toDocument : Operand → Document
  | scalar s => s.toDocument
  | set items => .array (items.map Scalar.toDocument)

/-- The operand that a document stands for. -/
def ofDocument? : Document → Option Operand
  | .array items => (items.mapM Scalar.ofDocument?).map set
  | d => (Scalar.ofDocument? d).map scalar

end Operand

end SimilarityStore.Filter
