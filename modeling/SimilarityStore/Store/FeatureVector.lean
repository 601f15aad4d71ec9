import SimilarityStore.Json.Decode
import SimilarityStore.Store.Error
import SimilarityStore.Text.Description

/-
  Feature vectors: what elements are stored under and looked up by.  Components are in single
  precision, and so is all arithmetic on them, from left to right.
-/

namespace SimilarityStore.Store

open SimilarityStore.Json SimilarityStore.Numeric SimilarityStore.Text

/-- A vector of single-precision components. -/
structure FeatureVector where
  components : List Float32
deriving DecidableEq, Inhabited

namespace FeatureVector

/-- The number of components. -/
def dimension (v : FeatureVector) : Nat := v.components.length

/-- Whether there are no components. -/
def isEmpty (v : FeatureVector) : Bool := v.components.isEmpty

/-- The sum from left to right.  It starts at the negative zero, which adds nothing to any value. -/
def sum (xs : List Float32) : Float32 := xs.foldl (· + ·) (FloatingPoint.ofMagnitude true 0)

/-- The products of corresponding components, summed. -/
def dot (v w : FeatureVector) : Float32 := sum (List.zipWith (· * ·) v.components w.components)

/-- The Euclidean length. -/
def length (v : FeatureVector) : Float32 := (v.dot v).sqrt

/-- The cosine of the angle between two vectors; zero if their dimensions differ or one of them has
length zero. -/
def cosine (v w : FeatureVector) : Float32 :=
  if v.dimension ≠ w.dimension then FloatingPoint.ofInt 0
  else if FloatingPoint.isZero v.length || FloatingPoint.isZero w.length then FloatingPoint.ofInt 0
  else v.dot w / (v.length * w.length)

/-- The cosine moved from `[-1, 1]` to `[0, 1]`, in double precision. -/
def score (query candidate : FeatureVector) : Float :=
  (FloatingPoint.ofInt 1 + FloatingPoint.convert (query.cosine candidate)) / FloatingPoint.ofInt 2

/-- Why a vector can be neither stored nor looked up, if it cannot: it is empty, or a component is
not finite. -/
def fault? (v : FeatureVector) : Option InputFault :=
  if v.isEmpty then some .emptyVector
  else (v.components.findIdx? fun x => !FloatingPoint.isFinite x).map .badComponent

/-- Checks that a vector can be stored and looked up. -/
def validate (v : FeatureVector) : Except StoreError Unit :=
  match v.fault? with
  | some fault => .error (.invalidInput fault.message)
  | none => .ok ()

/-- The vector's structural description. -/
def describe (v : FeatureVector) : String :=
  describeRecord "Vector"
    [("data", describeList (v.components.map NumberStyle.descriptive.spell))]

/-- The vector as a document. -/
def toDocument (v : FeatureVector) : Document := .array (v.components.map Number.ofFloat32)

/-- The vector that a document stands for. -/
def ofDocument? (d : Document) : Option FeatureVector := (d.asList? Document.asFloat32?).map mk

end FeatureVector

end SimilarityStore.Store
