import SimilarityStore.Json.Document
import SimilarityStore.Numeric.NumberStyle

/-
  Numbers of documents.  A numeral without point and power of ten is an integer when it lies
  between `-2 ^ 63` and `2 ^ 64 - 1`; every other numeral is a double-precision value.  That value
  is found by scaling: as many leading digits as fit a 64-bit word are kept as an integer, which is
  multiplied or divided by a power of ten in double precision.  So it can differ from the nearest
  value in the last place.  A numeral whose value would be infinite is no number.
-/

namespace SimilarityStore.Json

open SimilarityStore.Numeric

/-- A number of a document. -/
inductive Number where
  | int (i : Int)
  | real (x : Float)
deriving DecidableEq

namespace Number

/-- The number in double precision. -/
def toFloat : Number → Float
  | int i => FloatingPoint.ofInt i
  | real x => x

/-- The number in single precision. -/
def toFloat32 : Number → Float32
  | int i => FloatingPoint.ofInt i
  | real x => FloatingPoint.convert x

/-- Extends a 64-bit word by digits as long as they fit; also gives the digits left over. -/
def absorb (word : Nat) : List Digit → Nat × List Digit
  | [] => (word, [])
  | d :: ds =>
    if 10 * word + d.val < 2 ^ 64 then absorb (10 * word + d.val) ds else (word, d :: ds)

/-- The greatest power of ten that scaling uses in one step. -/
def scaleStep : Nat := 308

/-- A power of ten in double precision. -/
def powerOfTen (n : Nat) : Float := FloatingPoint.ofDecimal false 1 n

/-- Division by a power of ten, in steps. -/
def scaleDown (x : Float) (n : Nat) : Float :=
  if n ≤ scaleStep then x / powerOfTen n
  else if FloatingPoint.isZero x then x
  else scaleDown (x / powerOfTen scaleStep) (n - scaleStep)
termination_by n
decreasing_by simp only [scaleStep] at *; omega

/-- Multiplication by a power of ten; none if the result is infinite. -/
def scaleUp? (x : Float) (n : Nat) : Option Float :=
  if n ≤ scaleStep then
    let y := x * powerOfTen n
    if FloatingPoint.isFinite y then some y else none
  else if FloatingPoint.isZero x then some x
  else none

/-- The value `± word * 10 ^ exponent` by scaling. -/
def scaled? (negative : Bool) (word : Nat) (exponent : Int) : Option Float :=
  let x : Float := FloatingPoint.ofInt word
  let y? := if 0 ≤ exponent then scaleUp? x exponent.toNat else some (scaleDown x exponent.natAbs)
  y?.map fun y => if negative then -y else y

/-- The double-precision value of a numeral. -/
def realOf? (n : Numeral) : Option Float :=
  let (word, left) := absorb 0 n.whole
  let (word, leftAfter) := absorb word n.fraction
  let taken := n.fraction.length - leftAfter.length
  scaled? n.negative word (n.exponent.getD 0 + left.length - taken)

/-- The number that a numeral stands for. -/
def ofNumeral? (n : Numeral) : Option Number :=
  let value := ofDigits n.whole
  let whole := n.fraction.isEmpty && n.exponent.isNone
  if whole && !n.negative && value < 2 ^ 64 then some (int value)
  else if whole && n.negative && 0 < value && value ≤ 2 ^ 63 then some (int (-(value : Int)))
  else (realOf? n).map real

/-- A value of a document in double precision; infinities and values that are not numbers have no
numeral. -/
def documentOf {F : Type} [FloatingPoint F] (style : NumberStyle) (x : F) : Document :=
  if FloatingPoint.isFinite x then .number (style.numeral x) else .null

/-- A double-precision value as a document. -/
def ofFloat (x : Float) : Document := documentOf NumberStyle.document x

/-- A single-precision value as a document. -/
def ofFloat32 (x : Float32) : Document := documentOf NumberStyle.documentSingle x

/-- The number as a document. -/
def toDocument : Number → Document
  | int i => .ofInt i
  | real x => ofFloat x

end Number

end SimilarityStore.Json
