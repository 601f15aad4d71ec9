import SimilarityStore.Numeric.Binary

/-
  Floating-point values through their bit patterns.  A type of such values has a format and a word
  with a sign bit; classification, order and conversion are integer arithmetic on the word.
-/

namespace SimilarityStore.Numeric

/-- A type of floating-point values, seen as bit patterns. -/
class FloatingPoint (F : Type) where
  /-- The format of the values. -/
  format : Format
  /-- The bit pattern, sign bit included. -/
  word : F → Nat
  /-- The value with a bit pattern. -/
  ofWord : Nat → F

instance : FloatingPoint Float where
  format := binary64
  word x := x.toBits.toNat
  ofWord n := Float.ofBits (UInt64.ofNat n)

instance : FloatingPoint Float32 where
  format := binary32
  word x := x.toBits.toNat
  ofWord n := Float32.ofBits (UInt32.ofNat n)

namespace FloatingPoint

variable {F G : Type} [FloatingPoint F] [FloatingPoint G]

/-- Whether the sign bit is set. -/
def isNegative (x : F) : Bool := (format F).signBit ≤ word x

/-- The bit pattern without its sign bit. -/
def magnitude (x : F) : Nat := word x % (format F).signBit

/-- Whether the value is not a number. -/
def isNaN (x : F) : Bool := (format F).infinity < magnitude x

/-- Whether the value is a number and not infinite. -/
def isFinite (x : F) : Bool := magnitude x < (format F).infinity

/-- The place of a number in the order of its type; both zeros have the place zero. -/
def rank (x : F) : Int := if isNegative x then -(magnitude x : Int) else magnitude x

/-- How two values compare; a value that is not a number compares with nothing. -/
def order? (x y : F) : Option Ordering :=
  if isNaN x || isNaN y then none else some (compare (rank x) (rank y))

/-- Numbers compare as their places do. -/
theorem order?_eq {x y : F} (hx : isNaN x = false) (hy : isNaN y = false) :
    order? x y = some (compare (rank x) (rank y)) := by
  rw [order?, hx, hy]
  rfl

/-- Whether the first value is a number below the second. -/
def isLess (x y : F) : Bool := order? x y == some .lt

/-- Whether the first value is a number not below the second. -/
def isAtLeast (x y : F) : Bool := (order? x y).any (· != .lt)

/-- Whether the value is one of the two zeros. -/
def isZero (x : F) : Bool := magnitude x = 0

/-- The value with a sign and a magnitude word. -/
def ofMagnitude (negative : Bool) (m : Nat) : F :=
  ofWord (if negative then (format F).signBit + m else m)

/-- The value nearest to an integer. -/
def ofInt (i : Int) : F := ofMagnitude (i < 0) ((format F).nearest i.natAbs 1)

/-- The value nearest to `± significand * 10 ^ exponent`; the sign of a zero is kept. -/
def ofDecimal (negative : Bool) (significand : Nat) (exponent : Int) : F :=
  ofMagnitude negative ((format F).nearestDecimal significand exponent)

/-- A value that is not a number. -/
def notANumber : F := ofWord ((format F).infinity + 2 ^ ((format F).fraction - 1))

/-- The positive or negative infinite value. -/
def infinite (negative : Bool) : F := ofMagnitude negative (format F).infinity

/-- The value of another type nearest to this one; signs, infinities and the lack of a number are
kept. -/
def convert (x : F) : G :=
  if isNaN x then notANumber
  else if isFinite x then
    ofMagnitude (isNegative x)
      ((format G).nearest ((format F).units (magnitude x)) (2 ^ (format F).scale))
  else infinite (isNegative x)

end FloatingPoint

end SimilarityStore.Numeric
