/-
  Binary interchange formats.  The finite magnitudes of a format are whole numbers of units, one
  unit being its smallest positive value, and are numbered in increasing order by words: `units`
  gives the magnitude that a word stands for and `nearest` the word of a quotient, rounded to
  nearest with ties to even.  A word is the bit pattern without its sign bit.
-/

namespace SimilarityStore.Numeric

-- The core instance takes the powers of numbers also where a library brings more general ones.
attribute [instance (1100), default_instance (20000)] instPowNat

/-- A binary format: `fraction` stored significand bits, a unit of `2 ^ (-scale)`, and finite
values for exponent fields below `top`. -/
structure Format where
  /-- Stored bits of the significand. -/
  fraction : Nat
  /-- The unit is this many binary places below one. -/
  scale : Nat
  /-- The exponent field of infinities and values that are not numbers. -/
  top : Nat
deriving DecidableEq, Repr

/-- The format of double precision. -/
def binary64 : Format := ⟨52, 1074, 2047⟩

/-- The format of single precision. -/
def binary32 : Format := ⟨23, 149, 255⟩

/-- A quotient rounded to the nearest integer, a half to the even neighbour. -/
def roundDiv (num den : Nat) : Nat :=
  let q := num / den
  let r := num % den
  if 2 * r < den then q else if den < 2 * r then q + 1 else q + q % 2

namespace Format

/-- The weight of the sign bit. -/
def signBit (f : Format) : Nat := (f.top + 1) * 2 ^ f.fraction

/-- The word of the infinite magnitude; greater words stand for no number. -/
def infinity (f : Format) : Nat := f.top * 2 ^ f.fraction

/-- The magnitude that a finite word stands for, in units. -/
def units (f : Format) (word : Nat) : Nat :=
  if word < 2 ^ f.fraction then word
  else (2 ^ f.fraction + word % 2 ^ f.fraction) * 2 ^ (word / 2 ^ f.fraction - 1)

/-- The word of the magnitude nearest to `num / den`, ties to even; infinite from half a step
beyond the greatest finite magnitude. -/
def nearest (f : Format) (num den : Nat) : Nat :=
  let scaled := num * 2 ^ f.scale
  let shift := (scaled / den).log2 - f.fraction
  min f.infinity (shift * 2 ^ f.fraction + roundDiv scaled (den * 2 ^ shift))

/-- Decimal exponents beyond this bound overflow or vanish in every format of this module. -/
def decimalReach : Nat := 400

/-- The word of the magnitude nearest to `significand * 10 ^ exponent`. -/
def nearestDecimal (f : Format) (significand : Nat) (exponent : Int) : Nat :=
  if significand = 0 then 0
  else if exponent > decimalReach then f.infinity
  else if exponent < -(decimalReach + significand.log2 : Int) then 0
  else if exponent < 0 then f.nearest significand (10 ^ exponent.natAbs)
  else f.nearest (significand * 10 ^ exponent.natAbs) 1

end Format

end SimilarityStore.Numeric
