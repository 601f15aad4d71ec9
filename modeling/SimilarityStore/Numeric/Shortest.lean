import SimilarityStore.Numeric.Binary
import SimilarityStore.Numeric.Digit

/-
  Shortest decimals: the fewest digits that are read back as a given magnitude, and among those of
  that length the nearest.  When two decimals of that length are equally near, a `Tie` decides.
  Only the two multiples of a power of ten around the magnitude need to be tried: if any multiple
  of that power is read back, so is one of these.
-/

namespace SimilarityStore.Numeric

/-- Which of two equally near decimals is written. -/
inductive Tie where
  /-- The greater one. -/
  | up
  /-- The one with an even last digit. -/
  | toEven
deriving DecidableEq, Repr

/-- A positive decimal `significand * 10 ^ exponent`. -/
structure Decimal where
  /-- The digits as one number. -/
  significand : Nat
  /-- The power of ten that the last digit counts. -/
  exponent : Int
deriving DecidableEq, Repr

namespace Decimal

/-- Whether the decimal is read as the magnitude with this word. -/
def readsAs (f : Format) (word : Nat) (d : Decimal) : Bool :=
  f.nearestDecimal d.significand d.exponent == word

/-- The same decimal without trailing zeros. -/
def dropZeros (d : Decimal) : Decimal :=
  if h : d.significand ≠ 0 ∧ d.significand % 10 = 0 then
    dropZeros ⟨d.significand / 10, d.exponent + 1⟩
  else d
termination_by d.significand
decreasing_by omega

/-- The magnitude's own decimal expansion, which is finite. -/
def exact (f : Format) (word : Nat) : Decimal := ⟨f.units word * 5 ^ f.scale, -f.scale⟩

/-- The decimal exponent of a magnitude's leading digit. -/
def leadingExponent (f : Format) (word : Nat) : Int :=
  (digitsOf (f.units word * 5 ^ f.scale)).length - 1 - f.scale

/-- The two multiples of `10 ^ exponent` around a magnitude, the nearer one first. -/
def neighbours (f : Format) (tie : Tie) (word : Nat) (exponent : Int) : Decimal × Decimal :=
  let num := f.units word * 10 ^ (-exponent).toNat
  let den := 2 ^ f.scale * 10 ^ exponent.toNat
  let low := num / den
  let rest := num % den
  let below : Decimal := ⟨low, exponent⟩
  let above : Decimal := ⟨low + 1, exponent⟩
  let belowFirst :=
    if 2 * rest = den then tie = .toEven ∧ low % 2 = 0 else 2 * rest < den
  if belowFirst then (below, above) else (above, below)

/-- The nearer neighbour that is read back, at a given exponent. -/
def candidate? (f : Format) (tie : Tie) (word : Nat) (exponent : Int) : Option Decimal :=
  let (first, second) := neighbours f tie word exponent
  if first.readsAs f word then some first
  else if second.readsAs f word then some second
  else none

/-- As many digits as any format of this library needs. -/
def mostDigits : Nat := 17

/-- The shortest decimal that is read as a positive finite magnitude. -/
def shortest (f : Format) (tie : Tie) (word : Nat) : Decimal :=
  let lead := leadingExponent f word
  let found := (List.range mostDigits).findSome? fun (more : Nat) =>
    candidate? f tie word (lead - more)
  dropZeros (found.getD (exact f word))

end Decimal

end SimilarityStore.Numeric
