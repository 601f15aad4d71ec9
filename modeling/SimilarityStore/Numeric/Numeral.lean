import SimilarityStore.Numeric.Digit
import SimilarityStore.Numeric.FloatingPoint

/-
  Decimal numerals as they stand in a text: a sign, digits before and after a point, and an
  optional power of ten.
-/

namespace SimilarityStore.Numeric

/-- A decimal numeral. -/
structure Numeral where
  /-- Whether a minus sign stands in front. -/
  negative : Bool
  /-- The digits before the point. -/
  whole : List Digit
  /-- The digits after the point; without any there is no point. -/
  fraction : List Digit
  /-- The written power of ten. -/
  exponent : Option Int
deriving DecidableEq, Repr

namespace Numeral

/-- The numeral of an integer. -/
def ofInt (i : Int) : Numeral := ⟨i < 0, digitsOf i.natAbs, [], none⟩

/-- All digits as one number. -/
def significand (n : Numeral) : Nat := ofDigits (n.whole ++ n.fraction)

/-- The power of ten that the last digit counts. -/
def lastExponent (n : Numeral) : Int := n.exponent.getD 0 - n.fraction.length

/-- The floating-point value nearest to the numeral. -/
def toFloat {F : Type} [FloatingPoint F] (n : Numeral) : F :=
  FloatingPoint.ofDecimal n.negative n.significand n.lastExponent

/-- The numeral as a text; `plus` asks for a sign before a power of ten that is not negative. -/
def toText (plus : Bool) (n : Numeral) : String :=
  let point := if n.fraction.isEmpty then "" else "."
  let power :=
    match n.exponent with
    | none => ""
    | some e => if plus && 0 ≤ e then "e+" ++ signedText e else "e" ++ signedText e
  (if n.negative then "-" else "") ++ String.ofList (n.whole.map Digit.toChar) ++ point ++
    String.ofList (n.fraction.map Digit.toChar) ++ power

end Numeral

end SimilarityStore.Numeric
