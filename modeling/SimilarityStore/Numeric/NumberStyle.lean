import SimilarityStore.Numeric.Numeral
import SimilarityStore.Numeric.Shortest

/-
  Number styles: how a floating-point value is spelled.  Every style writes the shortest decimal
  that is read back; they differ in where positional writing ends, in whether a whole number keeps
  a point, in the sign of the power of ten, and in ties.
-/

namespace SimilarityStore.Numeric

/-- The decisions of one way to spell numbers. -/
structure NumberStyle where
  /-- Which of two equally near shortest decimals is written. -/
  tie : Tie
  /-- The least exponent of the leading digit that is written positionally, if there is one. -/
  least : Option Int
  /-- The greatest exponent of the leading digit that is written positionally, if there is one. -/
  greatest : Option Int
  /-- Whether a whole number ends in `.0` when it is written positionally. -/
  keepsPoint : Bool
  /-- Whether a power of ten that is not negative has a plus sign. -/
  plus : Bool
deriving DecidableEq, Repr

namespace NumberStyle

/-- Plain writing, for literals in filter expressions: always positional, and whole numbers have no
point. -/
def plain : NumberStyle := ⟨.up, none, none, false, false⟩

/-- Writing in descriptions: positional from `0.0001` to below `10 ^ 16`. -/
def descriptive : NumberStyle := ⟨.up, some (-4), some 15, true, false⟩

/-- Writing in documents in double precision: positional from `0.00001` to below `10 ^ 16`. -/
def document : NumberStyle := ⟨.toEven, some (-5), some 15, true, true⟩

/-- Writing in documents in single precision: positional from `0.000001` to below `10 ^ 13`. -/
def documentSingle : NumberStyle := ⟨.toEven, some (-6), some 12, true, true⟩

/-- The same style without the plus sign, for arguments of server commands. -/
def withoutPlus (style : NumberStyle) : NumberStyle := { style with plus := false }

/-- Whether a leading digit with this exponent is written positionally. -/
def isPositional (style : NumberStyle) (lead : Int) : Bool :=
  style.least.all (· ≤ lead) && style.greatest.all (lead ≤ ·)

/-- Zeros for the positions between the digits and the point. -/
def zeros (count : Int) : List Digit := List.replicate count.toNat 0

/-- A decimal spelled positionally. -/
def positional (style : NumberStyle) (negative : Bool) (d : Decimal) : Numeral :=
  let digits := digitsOf d.significand
  let before : Int := digits.length + d.exponent
  if 0 ≤ d.exponent then
    ⟨negative, digits ++ zeros d.exponent, if style.keepsPoint then [0] else [], none⟩
  else if 0 < before then
    ⟨negative, digits.take before.toNat, digits.drop before.toNat, none⟩
  else ⟨negative, [0], zeros (-before) ++ digits, none⟩

/-- A decimal spelled with a power of ten and one digit before the point. -/
def scientific (negative : Bool) (d : Decimal) : Numeral :=
  let digits := digitsOf d.significand
  ⟨negative, digits.take 1, digits.drop 1, some (digits.length - 1 + d.exponent)⟩

/-- The numeral of a decimal. -/
def spellDecimal (style : NumberStyle) (negative : Bool) (d : Decimal) : Numeral :=
  if style.isPositional ((digitsOf d.significand).length - 1 + d.exponent) then
    style.positional negative d
  else scientific negative d

/-- The numeral of a finite value. -/
def numeral {F : Type} [FloatingPoint F] (style : NumberStyle) (x : F) : Numeral :=
  let negative := FloatingPoint.isNegative x
  if FloatingPoint.isZero x then
    ⟨negative, [0], if style.keepsPoint then [0] else [], none⟩
  else
    style.spellDecimal negative
      (Decimal.shortest (FloatingPoint.format F) style.tie (FloatingPoint.magnitude x))

/-- A value as a text; infinities and values that are not numbers are named. -/
def spell {F : Type} [FloatingPoint F] (style : NumberStyle) (x : F) : String :=
  if FloatingPoint.isNaN x then "NaN"
  else if FloatingPoint.isFinite x then (style.numeral x).toText style.plus
  else if FloatingPoint.isNegative x then "-inf"
  else "inf"

end NumberStyle

end SimilarityStore.Numeric
