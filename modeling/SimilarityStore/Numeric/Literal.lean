import SimilarityStore.Numeric.Numeral

/-
  Number literals: the texts that are read as double-precision values.  A literal has an optional
  sign; then either one of the words `inf`, `infinity` and `nan` in any case, or digits with at
  most one point among, before or after them, and an optional power of ten.  No blanks.
-/

namespace SimilarityStore.Numeric

/-- A sign in front of a text: whether it is a minus, and the rest. -/
def splitSign : List Char → Bool × List Char
  | '-' :: cs => (true, cs)
  | '+' :: cs => (false, cs)
  | cs => (false, cs)

/-- The power of ten at the end of a numeral: nothing, or `e` or `E`, a sign and digits. -/
def readPower? : List Char → Option (Option Int)
  | [] => some none
  | c :: cs =>
    if c = 'e' ∨ c = 'E' then
      let (negative, digits) := splitSign cs
      (allDigits? digits).map fun ds =>
        some (if negative then -(ofDigits ds : Int) else ofDigits ds)
    else none

/-- An unsigned numeral, given its sign. -/
def readNumeral? (negative : Bool) (cs : List Char) : Option Numeral :=
  let (whole, rest) := spanDigits cs
  let (fraction, rest) :=
    match rest with
    | '.' :: after => spanDigits after
    | _ => ([], rest)
  if whole.isEmpty && fraction.isEmpty then none
  else (readPower? rest).map fun power => ⟨negative, whole, fraction, power⟩

/-- The value of a literal. -/
def readLiteral? (cs : List Char) : Option Float :=
  let (negative, rest) := splitSign cs
  let word := String.ofList (rest.map Char.toLower)
  if word = "inf" ∨ word = "infinity" then some (FloatingPoint.infinite negative)
  else if word = "nan" then some FloatingPoint.notANumber
  else (readNumeral? negative rest).map Numeral.toFloat

/-- A natural number below `2 ^ 64`: an optional plus sign and digits. -/
def readWord64? (cs : List Char) : Option Nat :=
  let digits := match cs with
    | '+' :: rest => rest
    | _ => cs
  match allDigits? digits with
  | some ds => if ofDigits ds < 2 ^ 64 then some (ofDigits ds) else none
  | none => none

end SimilarityStore.Numeric
