import SimilarityStore.Numeric.Literal
import SimilarityStore.Numeric.NumberStyle

/-
  Texts of numerals.  A numeral is written as its sign, its digits around a point, and its power of
  ten (`Numeral.toList_toText_written`).  If a digit stands in front, that text is read back as the
  same numeral (`Numeral.readNumeral?_written`), so it is a literal, and so is the text of any value
  in any style (`NumberStyle.isLiteral_spell`).
-/

namespace SimilarityStore.Numeric

/-! ## Digits of a text -/

theorem Digit.ofChar?_eq_none {c : Char} (h : c.isDigit = false) : Digit.ofChar? c = none := by
  unfold Digit.ofChar?
  rw [dif_neg]
  intro range
  have : c.isDigit = true := by
    simp only [Char.isDigit, Bool.and_eq_true, decide_eq_true_eq, UInt32.le_iff_toNat_le]
    exact range
  rw [this] at h
  cases h

theorem Digit.isDigit_toChar (d : Digit) : d.toChar.isDigit = true := by
  revert d
  decide

theorem digitsBefore_ne_nil (n : Nat) (known : List Digit) : digitsBefore n known ≠ [] := by
  fun_induction digitsBefore n known with
  | case1 n known h => simp
  | case2 n known h ih => exact ih

theorem digitsOf_ne_nil (n : Nat) : digitsOf n ≠ [] := digitsBefore_ne_nil n []

/-- No digit stands at the front. -/
def NoDigitFront (cs : List Char) : Prop := ∀ c ∈ cs.head?, c.isDigit = false

/-- Digits in front of something else are read as they were written. -/
theorem spanDigits_append (ds : List Digit) {rest : List Char} (h : NoDigitFront rest) :
    spanDigits (ds.map Digit.toChar ++ rest) = (ds, rest) := by
  induction ds with
  | nil =>
    cases rest with
    | nil => rfl
    | cons c rest =>
      have hc := Digit.ofChar?_eq_none (h c rfl)
      rw [List.map_nil, List.nil_append, spanDigits, hc]
  | cons d ds ih =>
    rw [List.map_cons, List.cons_append, spanDigits, Digit.ofChar?_toChar, ih]

theorem spanDigits_map (ds : List Digit) : spanDigits (ds.map Digit.toChar) = (ds, []) := by
  have front : NoDigitFront [] := by simp [NoDigitFront]
  have := spanDigits_append ds front
  rwa [List.append_nil] at this

theorem allDigits?_toChar {ds : List Digit} (h : ds ≠ []) :
    allDigits? (ds.map Digit.toChar) = some ds := by
  obtain ⟨d, rest, rfl⟩ := List.exists_cons_of_ne_nil h
  rw [allDigits?, spanDigits_map]

theorem splitSign_toChar (d : Digit) (cs : List Char) :
    splitSign (d.toChar :: cs) = (false, d.toChar :: cs) := by
  have signs : d.toChar ≠ '-' ∧ d.toChar ≠ '+' := by
    revert d
    decide
  unfold splitSign
  split
  · next h => exact absurd (List.cons.inj h).1 signs.1
  · next h => exact absurd (List.cons.inj h).1 signs.2
  · rfl

/-! ## Texts of numerals -/

namespace Numeral

/-- The point and the digits behind it. -/
def pointAndFraction (n : Numeral) : List Char :=
  if n.fraction = [] then [] else '.' :: n.fraction.map Digit.toChar

/-- The text of a numeral without its sign and its power of ten. -/
def unsignedText (n : Numeral) : List Char := n.whole.map Digit.toChar ++ n.pointAndFraction

/-- The sign of a power of ten, if it has one. -/
def powerSign (plus : Bool) (e : Int) : List Char :=
  if e < 0 then ['-'] else if plus then ['+'] else []

/-- The power of ten at the end of a numeral. -/
def powerText (plus : Bool) : Option Int → List Char
  | none => []
  | some e => 'e' :: (powerSign plus e ++ (digitsOf e.natAbs).map Digit.toChar)

theorem toList_powerText (plus : Bool) (e : Int) :
    (if plus && 0 ≤ e then "e+" ++ signedText e else "e" ++ signedText e : String).toList =
      powerText plus (some e) := by
  unfold powerText powerSign signedText decimalText
  by_cases he : e < 0
  · have hle : ¬ 0 ≤ e := by omega
    simp [he, hle]
  · have hle : 0 ≤ e := by omega
    cases plus <;> simp [he, hle]

/-- A numeral is written as its sign, the digits before the point, the point with the digits behind
it, and the power of ten. -/
theorem toList_toText_written (n : Numeral) (plus : Bool) :
    (n.toText plus).toList = (if n.negative then ['-'] else []) ++
      (n.unsignedText ++ powerText plus n.exponent) := by
  obtain ⟨negative, whole, fraction, exponent⟩ := n
  unfold toText unsignedText pointAndFraction
  cases exponent with
  | none => cases negative <;> cases fraction <;> simp [powerText, String.toList_append]
  | some e =>
    have hpower := toList_powerText plus e
    cases negative <;> cases fraction <;>
      simp only [String.toList_append, hpower] <;> simp

/-! ## Reading them back -/

/-- The digits of a power of ten are told from its sign. -/
theorem splitSign_power (plus : Bool) (e : Int) :
    splitSign (powerSign plus e ++ (digitsOf e.natAbs).map Digit.toChar) =
      (decide (e < 0), (digitsOf e.natAbs).map Digit.toChar) := by
  unfold powerSign
  by_cases he : e < 0
  · rw [if_pos he, decide_eq_true he]
    rfl
  · rw [if_neg he, decide_eq_false he]
    cases plus with
    | true => rfl
    | false =>
      obtain ⟨d, ds, hds⟩ := List.exists_cons_of_ne_nil (digitsOf_ne_nil e.natAbs)
      rw [hds]
      exact splitSign_toChar d _

theorem readPower?_powerText (plus : Bool) (exponent : Option Int) :
    readPower? (powerText plus exponent) = some exponent := by
  cases exponent with
  | none => rfl
  | some e =>
    rw [powerText, readPower?, if_pos (Or.inl rfl), splitSign_power]
    dsimp only
    rw [allDigits?_toChar (digitsOf_ne_nil _), Option.map_some, ofDigits_digitsOf]
    by_cases he : e < 0
    · have hvalue : -(e.natAbs : Int) = e := by omega
      rw [decide_eq_true he, if_pos rfl, hvalue]
    · have hvalue : (e.natAbs : Int) = e := by omega
      rw [decide_eq_false he, if_neg Bool.false_ne_true, hvalue]

/-- Neither a digit nor a point stands in front of a power of ten. -/
theorem powerText_front (plus : Bool) (exponent : Option Int) :
    ∀ c ∈ (powerText plus exponent).head?, c.isDigit = false ∧ c ≠ '.' := by
  intro c hc
  cases exponent with
  | none => cases hc
  | some e =>
    obtain rfl := Option.some.inj hc
    decide

theorem readNumeral?_written {n : Numeral} (h : n.whole ≠ []) (plus : Bool) :
    readNumeral? n.negative (n.unsignedText ++ powerText plus n.exponent) = some n := by
  obtain ⟨negative, whole, fraction, exponent⟩ := n
  have hwhole : whole.isEmpty = false := by simpa using h
  have hfront := powerText_front plus exponent
  have hpower := readPower?_powerText plus exponent
  have hbehind : NoDigitFront (powerText plus exponent) := fun c hc => (hfront c hc).1
  have hpoint : NoDigitFront
      (pointAndFraction ⟨negative, whole, fraction, exponent⟩ ++ powerText plus exponent) := by
    unfold pointAndFraction
    split
    · exact hbehind
    · intro c hc
      obtain rfl := Option.some.inj hc
      rfl
  unfold readNumeral? unsignedText
  rw [List.append_assoc, spanDigits_append whole hpoint]
  cases fraction with
  | nil =>
    have hnone : pointAndFraction ⟨negative, whole, [], exponent⟩ = [] := rfl
    rw [hnone, List.nil_append]
    dsimp only
    split
    · next after heq =>
      rw [heq] at hfront
      exact absurd rfl (hfront '.' rfl).2
    · simp [hwhole, hpower]
  | cons d ds =>
    have hspan := spanDigits_append (d :: ds) hbehind
    have htext : pointAndFraction ⟨negative, whole, d :: ds, exponent⟩ =
        '.' :: (d :: ds).map Digit.toChar := rfl
    simp only [htext, List.cons_append, hspan]
    simp [hwhole, hpower]

end Numeral

/-! ## Literals -/

theorem Digit.toLower_toChar (d : Digit) : d.toChar.toLower ≠ 'i' ∧ d.toChar.toLower ≠ 'n' := by
  revert d
  decide

/-- What starts with neither an `i` nor an `n` is none of the named values. -/
theorem readLiteral?_of_first {cs rest : List Char} {negative : Bool} {c : Char}
    (hi : c.toLower ≠ 'i') (hn : c.toLower ≠ 'n') (h : splitSign cs = (negative, c :: rest)) :
    readLiteral? cs = (readNumeral? negative (c :: rest)).map Numeral.toFloat := by
  have named (word : String) (first : Char) (more : List Char)
      (hw : word = String.ofList (first :: more)) (hne : c.toLower ≠ first) :
      String.ofList ((c :: rest).map Char.toLower) ≠ word := by
    intro he
    rw [hw, String.ofList_inj] at he
    exact hne (List.cons.inj he).1
  unfold readLiteral?
  rw [h]
  dsimp only
  rw [if_neg, if_neg (named "nan" 'n' ['a', 'n'] rfl hn)]
  rintro (he | he)
  · exact named "inf" 'i' ['n', 'f'] rfl hi he
  · exact named "infinity" 'i' ['n', 'f', 'i', 'n', 'i', 't', 'y'] rfl hi he

/-- What starts with a digit is none of the named values. -/
theorem readLiteral?_of_splitSign {cs rest : List Char} {negative : Bool} {d : Digit}
    (h : splitSign cs = (negative, d.toChar :: rest)) :
    readLiteral? cs = (readNumeral? negative (d.toChar :: rest)).map Numeral.toFloat :=
  readLiteral?_of_first d.toLower_toChar.1 d.toLower_toChar.2 h

/-- Two points in a row start no literal. -/
theorem readLiteral?_points (cs : List Char) : readLiteral? ('.' :: '.' :: cs) = none := by
  have hpoint : Digit.ofChar? '.' = none := by decide
  have hnumeral : readNumeral? false ('.' :: '.' :: cs) = none := by
    simp [readNumeral?, spanDigits, hpoint]
  rw [readLiteral?_of_first (by decide) (by decide) rfl, hnumeral]
  rfl

/-- A numeral with a digit in front is a literal. -/
theorem Numeral.readLiteral?_written {n : Numeral} (h : n.whole ≠ []) (plus : Bool) :
    readLiteral? (n.toText plus).toList = some n.toFloat := by
  obtain ⟨d, ds, hwhole⟩ := List.exists_cons_of_ne_nil h
  have hunsigned : ∃ cs, n.unsignedText ++ powerText plus n.exponent = d.toChar :: cs := by
    rw [unsignedText, hwhole]
    exact ⟨_, rfl⟩
  obtain ⟨cs, hcs⟩ := hunsigned
  have hsplit : splitSign (n.toText plus).toList = (n.negative, d.toChar :: cs) := by
    rw [n.toList_toText_written, hcs]
    cases n.negative with
    | false => exact splitSign_toChar d cs
    | true => rfl
  rw [readLiteral?_of_splitSign hsplit, ← hcs, readNumeral?_written h]
  rfl

/-! ## Numbers in any style -/

namespace NumberStyle

theorem whole_positional (style : NumberStyle) (negative : Bool) (d : Decimal) :
    (style.positional negative d).whole ≠ [] := by
  have hdigits := digitsOf_ne_nil d.significand
  unfold positional
  dsimp only
  split
  · simp [hdigits]
  · split
    · next hbefore =>
      rw [Ne, List.take_eq_nil_iff]
      rintro (h | h)
      · omega
      · exact hdigits h
    · simp

/-- A digit stands in front of the point, whatever the style. -/
theorem whole_numeral {F : Type} [FloatingPoint F] (style : NumberStyle) (x : F) :
    (style.numeral x).whole ≠ [] := by
  unfold numeral
  dsimp only
  split
  · simp
  · unfold spellDecimal
    split
    · exact whole_positional style _ _
    · simp [scientific, digitsOf_ne_nil]

/-- The text of any value, even of one that is infinite or no number, is a number literal. -/
theorem isLiteral_spell {F : Type} [FloatingPoint F] (style : NumberStyle) (x : F) :
    ∃ y, readLiteral? (style.spell x).toList = some y := by
  unfold spell
  split
  · exact ⟨_, rfl⟩
  · split
    · exact ⟨_, Numeral.readLiteral?_written (whole_numeral style x) style.plus⟩
    · split
      · exact ⟨_, rfl⟩
      · exact ⟨_, rfl⟩

end NumberStyle

end SimilarityStore.Numeric
