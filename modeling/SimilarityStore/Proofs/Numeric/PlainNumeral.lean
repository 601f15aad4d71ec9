import SimilarityStore.Proofs.Numeric.BitPattern
import SimilarityStore.Proofs.Numeric.DecimalRounding
import SimilarityStore.Proofs.Numeric.NumeralText

/-
  Plain numerals: numerals with a digit in front and no power of ten.  Their texts are read back as
  literals (`Numeral.IsPlain.readLiteral?`), the texts of integers are plain numerals of that value
  (`Numeral.toFloat_ofInt`), and so are the texts of finite values in plain writing
  (`NumberStyle.toFloat_plain`).
-/

namespace SimilarityStore.Numeric

/-! ## Texts of plain numerals -/

namespace Numeral

/-- A numeral with a digit in front and no power of ten. -/
structure IsPlain (n : Numeral) : Prop where
  whole_ne_nil : n.whole ≠ []
  exponent_eq_none : n.exponent = none

namespace IsPlain

variable {n : Numeral}

theorem toList_toText (h : n.IsPlain) (plus : Bool) :
    (n.toText plus).toList = if n.negative then '-' :: n.unsignedText else n.unsignedText := by
  rw [n.toList_toText_written, h.exponent_eq_none, powerText, List.append_nil]
  cases n.negative <;> rfl

/-- The unsigned text starts with a digit. -/
theorem unsignedText_eq_cons (h : n.IsPlain) :
    ∃ d : Digit, ∃ cs, n.unsignedText = d.toChar :: cs := by
  obtain ⟨d, ds, hw⟩ := List.exists_cons_of_ne_nil h.whole_ne_nil
  exact ⟨d, ds.map Digit.toChar ++ n.pointAndFraction, by rw [unsignedText, hw]; rfl⟩

/-- The unsigned text holds digits and points only. -/
theorem mem_unsignedText {c : Char} (hc : c ∈ n.unsignedText) : c.isDigit = true ∨ c = '.' := by
  unfold unsignedText pointAndFraction at hc
  rcases List.mem_append.1 hc with hc | hc
  · obtain ⟨d, -, rfl⟩ := List.mem_map.1 hc
    exact .inl d.isDigit_toChar
  · split at hc
    · cases hc
    · rcases List.mem_cons.1 hc with hc | hc
      · exact .inr hc
      · obtain ⟨d, -, rfl⟩ := List.mem_map.1 hc
        exact .inl d.isDigit_toChar

/-- The text of a plain numeral is read as the numeral's value. -/
theorem readLiteral? (h : n.IsPlain) (plus : Bool) :
    Numeric.readLiteral? (n.toText plus).toList = some n.toFloat :=
  readLiteral?_written h.whole_ne_nil plus

end IsPlain

/-! ## Integers -/

theorem isPlain_ofInt (i : Int) : (ofInt i).IsPlain := ⟨digitsOf_ne_nil _, rfl⟩

/-- An integer's text is the text of its numeral. -/
theorem toText_ofInt (i : Int) : (ofInt i).toText false = signedText i := by
  unfold toText ofInt signedText decimalText
  by_cases h : i < 0 <;> simp [h]

theorem significand_ofInt (i : Int) : (ofInt i).significand = i.natAbs := by
  simp [significand, ofInt]

/-- An integer's numeral has the value nearest to the integer. -/
theorem toFloat_ofInt (i : Int) : (ofInt i).toFloat = (FloatingPoint.ofInt i : Float) := by
  have exponent : (ofInt i).lastExponent = ((0 : Nat) : Int) := rfl
  unfold toFloat FloatingPoint.ofDecimal FloatingPoint.ofInt
  rw [significand_ofInt, exponent]
  congr 1
  by_cases h : i.natAbs = 0
  · rw [h, Format.nearest_zero _ Nat.one_pos]
    rfl
  · rw [Format.nearestDecimal_of_nonneg _ h (Nat.zero_le _), Nat.pow_zero, Nat.mul_one]

end Numeral

/-! ## Finite values in plain writing -/

theorem appendDigits_append (start : Nat) (ds es : List Digit) :
    appendDigits start (ds ++ es) = appendDigits (appendDigits start ds) es := by
  simp [appendDigits]

theorem appendDigits_replicate_zero (start count : Nat) :
    appendDigits start (List.replicate count 0) = start * 10 ^ count := by
  induction count generalizing start with
  | zero => simp [appendDigits]
  | succ count ih =>
    have step : appendDigits start (List.replicate (count + 1) 0) =
        appendDigits (10 * start) (List.replicate count 0) := by
      rw [List.replicate_succ]
      rfl
    rw [step, ih, Nat.pow_succ, Nat.mul_comm 10 start, Nat.mul_assoc, Nat.mul_comm 10]

namespace NumberStyle

theorem isPlain_positional (style : NumberStyle) (negative : Bool) (d : Decimal) :
    (style.positional negative d).IsPlain := by
  refine ⟨whole_positional style negative d, ?_⟩
  unfold positional
  dsimp only
  split
  · rfl
  · split <;> rfl

/-- The positional spelling without a kept point has the decimal's digits as its significand, with
zeros behind them for a positive exponent. -/
theorem positional_cases (style : NumberStyle) (hpoint : style.keepsPoint = false)
    (negative : Bool) (d : Decimal) :
    (style.positional negative d).IsPlain ∧ (style.positional negative d).negative = negative ∧
      ((∃ n : Nat, d.exponent = n ∧
          (style.positional negative d).significand = d.significand * 10 ^ n ∧
          (style.positional negative d).lastExponent = 0) ∨
        ((style.positional negative d).significand = d.significand ∧
          (style.positional negative d).lastExponent = d.exponent)) := by
  refine ⟨isPlain_positional style negative d, ?_⟩
  obtain ⟨s, e⟩ := d
  have hlen : 0 < (digitsOf s).length := List.length_pos_iff.2 (digitsOf_ne_nil s)
  have hdigits : appendDigits 0 (digitsOf s) = s := ofDigits_digitsOf s
  unfold positional
  dsimp only
  split
  · next he =>
    refine ⟨rfl, .inl ⟨e.toNat, by omega, ?_, ?_⟩⟩
    · simp only [Numeral.significand, ofDigits, hpoint, zeros, appendDigits_append, hdigits,
        appendDigits_replicate_zero]
      rfl
    · simp [Numeral.lastExponent, hpoint]
  · next he =>
    split
    · next hb =>
      refine ⟨rfl, .inr ⟨?_, ?_⟩⟩
      · simp only [Numeral.significand, List.take_append_drop, ofDigits_digitsOf]
      · simp only [Numeral.lastExponent, List.length_drop, Option.getD_none]
        omega
    · next hb =>
      refine ⟨rfl, .inr ⟨?_, ?_⟩⟩
      · have zero : appendDigits 0 [0] = 0 := rfl
        simp only [Numeral.significand, ofDigits, zeros, appendDigits_append, zero,
          appendDigits_replicate_zero, Nat.zero_mul, hdigits]
      · simp only [Numeral.lastExponent, zeros, List.length_append, List.length_replicate,
          Option.getD_none]
        omega

/-- The positional spelling of a decimal that is read as a positive finite magnitude is read as the
same magnitude. -/
theorem toFloat_positional {style : NumberStyle} (hpoint : style.keepsPoint = false)
    (negative : Bool) {d : Decimal} {word : Nat} (hpos : 0 < word)
    (hfin : word < binary64.infinity) (h : d.readsAs binary64 word = true) :
    (style.positional negative d).toFloat = (FloatingPoint.ofMagnitude negative word : Float) := by
  obtain ⟨-, hneg, hcases⟩ := positional_cases style hpoint negative d
  rw [Decimal.readsAs_iff] at h
  rw [← h] at hpos hfin
  obtain ⟨hs, hle, -⟩ := Format.inRange_of_nearestDecimal hpos hfin
  have same : binary64.nearestDecimal (style.positional negative d).significand
      (style.positional negative d).lastExponent = word := by
    rcases hcases with ⟨n, he, hsig, hlast⟩ | ⟨hsig, hlast⟩
    · rw [he] at h hle
      have hprod : d.significand * 10 ^ n ≠ 0 :=
        Nat.mul_ne_zero hs (Nat.ne_of_gt (Nat.pow_pos (by decide)))
      have hzero := Format.nearestDecimal_of_nonneg binary64 hprod (Nat.zero_le _)
      rw [hsig, hlast, ← h, Format.nearestDecimal_of_nonneg _ hs (by omega)]
      rwa [Nat.pow_zero, Nat.mul_one] at hzero
    · rw [hsig, hlast, h]
  unfold Numeral.toFloat FloatingPoint.ofDecimal
  rw [hneg]
  exact congrArg _ same

/-- A finite value is spelled as its numeral. -/
theorem spell_finite {F : Type} [FloatingPoint F] (style : NumberStyle) {x : F}
    (h : FloatingPoint.isFinite x = true) :
    style.spell x = (style.numeral x).toText style.plus := by
  rw [spell, FloatingPoint.isNaN_of_isFinite h, if_neg Bool.false_ne_true, if_pos h]

/-- Plain writing is positional. -/
theorem spellDecimal_plain (negative : Bool) (d : Decimal) :
    plain.spellDecimal negative d = plain.positional negative d := if_pos rfl

theorem isPlain_plain (x : Float) : (plain.numeral x).IsPlain := by
  unfold numeral
  dsimp only
  split
  · exact ⟨by simp, rfl⟩
  · rw [spellDecimal_plain]
    exact isPlain_positional plain _ _

/-- The plain spelling of a finite value has that value. -/
theorem toFloat_plain {x : Float} (h : FloatingPoint.isFinite x = true) :
    (plain.numeral x).toFloat = x := by
  have hfin : FloatingPoint.magnitude x < binary64.infinity := of_decide_eq_true h
  have whole := FloatingPoint.ofMagnitude_magnitude x
  unfold numeral
  dsimp only
  split
  · next hz =>
    have hzero : FloatingPoint.magnitude x = 0 := by
      simpa [FloatingPoint.isZero] using hz
    rw [hzero] at whole
    exact whole
  · next hz =>
    have hpos : 0 < FloatingPoint.magnitude x := by
      simpa [FloatingPoint.isZero, Nat.pos_iff_ne_zero] using hz
    have point : plain.keepsPoint = false := rfl
    have read := toFloat_positional point (FloatingPoint.isNegative x) hpos hfin
      (Decimal.shortest_readsAs plain.tie hpos hfin)
    rw [spellDecimal_plain]
    exact read.trans whole

end NumberStyle

end SimilarityStore.Numeric
