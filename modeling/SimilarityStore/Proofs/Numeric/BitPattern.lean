import Mathlib
import SimilarityStore.Numeric.FloatingPoint

/-
  Bit patterns of double-precision values.  Unpacking a valid pattern and packing the parts again
  gives the pattern back (`pack_unpack`), so a value is the one with its own word (`ofWord_word`)
  and the one with its own sign and magnitude (`ofMagnitude_magnitude`).
-/

namespace SimilarityStore.Numeric

open Float.Model Float.Model.UnpackedFloat

/-! ## Packing what was unpacked -/

variable {spec : Float.Model.Format}

theorem toBitVec_ofBitVec (s : BitVec 1) : (Sign.ofBitVec s).toBitVec = s := by
  revert s; decide

/-- A pattern is its sign bit, its exponent field and its significand field, one behind the
other. -/
theorem packComponents_fields (b : BitVec spec.numBits) :
    packComponents spec (Sign.ofBitVec (unpackSign b)) (unpackExponent b) (unpackMantissa b) =
      b := by
  have hm := spec.hm
  have he := spec.he
  rw [packComponents, toBitVec_ofBitVec]
  apply BitVec.eq_of_getLsbD_eq
  intro i hi
  simp only [unpackSign, unpackExponent, unpackMantissa, BitVec.getLsbD_append,
    BitVec.getLsbD_cast, BitVec.getLsbD_extractLsb]
  by_cases h1 : i < spec.mantissaBitsWithoutImplicit
  · have : i < spec.mantissaBitsWithoutImplicit - 1 + 1 := by omega
    simp [h1, this]
  · by_cases h2 : i - spec.mantissaBitsWithoutImplicit < spec.exponentBits
    · have e : spec.mantissaBitsWithoutImplicit + (i - spec.mantissaBitsWithoutImplicit) = i := by
        omega
      simp only [h1, h2, e, if_false, if_true, Bool.and_eq_right_iff_imp, decide_eq_true_eq]
      omega
    · have e : spec.mantissaBitsWithoutImplicit + spec.exponentBits +
          (i - spec.mantissaBitsWithoutImplicit - spec.exponentBits) = i := by
        omega
      simp only [h1, h2, e, if_false, Bool.and_eq_right_iff_imp, decide_eq_true_eq]
      omega

/-- The significand of a normal value: the hidden bit in front of the stored ones. -/
theorem toNat_hiddenBit {n : Nat} (m : BitVec n) : (1#1 ++ m).toNat = 2 ^ n + m.toNat := by
  rw [BitVec.toNat_append, ← Nat.shiftLeft_add_eq_or_of_lt m.isLt]
  simp [Nat.shiftLeft_eq]

theorem log2_hiddenBit {n : Nat} (m : BitVec n) : (1#1 ++ m).toNat.log2 = n := by
  rw [toNat_hiddenBit]
  have := m.isLt
  refine (Nat.log2_eq_iff (by omega)).2 ⟨by omega, ?_⟩
  rw [Nat.pow_succ]
  omega

theorem ofNat_hiddenBit {n : Nat} (m : BitVec n) : BitVec.ofNat n (1#1 ++ m).toNat = m := by
  apply BitVec.eq_of_toNat_eq
  rw [toNat_hiddenBit, BitVec.toNat_ofNat, Nat.add_mod_left, Nat.mod_eq_of_lt m.isLt]

/-- A subnormal value keeps its significand field and has the exponent field zero. -/
theorem pack_subnormal {s : Sign} {m : BitVec spec.mantissaBitsWithoutImplicit} {e : Int}
    (hm : 0 < m.toNat) (hbits : 2 ≤ spec.exponentBits)
    (he : (e + spec.exponentBias + spec.mantissaBitsWithoutImplicit).toNat = 1) :
    UnpackedFloat.pack spec (.finite s m.toNat e hm) = packComponents spec s 0#_ m := by
  have htop : 2 ^ 2 ≤ 2 ^ spec.exponentBits := Nat.pow_le_pow_right (by omega) hbits
  have hlog : m.toNat.log2 < spec.mantissaBitsWithoutImplicit :=
    (Nat.log2_lt (by omega)).2 m.isLt
  unfold UnpackedFloat.pack
  simp only [he]
  rw [if_neg (by omega), if_neg (by simp only [Format.mantissaBits]; omega),
    BitVec.ofNat_toNat, BitVec.setWidth_eq]

/-- A normal value keeps both fields. -/
theorem pack_normal {s : Sign} {m : BitVec spec.mantissaBitsWithoutImplicit}
    {x : BitVec spec.exponentBits} {e : Int} (hm : 0 < (1#1 ++ m).toNat)
    (hx : x.toNat + 1 < 2 ^ spec.exponentBits)
    (he : (e + spec.exponentBias + spec.mantissaBitsWithoutImplicit).toNat = x.toNat) :
    UnpackedFloat.pack spec (.finite s (1#1 ++ m).toNat e hm) = packComponents spec s x m := by
  unfold UnpackedFloat.pack
  simp only [he, log2_hiddenBit]
  rw [if_neg (by omega), if_pos (by simp only [Format.mantissaBits]; omega),
    BitVec.ofNat_toNat, BitVec.setWidth_eq, ofNat_hiddenBit]

/-- Packing gives back the valid pattern that was unpacked. -/
theorem pack_unpack {b : BitVec spec.numBits} (h : spec.Valid b)
    (hbits : 2 ≤ spec.exponentBits) :
    UnpackedFloat.pack spec (UnpackedFloat.unpack spec b) = b := by
  have hb := packComponents_fields b
  unfold UnpackedFloat.unpack
  dsimp only
  split
  · next htop =>
    split
    · next hman =>
      rw [htop, hman] at hb
      exact hb
    · next hman => exact (h.eq_packedNaN htop hman).symm
  · next htop =>
    split
    · next hzero =>
      split
      · next hman =>
        rw [hzero, hman] at hb
        exact hb
      · rw [pack_subnormal _ hbits (by
          rw [hzero, BitVec.toNat_ofNat, Nat.zero_mod]
          omega),
          ← hzero]
        exact hb
    · have hlt : (unpackExponent b).toNat ≠ 2 ^ spec.exponentBits - 1 := by
        intro hx
        apply htop
        apply BitVec.eq_of_toNat_eq
        rw [hx, BitVec.neg_one_eq_allOnes, BitVec.toNat_allOnes]
      have := (unpackExponent b).isLt
      rw [pack_normal (x := unpackExponent b) _ (by omega) (by omega)]
      exact hb

/-! ## Words -/

namespace FloatingPoint

theorem ofBits_toBits (x : Float) : Float.ofBits x.toBits = x := by
  obtain ⟨⟨bits, valid⟩⟩ := x
  have h := pack_unpack valid (by decide)
  simp only [Float.ofBits, Float.toBits, Float.Model.ofBits, Float.Model.pack]
  congr

/-- A value is the one with its own word. -/
@[simp] theorem ofWord_word (x : Float) : (ofWord (word x) : Float) = x := by
  show Float.ofBits (UInt64.ofNat x.toBits.toNat) = x
  rw [UInt64.ofNat_toNat, ofBits_toBits]

theorem word_lt (x : Float) : word x < 2 * (format Float).signBit := x.toBits.toNat_lt

/-- A value is the one with its own sign and magnitude. -/
theorem ofMagnitude_magnitude (x : Float) : ofMagnitude (isNegative x) (magnitude x) = x := by
  have hlt := word_lt x
  have hword : (if isNegative x then (format Float).signBit + magnitude x else magnitude x) =
      word x := by
    unfold isNegative magnitude
    by_cases h : (format Float).signBit ≤ word x
    · rw [if_pos (decide_eq_true h), Nat.mod_eq_sub_mod h, Nat.mod_eq_of_lt (by omega)]
      omega
    · rw [if_neg (by simpa using h), Nat.mod_eq_of_lt (by omega)]
  rw [ofMagnitude, hword, ofWord_word]

/-- A finite value is a number. -/
theorem isNaN_of_isFinite {F : Type} [FloatingPoint F] {x : F} (h : isFinite x = true) :
    isNaN x = false := by
  have := of_decide_eq_true h
  exact decide_eq_false (by omega)

end FloatingPoint

end SimilarityStore.Numeric
