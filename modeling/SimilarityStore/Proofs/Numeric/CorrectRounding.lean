import Mathlib
import SimilarityStore.Proofs.Numeric.RoundingOrder

/-
  Correct rounding.  The arithmetic of the language works on unpacked values: it computes enough
  bits of the exact result, cuts them off, rounds what was cut and packs it.  Together that is
  rounding to nearest as `Format.nearest` defines it, with overflow and subnormal values
  (`toNat_pack_roundWithAccuracy`, `toNat_pack_round`).
-/

namespace SimilarityStore.Numeric

open Float.Model UnpackedFloat

/-! ## Cutting and rounding -/

/-- A quotient cut to an integer, with the bits that say how it goes on. -/
def cut (num den : Nat) : ExtendedMantissa where
  mantissa := num / den
  roundBit := decide (den ≤ 2 * (num % den))
  stickyBit := decide (num % den ≠ 0 ∧ 2 * (num % den) ≠ den)

theorem cut_shiftRightOne {num den : Nat} (hd : 0 < den) :
    (cut num den).shiftRightOne = cut num (den * 2) := by
  have hrest := Nat.mod_lt num hd
  have hmod : num % (den * 2) = num % den + den * (num / den % 2) := Nat.mod_mul
  have hdiv : num / den / 2 = num / (den * 2) := Nat.div_div_eq_div_mul _ _ _
  simp only [cut, ExtendedMantissa.shiftRightOne, hdiv, hmod, ExtendedMantissa.mk.injEq, true_and]
  constructor
  · rw [Bool.eq_iff_iff, bne_iff_ne, decide_eq_true_eq]
    rcases Nat.mod_two_eq_zero_or_one (num / den) with h | h <;> rw [h] <;> omega
  · rw [Bool.eq_iff_iff, Bool.or_eq_true, decide_eq_true_eq, decide_eq_true_eq, decide_eq_true_eq]
    rcases Nat.mod_two_eq_zero_or_one (num / den) with h | h <;> rw [h] <;> omega

theorem cut_shiftRight {num den : Nat} (hd : 0 < den) (k : Nat) :
    cut num den >>> k = cut num (den * 2 ^ k) := by
  induction k with
  | zero => simp [HShiftRight.hShiftRight, Nat.repeat]
  | succ k ih =>
    change ((cut num den) >>> k).shiftRightOne = _
    rw [ih, cut_shiftRightOne (Nat.mul_pos hd (Nat.two_pow_pos k)), Nat.mul_assoc, Nat.pow_succ]

theorem cut_ofFraction (num : Nat) {den : Nat} (hd : 0 < den) :
    ExtendedMantissa.ofMantissaAndAccuracy (num / den) (accuracyOfFraction (num % den) den) =
      cut num den := by
  unfold accuracyOfFraction cut
  split
  · next h => simp [ExtendedMantissa.ofMantissaAndAccuracy, h, Nat.ne_of_gt hd]
  · next h =>
    rcases Nat.lt_trichotomy (2 * (num % den)) den with hlt | heq | hgt
    · rw [Nat.compare_eq_lt.2 hlt]
      simp [ExtendedMantissa.ofMantissaAndAccuracy, h]
      omega
    · rw [Nat.compare_eq_eq.2 heq]
      simp [ExtendedMantissa.ofMantissaAndAccuracy, h]
      omega
    · rw [Nat.compare_eq_gt.2 hgt]
      simp [ExtendedMantissa.ofMantissaAndAccuracy, h]
      omega

/-- An integer goes on with nothing. -/
theorem cut_one (m : Nat) : ExtendedMantissa.ofMantissaAndAccuracy m .exact = cut m 1 := by
  simp [ExtendedMantissa.ofMantissaAndAccuracy, cut, Nat.mod_one]

/-- What was cut is rounded to the nearest integer. -/
theorem roundedMantissa_cut {num den : Nat} (hd : 0 < den) :
    (cut num den).roundedMantissa = roundDiv num den := by
  unfold ExtendedMantissa.roundedMantissa cut roundDiv
  dsimp only
  rcases Nat.lt_trichotomy (2 * (num % den)) den with hlt | heq | hgt
  · rw [if_pos hlt, decide_eq_false (Nat.not_le.2 hlt)]
    cases decide (num % den ≠ 0 ∧ 2 * (num % den) ≠ den) <;> rfl
  · rw [if_neg (by omega), if_neg (by omega), decide_eq_true (Nat.le_of_eq heq.symm),
      decide_eq_false (by omega)]
    rfl
  · rw [if_neg (by omega), if_pos hgt, decide_eq_true (Nat.le_of_lt hgt),
      decide_eq_true (by omega)]
    rfl

/-! ## Packing what was rounded -/

theorem toNat_packComponents (s : Sign) (x : BitVec 11) (m : BitVec 52) :
    (packComponents .binary64 s x m).toNat =
      s.toBitVec.toNat * 2 ^ 63 + x.toNat * 2 ^ 52 + m.toNat := by
  rw [packComponents, BitVec.toNat_append, ← Nat.shiftLeft_add_eq_or_of_lt m.isLt,
    Nat.shiftLeft_eq, BitVec.toNat_append, ← Nat.shiftLeft_add_eq_or_of_lt x.isLt,
    Nat.shiftLeft_eq]
  omega

/-- The word of a value that fits the format, whether it is normal or subnormal. -/
theorem toNat_pack {s : Sign} {m : Nat} {e : Int} (h : 0 < m) (hm : m < 2 ^ 53)
    (he : -1074 ≤ e) (hsub : m < 2 ^ 52 → e = -1074) :
    (UnpackedFloat.pack .binary64 (.finite s m e h)).toNat =
      s.toBitVec.toNat * 2 ^ 63 + min binary64.infinity ((e + 1074).toNat * 2 ^ 52 + m) := by
  have hlog : m.log2 < 53 := (Nat.log2_lt (Nat.ne_of_gt h)).2 hm
  have hlow : m < 2 ^ 52 → (e + 1074).toNat = 0 := fun hm => by rw [hsub hm]; rfl
  unfold UnpackedFloat.pack
  dsimp only
  rw [show Float.Model.Format.binary64.exponentBias = 1023 by decide,
    show Float.Model.Format.binary64.mantissaBits = 53 from rfl,
    show binary64.infinity = 2047 * 2 ^ 52 from rfl,
    show (e + (1023 : Nat) + (52 : Nat)).toNat = (e + 1074).toNat + 1 by omega]
  generalize (e + 1074).toNat = k at hlow ⊢
  split
  · next hbig =>
    have hones : (-1#11).toNat = 2047 := rfl
    have hzero : (0 : BitVec 52).toNat = 0 := rfl
    rw [packedInfinity, toNat_packComponents, hones, hzero]
    omega
  · next hfits =>
    split
    · next hnormal =>
      have hlow : 2 ^ 52 ≤ m := (Nat.log2_eq_iff (by omega)).1 (by omega : m.log2 = 52) |>.1
      rw [toNat_packComponents]
      simp only [BitVec.toNat_ofNat]
      omega
    · next hsubnormal =>
      have hlow : m < 2 ^ 52 := (Nat.log2_lt (by omega)).1 (by omega)
      rw [toNat_packComponents]
      simp only [BitVec.toNat_ofNat]
      omega

/-! ## Rounding a quotient -/

theorem targetExponent_eq (t : Int) :
    Float.Model.Format.binary64.targetExponent t = max (t - 53) (-1074) := rfl

theorem log2_div_two_pow (n k : Nat) : (n / 2 ^ k).log2 = n.log2 - k := by
  induction k with
  | zero => simp
  | succ k ih =>
    have hhalf := Nat.log2_def (n / 2 ^ k)
    rw [Nat.pow_succ, ← Nat.div_div_eq_div_mul]
    split at hhalf
    · omega
    · rw [Nat.div_eq_of_lt (by omega), Nat.log2_zero]
      omega

/-- A quotient with `k` more binary places has `k` more bits. -/
theorem log2_mul_two_pow_div {num den k : Nat} (hd : 0 < den) (h : num / den ≠ 0 ∨ k = 0) :
    (num * 2 ^ k / den).log2 = (num / den).log2 + k := by
  rcases h with h | rfl
  · have hpos : 0 < 2 ^ k := Nat.two_pow_pos k
    have hlow : 2 ^ ((num / den).log2 + k) ≤ num * 2 ^ k / den := by
      rw [Nat.le_div_iff_mul_le hd, Nat.pow_add, Nat.mul_right_comm]
      exact Nat.mul_le_mul_right _ ((Nat.le_div_iff_mul_le hd).1 (Nat.log2_self_le h))
    have hhigh : num * 2 ^ k / den < 2 ^ ((num / den).log2 + k + 1) := by
      rw [Nat.div_lt_iff_lt_mul hd, Nat.add_right_comm, Nat.pow_add, Nat.mul_right_comm]
      exact Nat.mul_lt_mul_of_pos_right ((Nat.div_lt_iff_lt_mul hd).1 Nat.lt_log2_self) hpos
    have hne : num * 2 ^ k / den ≠ 0 :=
      Nat.ne_of_gt (Nat.lt_of_lt_of_le (Nat.two_pow_pos _) hlow)
    exact (Nat.log2_eq_iff hne).2 ⟨hlow, hhigh⟩
  · simp

/-- The exponent of what is rounded is the one that `nearest` shifts to. -/
theorem targetExponent_quotient {num den p q : Nat} {e : Int} (hd : 0 < den) (he : e = p - q)
    (hfits : e ≤ Float.Model.Format.binary64.targetExponent (totalExponent (num / den) e)) :
    Float.Model.Format.binary64.targetExponent (totalExponent (num / den) e) =
      ((num * 2 ^ p * 2 ^ binary64.scale / (den * 2 ^ q)).log2 - 52 : Nat) - 1074 := by
  have hscale : binary64.scale = 1074 := rfl
  have hquotient : (num * 2 ^ p * 2 ^ binary64.scale / (den * 2 ^ q)).log2 =
      (num / den).log2 + (p + binary64.scale - q) - (q - (p + binary64.scale)) := by
    rw [Nat.mul_assoc, ← Nat.pow_add]
    rcases Nat.le_total q (p + binary64.scale) with hle | hle
    · obtain ⟨k, hk⟩ := Nat.exists_eq_add_of_le hle
      rw [hk, Nat.pow_add, Nat.mul_left_comm, Nat.mul_comm den,
        Nat.mul_div_mul_left _ _ (Nat.two_pow_pos q), log2_mul_two_pow_div hd]
      · omega
      · by_cases h0 : num / den = 0
        · rw [targetExponent_eq, totalExponent, h0, Nat.log2_zero] at hfits
          exact .inr (by omega)
        · exact .inl h0
    · obtain ⟨k, rfl⟩ := Nat.exists_eq_add_of_le hle
      rw [Nat.pow_add 2 _ k, Nat.mul_left_comm, Nat.mul_comm num,
        Nat.mul_div_mul_left _ _ (Nat.two_pow_pos _), ← Nat.div_div_eq_div_mul,
        log2_div_two_pow]
      omega
  rw [hquotient, targetExponent_eq, totalExponent]
  omega

/-- Shifting an integer of the format only takes out the bit of a carry. -/
theorem shiftToTargetExponent_exact (r : Nat) {e : Int} (he : -1074 ≤ e) :
    shiftToTargetExponent .binary64 r e .exact =
      (cut r (2 ^ (r.log2 - 52)), e + (r.log2 - 52 : Nat)) := by
  have hshift : (max (totalExponent r e - 53) (-1074) - e).toNat = r.log2 - 52 := by
    unfold totalExponent
    omega
  unfold shiftToTargetExponent shiftToExponent
  dsimp only
  rw [targetExponent_eq, hshift, cut_one, cut_shiftRight Nat.one_pos, Nat.one_mul]

/-- The word of a quotient that was rounded once and fits the format up to a carry. -/
theorem toNat_pack_carried {s : Sign} {r : Nat} {e : Int} {u : UnpackedFloat} (hr : r ≤ 2 ^ 53)
    (he : -1074 ≤ e) (hsub : r < 2 ^ 52 → e = -1074)
    (hu : u = if h : r / 2 ^ (r.log2 - 52) = 0 then .zero s
      else .finite s (r / 2 ^ (r.log2 - 52)) (e + (r.log2 - 52 : Nat)) (Nat.pos_of_ne_zero h)) :
    (UnpackedFloat.pack .binary64 u).toNat =
      s.toBitVec.toNat * 2 ^ 63 + min binary64.infinity ((e + 1074).toNat * 2 ^ 52 + r) := by
  subst hu
  rcases Nat.lt_or_eq_of_le hr with hlt | rfl
  · have hlog : r.log2 - 52 = 0 := by
      by_cases h0 : r = 0
      · simp [h0]
      · have := (Nat.log2_lt h0).2 hlt
        omega
    simp only [hlog, Nat.pow_zero, Nat.div_one, Int.natCast_zero, Int.add_zero]
    split
    · next h0 =>
      have hzero : (0 : BitVec 52).toNat = 0 := rfl
      have hfield : (0 : BitVec 11).toNat = 0 := rfl
      subst h0
      rw [UnpackedFloat.pack, packedZero, toNat_packComponents, hzero, hfield, hsub (by decide)]
      simp
    · next h0 => exact toNat_pack _ hlt he hsub
  · have hlog : (2 ^ 53 : Nat).log2 - 52 = 1 := by rw [Nat.log2_two_pow]
    have hhalf : (2 ^ 53 : Nat) / 2 ^ 1 = 2 ^ 52 := by decide
    have hfield : (e + (1 : Nat) + 1074).toNat = (e + 1074).toNat + 1 := by omega
    simp only [hlog, hhalf]
    rw [dif_neg (by decide), toNat_pack _ (by decide) (by omega) (by simp), hfield]
    omega

/-- What is rounded from a cut quotient is the word nearest to it. -/
theorem toNat_pack_roundWithAccuracy (s : Sign) {num den p q : Nat} {e : Int} (hd : 0 < den)
    (he : e = p - q)
    (hfits : e ≤ Float.Model.Format.binary64.targetExponent (totalExponent (num / den) e)) :
    (UnpackedFloat.pack .binary64
      (roundWithAccuracy .binary64 s (num / den) e (accuracyOfFraction (num % den) den))).toNat =
        s.toBitVec.toNat * 2 ^ 63 + binary64.nearest (num * 2 ^ p) (den * 2 ^ q) := by
  have hscale : binary64.scale = 1074 := rfl
  have hfraction : binary64.fraction = 52 := rfl
  have htarget := targetExponent_quotient hd he hfits
  rw [htarget] at hfits
  have hden : 0 < den * 2 ^ q := Nat.mul_pos hd (Nat.two_pow_pos q)
  have hupper := roundDiv_le_two_pow (Nat.mul_pos hden (Nat.two_pow_pos _))
    (shifted_le 52 (num * 2 ^ p * 2 ^ binary64.scale) hden)
  have hlower (hs : 0 < _) := two_pow_le_roundDiv (Nat.mul_pos hden (Nat.two_pow_pos _))
    (le_shifted 52 (num * 2 ^ p * 2 ^ binary64.scale) hden hs)
  unfold Format.nearest
  rw [hfraction]
  dsimp only
  generalize (num * 2 ^ p * 2 ^ binary64.scale / (den * 2 ^ q)).log2 - 52 = j at *
  -- both sides round the same quotient, with different powers of two left in it
  obtain ⟨k, hk⟩ : ∃ k, ((j - 1074 : Int) - e).toNat = k := ⟨_, rfl⟩
  have hround : roundDiv num (den * 2 ^ k) =
      roundDiv (num * 2 ^ p * 2 ^ binary64.scale) (den * 2 ^ q * 2 ^ j) := by
    have hplaces : q + j = p + binary64.scale + k := by omega
    rw [Nat.mul_assoc, ← Nat.pow_add, Nat.mul_assoc, ← Nat.pow_add, hplaces, Nat.pow_add 2 _ k,
      Nat.mul_comm num, Nat.mul_left_comm, roundDiv_mul (Nat.two_pow_pos _)]
  rw [← hround] at hupper hlower ⊢
  have hexponent : e + (k : Int) = j - 1074 := by omega
  have hfield : ((j - 1074 : Int) + 1074).toNat = j := by omega
  have hfirst : shiftToTargetExponent .binary64 (num / den) e
      (accuracyOfFraction (num % den) den) = (cut num (den * 2 ^ k), (j - 1074 : Int)) := by
    unfold shiftToTargetExponent shiftToExponent
    dsimp only
    rw [htarget, hk, cut_ofFraction num hd, cut_shiftRight hd, hexponent]
  unfold roundWithAccuracy
  rw [hfirst]
  dsimp only
  rw [roundedMantissa_cut (Nat.mul_pos hd (Nat.two_pow_pos k)),
    shiftToTargetExponent_exact _ (by omega)]
  have hcarried := toNat_pack_carried (s := s) (e := (j - 1074 : Int)) hupper (by omega)
    (fun hlt => by omega) rfl
  rw [hfield] at hcarried
  exact hcarried

/-- What is rounded from an integer at some exponent is the word nearest to it. -/
theorem toNat_pack_round (s : Sign) {m : Nat} {e : Int} (hm : 0 < m) (he : -1074 ≤ e) :
    (UnpackedFloat.pack .binary64 (UnpackedFloat.round .binary64 s m e)).toNat =
      s.toBitVec.toNat * 2 ^ 63 +
        binary64.nearest (m * 2 ^ (e + 1074).toNat) (2 ^ binary64.scale) := by
  have hscale : binary64.scale = 1074 := rfl
  unfold UnpackedFloat.round decreaseExponent
  dsimp only
  rw [targetExponent_eq, Nat.shiftLeft_eq]
  obtain ⟨k, hk⟩ : ∃ k, (e - max (totalExponent m e - 53) (-1074)).toNat = k := ⟨_, rfl⟩
  rw [hk]
  have hlog : (m * 2 ^ k / 1).log2 = m.log2 + k := by
    rw [log2_mul_two_pow_div Nat.one_pos (by rw [Nat.div_one]; exact .inl (Nat.ne_of_gt hm)),
      Nat.div_one]
  have hround := toNat_pack_roundWithAccuracy s (p := (e - k + 1074).toNat) (q := binary64.scale)
    (e := e - k) Nat.one_pos (by omega) (by
      rw [targetExponent_eq, totalExponent, hlog]
      unfold totalExponent at hk
      omega)
  rw [Nat.div_one, Nat.mod_one, Nat.one_mul] at hround
  have hplaces : k + (e - k + 1074).toNat = (e + 1074).toNat := by omega
  rw [Nat.mul_assoc, ← Nat.pow_add, hplaces] at hround
  exact hround

end SimilarityStore.Numeric
