import SimilarityStore.Proofs.Numeric.Arithmetic

/-
  Negation and subtraction of double-precision values.  Negation turns the sign over and keeps the
  magnitude (`neg_eq`), also where the value is unpacked (`unpacked_neg`), and subtraction adds the
  negation (`sub_eq_add_neg`).  So a difference is the exact one, rounded to nearest (`rank_sub`).
-/

namespace SimilarityStore.Numeric.FloatingPoint

open Float.Model UnpackedFloat

/-! ## Negation -/

section Negation

variable {x y : Float}

/-- The sign is that of the sign bit. -/
theorem sign_eq (x : Float) : sign x = if isNegative x then .negative else .positive := by
  have hlt : word x < 2 * 2 ^ 63 := word_lt x
  have hbit := toNat_unpackSign x
  have hweight : (format Float).signBit = 2 ^ 63 := rfl
  have hone : (1#1).toNat = 1 := rfl
  have hzero : (0#1).toNat = 0 := rfl
  unfold sign isNegative
  rw [hweight]
  by_cases h : 2 ^ 63 ≤ word x
  · have hset : unpackSign (bits x) = 1#1 := BitVec.eq_of_toNat_eq (by rw [hbit, hone]; omega)
    rw [if_pos (decide_eq_true h), hset]
    rfl
  · have hclear : unpackSign (bits x) = 0#1 := BitVec.eq_of_toNat_eq (by rw [hbit, hzero]; omega)
    rw [if_neg (by simpa using h), hclear]
    rfl

/-- Values of one magnitude with different signs are each other's negation when unpacked. -/
theorem unpacked_of_opposite (hmagnitude : magnitude x = magnitude y)
    (hsign : sign x = -sign y) : unpacked x = (unpacked y).neg := by
  have hexponent : unpackExponent (bits x) = unpackExponent (bits y) :=
    BitVec.eq_of_toNat_eq (by rw [toNat_unpackExponent, toNat_unpackExponent, hmagnitude])
  have hmantissa : unpackMantissa (bits x) = unpackMantissa (bits y) :=
    BitVec.eq_of_toNat_eq (by rw [toNat_unpackMantissa, toNat_unpackMantissa, hmagnitude])
  change UnpackedFloat.unpack .binary64 (bits x) = (UnpackedFloat.unpack .binary64 (bits y)).neg
  unfold sign at hsign
  unfold UnpackedFloat.unpack
  simp only [hexponent, hmantissa, hsign]
  split
  · split <;> rfl
  · split
    · split <;> rfl
    · rfl

/-- The value of the other sign is the negation when unpacked. -/
theorem unpacked_opposite (h : magnitude x ≤ binary64.infinity) :
    unpacked (ofMagnitude (!isNegative x) (magnitude x)) = (unpacked x).neg := by
  refine unpacked_of_opposite (magnitude_ofMagnitude _ h) ?_
  rw [sign_eq, sign_eq, isNegative_ofMagnitude _ h]
  cases isNegative x <;> rfl

/-- The negation of a number has the other sign and the same magnitude. -/
theorem neg_eq (h : magnitude x ≤ binary64.infinity) :
    -x = ofMagnitude (!isNegative x) (magnitude x) := by
  have hneg : -x = packed (unpacked x).neg := rfl
  rw [hneg, ← unpacked_opposite h, packed_unpacked]

theorem unpacked_neg (h : magnitude x ≤ binary64.infinity) : unpacked (-x) = (unpacked x).neg := by
  rw [neg_eq h, unpacked_opposite h]

theorem rank_neg (h : magnitude x ≤ binary64.infinity) : rank (-x) = -rank x := by
  rw [neg_eq h, rank_ofMagnitude _ h, rank]
  cases isNegative x <;> simp

theorem isNaN_neg (h : isNaN x = false) : isNaN (-x) = false := by
  have hle := isNaN_eq_false_iff.1 h
  rw [neg_eq hle]
  exact isNaN_ofMagnitude _ hle

theorem isFinite_neg (h : isFinite x = true) : isFinite (-x) = true := by
  have hle : magnitude x ≤ binary64.infinity := Nat.le_of_lt (of_decide_eq_true h)
  rw [isFinite_iff, rank_neg hle, Int.natAbs_neg, natAbs_rank]
  exact of_decide_eq_true h

theorem value_neg (h : magnitude x ≤ binary64.infinity) : value (-x) = -value x := by
  rw [value, value, rank_neg h, Format.value, Format.value, Int.sign_neg, Int.natAbs_neg,
    Int.neg_mul]

end Negation

/-! ## Differences -/

theorem sub_apply (s : Sign) (a b : Int) : a - s.apply b = a + (-s).apply b := by
  cases s with
  | negative => exact Int.sub_neg a b
  | positive => exact Int.sub_eq_add_neg

/-- Taking away an unpacked value is adding its negation. -/
theorem sub_eq_add_neg_unpacked (spec : Float.Model.Format) (u v : UnpackedFloat) :
    u.sub spec v = u.add spec v.neg := by
  cases v with
  | notANumber => cases u <;> rfl
  | infinity t =>
    cases u with
    | infinity s => cases s <;> cases t <;> rfl
    | notANumber => rfl
    | zero s => rfl
    | finite s m e h => rfl
  | zero t =>
    cases u with
    | zero s => cases s <;> cases t <;> rfl
    | notANumber => rfl
    | infinity s => rfl
    | finite s m e h => rfl
  | finite t n k h =>
    cases u with
    | finite s m e h' =>
      simp only [UnpackedFloat.sub, UnpackedFloat.add, UnpackedFloat.neg, sub_apply]
    | notANumber => rfl
    | infinity s => rfl
    | zero s => rfl

theorem sub_eq_add_neg {x y : Float} (hy : isFinite y = true) : x - y = x + -y := by
  have hle : magnitude y ≤ binary64.infinity := Nat.le_of_lt (of_decide_eq_true hy)
  have hsub : x - y = packed ((unpacked x).sub .binary64 (unpacked y)) := rfl
  have hadd : x + -y = packed ((unpacked x).add .binary64 (unpacked (-y))) := rfl
  rw [hsub, hadd, unpacked_neg hle, sub_eq_add_neg_unpacked]

/-- A difference is the exact one, rounded to nearest. -/
theorem rank_sub {x y : Float} (hx : isFinite x = true) (hy : isFinite y = true) :
    rank (x - y) = binary64.place (value x - value y) (2 ^ binary64.scale) := by
  have hle : magnitude y ≤ binary64.infinity := Nat.le_of_lt (of_decide_eq_true hy)
  rw [sub_eq_add_neg hy, rank_add hx (isFinite_neg hy), value_neg hle, Int.sub_eq_add_neg]

end SimilarityStore.Numeric.FloatingPoint
