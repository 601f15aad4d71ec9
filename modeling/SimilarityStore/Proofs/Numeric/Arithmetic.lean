import SimilarityStore.Proofs.Numeric.BitPattern
import SimilarityStore.Proofs.Numeric.CorrectRounding

/-
  Double-precision arithmetic on places and values.  The rank of a finite value is its place in the
  order of double precision, and its value is a whole number of units.  Sums and quotients are the
  exact ones rounded to nearest (`rank_add`, `rank_div`), and so are conversions (`rank_convert`).
  What is not finite does not become finite again.
-/

namespace SimilarityStore.Numeric

open Float.Model UnpackedFloat

/-! ## Signs -/

theorem Format.place_zero (f : Format) (den : Nat) : f.place 0 den = 0 := by
  rw [place, Int.sign_zero, Int.zero_mul]

/-- What leaves zero alone goes past a sign. -/
theorem signed_apply (s : Sign) (n : Nat) {g : Nat → Nat} (h0 : g 0 = 0) :
    (s.apply n).sign * g (s.apply n).natAbs = s.apply (g n) := by
  rcases Nat.eq_zero_or_pos n with rfl | hn
  · cases s <;> simp [Sign.apply, h0]
  · cases s <;> simp [Sign.apply, Int.sign_eq_one_of_pos (Int.natCast_pos.2 hn)]

theorem Format.place_apply (f : Format) (s : Sign) (n : Nat) {den : Nat} (hd : 0 < den) :
    f.place (s.apply n) den = s.apply (f.nearest n den) :=
  signed_apply s n (g := fun n => f.nearest n den) (f.nearest_zero hd)

theorem Format.value_apply (f : Format) (s : Sign) (w : Nat) :
    f.value (s.apply w) = s.apply (f.units w) :=
  signed_apply s w f.units_zero

theorem exists_apply (i : Int) : ∃ s : Sign, i = s.apply i.natAbs := by
  rcases Int.natAbs_eq i with hi | hi
  · exact ⟨.positive, hi⟩
  · exact ⟨.negative, hi⟩

theorem natAbs_apply (s : Sign) (n : Nat) : (s.apply n).natAbs = n := by
  cases s <;> simp [Sign.apply]

theorem Format.natAbs_place (f : Format) (i : Int) {den : Nat} (hd : 0 < den) :
    (f.place i den).natAbs = f.nearest i.natAbs den := by
  obtain ⟨s, hs⟩ := exists_apply i
  rw [hs, f.place_apply s _ hd, natAbs_apply, natAbs_apply]

theorem Format.natAbs_value (f : Format) (r : Int) : (f.value r).natAbs = f.units r.natAbs := by
  obtain ⟨s, hs⟩ := exists_apply r
  rw [hs, f.value_apply, natAbs_apply, natAbs_apply]

theorem Format.value_natCast (f : Format) (w : Nat) : f.value w = f.units w :=
  f.value_apply .positive w

theorem Format.place_natCast (f : Format) (n : Nat) {den : Nat} (hd : 0 < den) :
    f.place n den = f.nearest n den :=
  f.place_apply .positive n hd

/-- The value of a place in the format is rounded to that place. -/
theorem Format.place_value (f : Format) {r : Int} (h : r.natAbs ≤ f.infinity) :
    f.place (f.value r) (2 ^ f.scale) = r := by
  obtain ⟨s, hs⟩ := exists_apply r
  rw [hs, f.value_apply, f.place_apply s _ (Nat.two_pow_pos _), f.nearest_units h]

namespace FloatingPoint

variable {F : Type} [FloatingPoint F]

/-- The value in units of its format. -/
def value (x : F) : Int := (format F).value (rank x)

theorem natAbs_rank (x : F) : (rank x).natAbs = magnitude x := by
  unfold rank
  split <;> simp

theorem isFinite_iff {x : F} : isFinite x = true ↔ (rank x).natAbs < (format F).infinity := by
  rw [natAbs_rank, isFinite, decide_eq_true_eq]

/-- Finite values that are equal in units have the same place. -/
theorem rank_eq_of_value_eq {x y : F} (hx : isFinite x = true) (hy : isFinite y = true)
    (h : value x = value y) : rank x = rank y := by
  rw [isFinite_iff] at hx hy
  rw [← (format F).place_value (Nat.le_of_lt hx), ← (format F).place_value (Nat.le_of_lt hy)]
  exact congrArg (fun v => (format F).place v (2 ^ (format F).scale)) h

theorem isLess_iff {x y : F} :
    isLess x y = true ↔ isNaN x = false ∧ isNaN y = false ∧ rank x < rank y := by
  unfold isLess order?
  cases hx : isNaN x <;> cases hy : isNaN y <;> simp [Int.compare_eq_lt]

theorem isAtLeast_iff {x y : F} :
    isAtLeast x y = true ↔ isNaN x = false ∧ isNaN y = false ∧ rank y ≤ rank x := by
  unfold isAtLeast order?
  cases hx : isNaN x <;> cases hy : isNaN y <;> simp
  rw [Int.compare_eq_lt, Int.not_lt]

/-- The place of a value with a known word. -/
theorem rank_of_word {x : Float} {s : Sign} {m : Nat} (h : word x = s.toBitVec.toNat * 2 ^ 63 + m)
    (hm : m ≤ binary64.infinity) : rank x = s.apply m := by
  have hsign : (format Float).signBit = 2 ^ 63 := rfl
  have hlt : m < 2 ^ 63 := Nat.lt_of_le_of_lt hm (by decide)
  unfold rank isNegative magnitude
  rw [h, hsign]
  cases s with
  | positive =>
    have hbit : Sign.positive.toBitVec.toNat = 0 := rfl
    rw [hbit, Nat.zero_mul, Nat.zero_add, Nat.mod_eq_of_lt hlt,
      if_neg (by rw [decide_eq_true_eq]; omega)]
    rfl
  | negative =>
    have hbit : Sign.negative.toBitVec.toNat = 1 := rfl
    rw [hbit, Nat.one_mul, Nat.add_mod_left, Nat.mod_eq_of_lt hlt,
      if_pos (by rw [decide_eq_true_eq]; omega)]
    rfl

/-! ## Unpacked values -/

/-- The value that an unpacked one is packed into. -/
def packed (u : UnpackedFloat) : Float := .ofModel (Float.Model.pack u)

/-- The value, unpacked. -/
def unpacked (x : Float) : UnpackedFloat := x.toModel.unpack

theorem packed_unpacked (x : Float) : packed (unpacked x) = x := ofBits_toBits x

theorem rank_packed_zero (s : Sign) : rank (packed (.zero s)) = 0 := by
  cases s <;> decide

/-- An unpacked value is a finite one of some units. -/
inductive Stands : UnpackedFloat → Int → Prop
  | zero (s : Sign) : Stands (.zero s) 0
  | finite (s : Sign) (m : Nat) (e : Int) (h : 0 < m) :
      -1074 ≤ e → Stands (.finite s m e h) (s.apply (m * 2 ^ (e + 1074).toNat : Nat))

theorem stands_finite {s : Sign} {m n : Nat} {e : Int} (h : 0 < m) (he : -1074 ≤ e)
    (hn : n = m * 2 ^ (e + 1074).toNat) : Stands (.finite s m e h) (s.apply n) := by
  rw [hn]
  exact .finite s m e h he

/-- The bit pattern of a value. -/
def bits (x : Float) : BitVec Float.Model.Format.binary64.numBits := x.toBits.toBitVec

/-- The sign that the sign bit stands for. -/
def sign (x : Float) : Sign := Sign.ofBitVec (unpackSign (bits x))

section Fields

variable (b : BitVec Float.Model.Format.binary64.numBits)

theorem toNat_mantissaField : (unpackMantissa b).toNat = b.toNat % 2 ^ 52 := by
  simp [unpackMantissa]

theorem toNat_exponentField : (unpackExponent b).toNat = b.toNat / 2 ^ 52 % 2 ^ 11 := by
  simp [unpackExponent, Nat.shiftRight_eq_div_pow]

end Fields

theorem toNat_unpackMantissa (x : Float) :
    (unpackMantissa (bits x)).toNat = magnitude x % 2 ^ 52 := by
  rw [toNat_mantissaField]
  exact (Nat.mod_mod_of_dvd (word x) ⟨2 ^ 11, rfl⟩).symm

theorem toNat_unpackExponent (x : Float) :
    (unpackExponent (bits x)).toNat = magnitude x / 2 ^ 52 := by
  rw [toNat_exponentField]
  exact (Nat.mod_mul_right_div_self (word x) (2 ^ 52) (2 ^ 11)).symm

theorem toNat_unpackSign (x : Float) : (unpackSign (bits x)).toNat = word x / 2 ^ 63 := by
  have hword : (bits x).toNat = word x := rfl
  have hlt : word x < 2 * 2 ^ 63 := word_lt x
  have hbit : word x / 2 ^ 63 % 2 = word x / 2 ^ 63 := Nat.mod_eq_of_lt (by omega)
  rw [← hbit, ← hword]
  simp [unpackSign, Nat.shiftRight_eq_div_pow]

/-- The place of a value is its sign applied to its magnitude. -/
theorem rank_eq_apply {x : Float} (h : magnitude x ≤ binary64.infinity) :
    rank x = (sign x).apply (magnitude x) := by
  apply rank_of_word _ h
  rw [sign, toBitVec_ofBitVec, toNat_unpackSign]
  exact (Nat.div_add_mod' (word x) (2 ^ 63)).symm

/-- A finite value stands for its units. -/
theorem stands_unpacked {x : Float} (h : isFinite x = true) :
    Stands (unpacked x) (value x) := by
  have hfinite : magnitude x < 2047 * 2 ^ 52 := of_decide_eq_true h
  have hvalue : value x = (sign x).apply (binary64.units (magnitude x)) := by
    rw [value, rank_eq_apply (Nat.le_of_lt hfinite)]
    exact binary64.value_apply _ _
  have hmantissa := toNat_unpackMantissa x
  have hexponent := toNat_unpackExponent x
  have hbias : Float.Model.Format.binary64.exponentBias = 1023 := by decide
  rw [hvalue]
  change Stands (UnpackedFloat.unpack .binary64 (bits x)) _
  unfold UnpackedFloat.unpack
  dsimp only
  split
  · next htop =>
    have hones : (-1#11).toNat = 2047 := rfl
    rw [htop, hones] at hexponent
    omega
  · split
    · next hzero =>
      have hnone : (0#11).toNat = 0 := rfl
      rw [hzero, hnone] at hexponent
      have hlow : magnitude x < 2 ^ 52 := by omega
      have hunits : binary64.units (magnitude x) = magnitude x := if_pos hlow
      rw [Nat.mod_eq_of_lt hlow] at hmantissa
      rw [hunits, ← hmantissa, hzero, hbias]
      split
      · next hempty =>
        have hnothing : (sign x).apply ((0#52).toNat : Nat) = 0 := by
          cases sign x <;> rfl
        rw [hempty, hnothing]
        exact .zero _
      · exact stands_finite _ (by decide) (Nat.mul_one _).symm
    · next hnormal =>
      have hhigh : ¬magnitude x < 2 ^ 52 := by
        intro hlow
        apply hnormal
        apply BitVec.eq_of_toNat_eq
        rw [hexponent, Nat.div_eq_of_lt hlow]
        rfl
      have hunits : binary64.units (magnitude x) =
          (2 ^ 52 + magnitude x % 2 ^ 52) * 2 ^ (magnitude x / 2 ^ 52 - 1) := if_neg hhigh
      rw [hunits, hexponent, hbias]
      refine stands_finite _ (by omega) ?_
      rw [toNat_hiddenBit, hmantissa]
      congr 2
      omega

/-! ## Sums -/

theorem apply_mul (s : Sign) (a c : Int) : s.apply a * c = s.apply (a * c) := by
  cases s with
  | negative => exact Int.neg_mul a c
  | positive => rfl

/-- The units of an integer do not depend on the exponent that it is written with. -/
theorem shiftLeft_units (m : Nat) {e l : Int} (hl : -1074 ≤ l) (hle : l ≤ e) :
    ((m <<< (e - l).toNat : Nat) : Int) * 2 ^ (l + 1074).toNat =
      (m * 2 ^ (e + 1074).toNat : Nat) := by
  have hplaces : (e - l).toNat + (l + 1074).toNat = (e + 1074).toNat := by omega
  rw [Nat.shiftLeft_eq, ← hplaces, Nat.pow_add, ← Nat.mul_assoc]
  push_cast
  rfl

/-- An integer is rounded to the place nearest to its units. -/
theorem rank_normalize (v : Int) {e : Int} (he : -1074 ≤ e) :
    rank (packed (UnpackedFloat.normalize .binary64 v e .positive)) =
      binary64.place (v * 2 ^ (e + 1074).toNat) (2 ^ binary64.scale) := by
  have hrounded (s : Sign) (n : Nat) (hn : 0 < n) :
      rank (packed (UnpackedFloat.round .binary64 s n e)) =
        binary64.place (s.apply n * 2 ^ (e + 1074).toNat) (2 ^ binary64.scale) := by
    rw [apply_mul, rank_of_word (toNat_pack_round s hn he) (binary64.nearest_le_infinity _ _),
      ← binary64.place_apply s _ (Nat.two_pow_pos _)]
    push_cast
    rfl
  unfold UnpackedFloat.normalize
  split
  · next h =>
    have hneg := Int.compare_eq_lt.1 h
    rw [hrounded _ _ (by omega)]
    congr 2
    simp only [Sign.apply]
    omega
  · next h =>
    rw [Int.compare_eq_eq.1 h, rank_packed_zero, Int.zero_mul, Format.place_zero]
  · next h =>
    have hpos := Int.compare_eq_gt.1 h
    rw [hrounded _ _ (by omega)]
    congr 2
    simp only [Sign.apply]
    omega

/-- A sum is the exact one, rounded to nearest. -/
theorem rank_add {x y : Float} (hx : isFinite x = true) (hy : isFinite y = true) :
    rank (x + y) = binary64.place (value x + value y) (2 ^ binary64.scale) := by
  have hsum : x + y = packed (UnpackedFloat.add .binary64 (unpacked x) (unpacked y)) := rfl
  have hplace {z : Float} (hz : isFinite z = true) :
      rank (packed (unpacked z)) = binary64.place (value z) (2 ^ binary64.scale) := by
    rw [packed_unpacked]
    exact (binary64.place_value (Nat.le_of_lt (isFinite_iff.1 hz))).symm
  have hpx := hplace hx
  have hpy := hplace hy
  have hxs := stands_unpacked hx
  have hys := stands_unpacked hy
  rw [hsum]
  generalize unpacked x = u at *
  generalize unpacked y = v at *
  generalize value x = a at *
  generalize value y = b at *
  cases hxs with
  | zero s =>
    rw [Int.zero_add, ← hpy]
    cases hys with
    | zero t => cases s <;> cases t <;> rfl
    | finite t n k h hk => rfl
  | finite s m e h he =>
    cases hys with
    | zero t =>
      rw [Int.add_zero, ← hpx]
      rfl
    | finite t n k h' hk =>
      have hunits := rank_normalize
        (s.apply (m <<< (e - min e k).toNat : Nat) + t.apply (n <<< (k - min e k).toNat : Nat))
        (Int.le_min.2 ⟨he, hk⟩)
      rw [Int.add_mul, apply_mul, apply_mul, shiftLeft_units _ (by omega) (by omega),
        shiftLeft_units _ (by omega) (by omega)] at hunits
      exact hunits

/-! ## Quotients -/

/-- A quotient has at least as many bits as the difference of the bits, less one. -/
theorem le_log2_quotient {m n : Nat} (hm : 0 < m) (hn : 0 < n) (j : Nat) :
    (m.log2 : Int) + j - n.log2 - 1 ≤ (m * 2 ^ j / n).log2 := by
  rcases Nat.lt_or_ge (n.log2) (m.log2 + j) with h | h
  · obtain ⟨d, hd⟩ := Nat.exists_eq_add_of_lt h
    have hle : 2 ^ d ≤ m * 2 ^ j / n := by
      rw [Nat.le_div_iff_mul_le hn]
      calc 2 ^ d * n ≤ 2 ^ d * 2 ^ (n.log2 + 1) :=
            Nat.mul_le_mul_left _ (Nat.le_of_lt Nat.lt_log2_self)
        _ = 2 ^ m.log2 * 2 ^ j := by
            rw [← Nat.pow_add, ← Nat.pow_add]
            congr 1
            omega
        _ ≤ m * 2 ^ j := Nat.mul_le_mul_right _ (Nat.log2_self_le (Nat.ne_of_gt hm))
    have hne : m * 2 ^ j / n ≠ 0 := Nat.ne_of_gt (Nat.lt_of_lt_of_le (Nat.two_pow_pos d) hle)
    have := (Nat.le_log2 hne).2 hle
    omega
  · omega

/-- The quotient of two integers at their exponents is rounded to the place nearest to the quotient
of their units. -/
theorem rank_divided (s : Sign) {m n : Nat} {e k : Int} (hm : 0 < m) (hn : 0 < n)
    (he : -1074 ≤ e) (hk : -1074 ≤ k) :
    rank (packed (roundWithAccuracy .binary64 s (divCore .binary64 m e n k).1
      (divCore .binary64 m e n k).2.1 (divCore .binary64 m e n k).2.2)) =
        binary64.place (s.apply (m * 2 ^ (e + 1074).toNat : Nat))
          (Int.natAbs (Sign.positive.apply (n * 2 ^ (k + 1074).toNat : Nat))) := by
  unfold divCore
  dsimp only
  rw [targetExponent_eq]
  generalize ht : min (e - k) (max (totalExponent m e - totalExponent n k - 53) (-1074)) = t
  generalize hj : (e - k - t).toNat = j
  rw [Nat.shiftLeft_eq]
  have hfits : t ≤ Float.Model.Format.binary64.targetExponent
      (totalExponent (m * 2 ^ j / n) t) := by
    have := le_log2_quotient hm hn j
    rw [targetExponent_eq]
    unfold totalExponent at ht ⊢
    omega
  rw [rank_of_word (toNat_pack_roundWithAccuracy s (p := t.toNat) (q := (-t).toNat) hn (by omega)
    hfits) (binary64.nearest_le_infinity _ _)]
  have hden : 0 < n * 2 ^ (k + 1074).toNat := Nat.mul_pos hn (Nat.two_pow_pos _)
  have hplaces : j + t.toNat + (k + 1074).toNat = (e + 1074).toNat + (-t).toNat := by omega
  rw [Sign.apply.eq_def .positive]
  dsimp only
  rw [Int.natAbs_natCast, binary64.place_apply s _ hden]
  have hcross : m * 2 ^ j * 2 ^ t.toNat * (n * 2 ^ (k + 1074).toNat) =
      m * 2 ^ (e + 1074).toNat * (n * 2 ^ (-t).toNat) :=
    calc m * 2 ^ j * 2 ^ t.toNat * (n * 2 ^ (k + 1074).toNat)
        = m * n * 2 ^ (j + t.toNat + (k + 1074).toNat) := by
          rw [Nat.pow_add, Nat.pow_add]
          ac_rfl
      _ = m * 2 ^ (e + 1074).toNat * (n * 2 ^ (-t).toNat) := by
          rw [hplaces, Nat.pow_add]
          ac_rfl
  rw [binary64.nearest_congr (Nat.mul_pos hn (Nat.two_pow_pos _)) hden hcross]

/-- A quotient by a positive value is the exact one, rounded to nearest. -/
theorem rank_div {x y : Float} (hx : isFinite x = true) (hy : isFinite y = true)
    (hpos : 0 < value y) : rank (x / y) = binary64.place (value x) (value y).natAbs := by
  have hquotient : x / y = packed (UnpackedFloat.div .binary64 (unpacked x) (unpacked y)) := rfl
  have hxs := stands_unpacked hx
  have hys := stands_unpacked hy
  rw [hquotient]
  generalize unpacked x = u at *
  generalize unpacked y = v at *
  generalize value x = a at *
  generalize value y = b at *
  cases hys with
  | zero t => exact absurd hpos (Int.lt_irrefl 0)
  | finite t n k h' hk =>
    cases t with
    | negative =>
      simp only [Sign.apply] at hpos
      omega
    | positive =>
      cases hxs with
      | zero s =>
        rw [Format.place_zero]
        exact rank_packed_zero _
      | finite s m e h he =>
        have hsame : s / Sign.positive = s := by cases s <;> rfl
        change rank (packed (roundWithAccuracy .binary64 (s / .positive) _ _ _)) = _
        rw [hsame]
        exact rank_divided s h h' he hk

/-- A quotient by a value that is not below one is not beyond the dividend. -/
theorem isFinite_div {x y : Float} (hx : isFinite x = true) (hy : isFinite y = true)
    (hone : 2 ^ binary64.scale ≤ value y) : isFinite (x / y) = true := by
  have hunit : (0 : Int) < 2 ^ binary64.scale := Int.pow_pos (by decide)
  have hpos : 0 < value y := Int.lt_of_lt_of_le hunit hone
  have hden : 2 ^ binary64.scale ≤ (value y).natAbs := by
    rw [← Int.natAbs_of_nonneg (Int.le_of_lt hpos)] at hone
    exact_mod_cast hone
  have hx' := isFinite_iff.1 hx
  rw [isFinite_iff, rank_div hx hy hpos, Format.natAbs_place _ _ (by omega)]
  calc binary64.nearest (value x).natAbs (value y).natAbs
      ≤ binary64.nearest (value x).natAbs (2 ^ binary64.scale) :=
        binary64.nearest_le (by omega) (Nat.two_pow_pos _) (Nat.mul_le_mul_left _ hden)
    _ = (rank x).natAbs := by
        have hvalue : (value x).natAbs = binary64.units (rank x).natAbs := Format.natAbs_value _ _
        rw [hvalue]
        exact binary64.nearest_units (Nat.le_of_lt hx')
    _ < binary64.infinity := hx'

/-! ## Values that are not finite -/

theorem isNaN_eq_false_iff {x : F} : isNaN x = false ↔ magnitude x ≤ (format F).infinity := by
  rw [isNaN, decide_eq_false_iff_not, Nat.not_lt]

theorem isFinite_of_packed {u : UnpackedFloat} (h : isFinite (packed u) = true) :
    u.isFinite = true := by
  cases u with
  | notANumber => exact absurd h (by decide)
  | infinity s => cases s <;> exact absurd h (by decide)
  | zero s => rfl
  | finite s m e hm => rfl

theorem isFinite_of_unpacked {x : Float} (h : (unpacked x).isFinite = true) :
    isFinite x = true := by
  have hlt : magnitude x < 2 ^ 63 := Nat.mod_lt _ (by decide)
  have hfield : unpackExponent (bits x) ≠ -1#11 := by
    intro htop
    change (UnpackedFloat.unpack .binary64 (bits x)).isFinite = true at h
    unfold UnpackedFloat.unpack at h
    dsimp only at h
    rw [if_pos htop] at h
    split at h <;> cases h
  have hexponent : magnitude x / 2 ^ 52 ≠ 2047 := by
    intro htop
    apply hfield
    apply BitVec.eq_of_toNat_eq
    rw [toNat_unpackExponent, htop]
    rfl
  have hbelow : magnitude x < 2047 * 2 ^ 52 := by omega
  exact decide_eq_true hbelow

/-- Only finite values have a finite sum. -/
theorem isFinite_of_add {x y : Float} (h : isFinite (x + y) = true) :
    isFinite x = true ∧ isFinite y = true := by
  have hsum : (UnpackedFloat.add .binary64 (unpacked x) (unpacked y)).isFinite = true :=
    isFinite_of_packed h
  have hboth : (unpacked x).isFinite = true ∧ (unpacked y).isFinite = true := by
    generalize unpacked x = u at hsum ⊢
    generalize unpacked y = v at hsum ⊢
    cases u <;> cases v <;> simp only [UnpackedFloat.add] at hsum
    case infinity.infinity s t => split at hsum <;> cases hsum
    all_goals first | exact ⟨rfl, rfl⟩ | cases hsum
  exact ⟨isFinite_of_unpacked hboth.1, isFinite_of_unpacked hboth.2⟩

/-- Only finite values have a finite quotient by a finite value. -/
theorem isFinite_of_div {x y : Float} (hy : isFinite y = true) (h : isFinite (x / y) = true) :
    isFinite x = true := by
  have hquotient : (UnpackedFloat.div .binary64 (unpacked x) (unpacked y)).isFinite = true :=
    isFinite_of_packed h
  apply isFinite_of_unpacked
  have hys := stands_unpacked hy
  generalize unpacked x = u at hquotient ⊢
  generalize unpacked y = v at hquotient hys
  generalize value y = b at hys
  cases hys <;> cases u <;> first | rfl | cases hquotient

/-! ## Conversions -/

/-- A word that is no pattern of a value without number is kept. -/
theorem word_ofWord {n : Nat} (hn : n < 2 ^ 64) (hm : n % 2 ^ 63 ≤ binary64.infinity) :
    word (ofWord n : Float) = n := by
  have hinf : binary64.infinity = 2047 * 2 ^ 52 := rfl
  rw [hinf] at hm
  let b : BitVec Float.Model.Format.binary64.numBits := (UInt64.ofNat n).toBitVec
  have hb : b.toNat = n := Nat.mod_eq_of_lt hn
  have valid : Float.Model.Format.binary64.Valid b := by
    refine ⟨fun htop hman => absurd ?_ hman⟩
    have hones : (-1#11).toNat = 2047 := rfl
    have hfield := toNat_exponentField b
    rw [htop, hb, hones] at hfield
    apply BitVec.eq_of_toNat_eq
    rw [toNat_mantissaField, hb]
    change n % 2 ^ 52 = 0
    omega
  have hpack := pack_unpack valid (by decide)
  change (UnpackedFloat.pack .binary64 (UnpackedFloat.unpack .binary64 b)).toNat = n
  rw [hpack, hb]

section OfMagnitude

variable (negative : Bool) {m : Nat} (hm : m ≤ binary64.infinity)

include hm

/-- The word of a value that is given by its sign and magnitude. -/
theorem word_ofMagnitude :
    word (ofMagnitude negative m : Float) = negative.toNat * 2 ^ 63 + m := by
  have hinf : binary64.infinity = 2047 * 2 ^ 52 := rfl
  have hsign : (format Float).signBit = 2 ^ 63 := rfl
  rw [hinf] at hm
  unfold ofMagnitude
  rw [hsign]
  cases negative with
  | false =>
    have hword := word_ofWord (n := m) (by omega) (by omega)
    simpa using hword
  | true =>
    have hword := word_ofWord (n := 2 ^ 63 + m) (by omega) (by omega)
    simpa using hword

theorem rank_ofMagnitude :
    rank (ofMagnitude negative m : Float) = if negative then -(m : Int) else m := by
  have hword := word_ofMagnitude negative hm
  cases negative with
  | false => exact rank_of_word (s := .positive) hword hm
  | true => exact rank_of_word (s := .negative) hword hm

theorem magnitude_ofMagnitude : magnitude (ofMagnitude negative m : Float) = m := by
  rw [← natAbs_rank, rank_ofMagnitude negative hm]
  cases negative <;> simp

theorem isNegative_ofMagnitude : isNegative (ofMagnitude negative m : Float) = negative := by
  have hinf : binary64.infinity = 2047 * 2 ^ 52 := rfl
  have hsign : (format Float).signBit = 2 ^ 63 := rfl
  rw [isNegative, word_ofMagnitude negative hm, hsign]
  cases negative with
  | false => exact decide_eq_false (by simp only [Bool.toNat_false]; omega)
  | true => exact decide_eq_true (by simp only [Bool.toNat_true]; omega)

/-- A value that is given by a sign and a magnitude is a number. -/
theorem isNaN_ofMagnitude : isNaN (ofMagnitude negative m : Float) = false := by
  refine decide_eq_false ?_
  rw [magnitude_ofMagnitude negative hm]
  exact Nat.not_lt_of_le hm

end OfMagnitude

theorem isNaN_ofInt (i : Int) : isNaN (ofInt i : Float) = false :=
  isNaN_ofMagnitude _ (binary64.nearest_le_infinity _ _)

/-- Signs of values are signs of integers. -/
theorem exists_sign (x : F) :
    ∃ s : Sign, ∀ m : Nat, (if isNegative x then -(m : Int) else m) = s.apply m := by
  cases isNegative x with
  | false => exact ⟨.positive, fun m => rfl⟩
  | true => exact ⟨.negative, fun m => rfl⟩

/-- A finite value is converted to the place nearest to it. -/
theorem rank_convert {x : F} (h : isFinite x = true) :
    rank (convert x : Float) = binary64.place (value x) (2 ^ (format F).scale) := by
  obtain ⟨s, hs⟩ := exists_sign x
  have hplace : binary64.place (value x) (2 ^ (format F).scale) =
      s.apply (binary64.nearest ((format F).units (magnitude x)) (2 ^ (format F).scale)) := by
    rw [value, rank, hs, Format.value_apply, Format.place_apply _ _ _ (Nat.two_pow_pos _)]
  have hconvert : (convert x : Float) = ofMagnitude (isNegative x)
      (binary64.nearest ((format F).units (magnitude x)) (2 ^ (format F).scale)) := by
    unfold convert
    rw [isNaN_of_isFinite h, if_neg Bool.false_ne_true, if_pos h]
    rfl
  rw [hplace, hconvert, rank_ofMagnitude _ (binary64.nearest_le_infinity _ _), hs]

/-- Only finite values are converted to finite ones. -/
theorem isFinite_of_convert {x : F} (h : isFinite (convert x : Float) = true) :
    isFinite x = true := by
  unfold convert at h
  split at h
  · exact absurd h (by decide)
  · split at h
    · assumption
    · cases hneg : isNegative x <;> rw [hneg] at h <;> exact absurd h (by decide)

end FloatingPoint

end SimilarityStore.Numeric
