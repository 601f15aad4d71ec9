import SimilarityStore.Proofs.Numeric.Arithmetic

/-
  What rounding does to whole numbers of units.  They are rounded to multiples of a power of two, as
  many places below their highest bit as the format stores (`Format.units_nearest`).  So a number of
  no more bits than that, times a power of two, is rounded to itself (`Format.value_place`).
  Integers are in the order of their double-precision values, and up to `2 ^ 53` they are these
  values (`value_ofInt`), so there the order is the same (`compare_rank_ofInt`).
-/

namespace SimilarityStore.Numeric

namespace Format

section Words

variable (f : Format) {n c k m e r : Nat}

theorem units_normal (hm : m < 2 ^ f.fraction) :
    f.units ((e + 1) * 2 ^ f.fraction + m) = (2 ^ f.fraction + m) * 2 ^ e := by
  have hpos : 0 < 2 ^ f.fraction := Nat.two_pow_pos _
  have hlarge : ¬ (e + 1) * 2 ^ f.fraction + m < 2 ^ f.fraction := by
    rw [Nat.add_mul, Nat.one_mul]
    omega
  have hfield : ((e + 1) * 2 ^ f.fraction + m) / 2 ^ f.fraction = e + 1 := by
    rw [Nat.mul_comm, Nat.mul_add_div hpos, Nat.div_eq_of_lt hm, Nat.add_zero]
  have hstored : ((e + 1) * 2 ^ f.fraction + m) % 2 ^ f.fraction = m := by
    rw [Nat.mul_comm, Nat.mul_add_mod, Nat.mod_eq_of_lt hm]
  rw [units, if_neg hlarge, hfield, hstored, Nat.add_sub_cancel]

/-- The magnitude of a word that is put together from a shift and a rounded significand, which may
carry into the next power of two. -/
theorem units_shifted (hr : r ≤ 2 ^ (f.fraction + 1)) (hk : k = 0 ∨ 2 ^ f.fraction ≤ r) :
    f.units (k * 2 ^ f.fraction + r) = r * 2 ^ k := by
  have hdouble : 2 ^ (f.fraction + 1) = 2 ^ f.fraction + 2 ^ f.fraction := by
    rw [Nat.pow_succ, Nat.mul_two]
  rw [hdouble] at hr
  rcases Nat.lt_or_ge r (2 ^ f.fraction) with hsmall | hlarge
  · obtain rfl : k = 0 := by omega
    rw [Nat.zero_mul, Nat.zero_add, units, if_pos hsmall, Nat.pow_zero, Nat.mul_one]
  · rcases Nat.lt_or_eq_of_le hr with hless | rfl
    · have hword : k * 2 ^ f.fraction + r = (k + 1) * 2 ^ f.fraction + (r - 2 ^ f.fraction) := by
        rw [Nat.add_mul, Nat.one_mul]
        omega
      rw [hword, f.units_normal (by omega), Nat.add_sub_cancel' hlarge]
    · have hword : k * 2 ^ f.fraction + (2 ^ f.fraction + 2 ^ f.fraction) =
          (k + 1 + 1) * 2 ^ f.fraction + 0 := by
        rw [Nat.add_mul, Nat.add_mul, Nat.one_mul]
        omega
      rw [hword, f.units_normal (Nat.two_pow_pos _), Nat.add_zero, Nat.pow_succ, Nat.add_mul,
        Nat.mul_comm (2 ^ k), ← Nat.mul_assoc, Nat.mul_two, Nat.add_mul]

/-- Rounded to the format, a number of units is a multiple of a power of two. -/
theorem units_nearest (hk : k = n.log2 - f.fraction) (htop : k + 2 < f.top) :
    f.units (f.nearest n (2 ^ f.scale)) = roundDiv n (2 ^ k) * 2 ^ k ∧
      f.nearest n (2 ^ f.scale) < f.infinity := by
  have hunit : 0 < 2 ^ f.scale := Nat.two_pow_pos _
  have hround : roundDiv (n * 2 ^ f.scale) (2 ^ f.scale * 2 ^ k) = roundDiv n (2 ^ k) := by
    rw [Nat.mul_comm n, roundDiv_mul hunit]
  have hupper : roundDiv n (2 ^ k) ≤ 2 ^ (f.fraction + 1) := by
    have hfits := shifted_le f.fraction n Nat.one_pos
    rw [Nat.div_one, ← hk, Nat.one_mul] at hfits
    exact roundDiv_le_two_pow (Nat.two_pow_pos _) hfits
  have hlower : k = 0 ∨ 2 ^ f.fraction ≤ roundDiv n (2 ^ k) := by
    refine or_iff_not_imp_left.2 fun hshift => ?_
    have hfills := le_shifted f.fraction n Nat.one_pos (by rw [Nat.div_one]; omega)
    rw [Nat.div_one, ← hk, Nat.one_mul] at hfills
    exact two_pow_le_roundDiv (Nat.two_pow_pos _) hfills
  have hbelow : k * 2 ^ f.fraction + roundDiv n (2 ^ k) < f.infinity := by
    have hstep : (k + 2 + 1) * 2 ^ f.fraction ≤ f.infinity := Nat.mul_le_mul_right _ htop
    rw [Nat.pow_succ, Nat.mul_two] at hupper
    rw [Nat.add_mul, Nat.add_mul, Nat.two_mul, Nat.one_mul] at hstep
    have hpos : 0 < 2 ^ f.fraction := Nat.two_pow_pos _
    omega
  have hnearest : f.nearest n (2 ^ f.scale) = k * 2 ^ f.fraction + roundDiv n (2 ^ k) := by
    unfold nearest
    dsimp only
    rw [Nat.mul_div_cancel _ hunit, ← hk, hround, Nat.min_eq_right (Nat.le_of_lt hbelow)]
  rw [hnearest]
  exact ⟨f.units_shifted hupper hlower, hbelow⟩

/-- A number of no more bits than the format stores, times a power of two, is cut nowhere. -/
theorem two_pow_log2_dvd (hn : n = c * 2 ^ k) (hc : c ≤ 2 ^ (f.fraction + 1)) :
    2 ^ (n.log2 - f.fraction) ∣ n ∧ n.log2 - f.fraction ≤ k + 1 := by
  rcases Nat.lt_or_eq_of_le hc with hless | rfl
  · have hlog : n.log2 - f.fraction ≤ k := by
      by_cases h0 : n = 0
      · simp [h0]
      · have hbits : n < 2 ^ (f.fraction + 1 + k) := by
          rw [hn, Nat.pow_add]
          exact Nat.mul_lt_mul_of_pos_right hless (Nat.two_pow_pos _)
        have := (Nat.log2_lt h0).2 hbits
        omega
    have hdvd : 2 ^ k ∣ n := ⟨c, by rw [hn, Nat.mul_comm]⟩
    exact ⟨Nat.dvd_trans (Nat.pow_dvd_pow 2 hlog) hdvd, by omega⟩
  · rw [← Nat.pow_add] at hn
    rw [hn, Nat.log2_two_pow]
    exact ⟨Nat.pow_dvd_pow 2 (by omega), by omega⟩

theorem units_nearest_exact (hn : n = c * 2 ^ k) (hc : c ≤ 2 ^ (f.fraction + 1))
    (htop : k + 3 < f.top) :
    f.units (f.nearest n (2 ^ f.scale)) = n ∧ f.nearest n (2 ^ f.scale) < f.infinity := by
  obtain ⟨⟨d, hd⟩, hshift⟩ := f.two_pow_log2_dvd hn hc
  rw [Nat.mul_comm] at hd
  have hround := roundDiv_mul_self d (Nat.two_pow_pos (n.log2 - f.fraction))
  rw [← hd] at hround
  obtain ⟨hunits, hbelow⟩ := f.units_nearest (n := n) rfl (by omega)
  rw [hunits, hround, ← hd]
  exact ⟨rfl, hbelow⟩

end Words

/-- Such a number, with a sign, is rounded to itself. -/
theorem value_place (f : Format) {v : Int} {c k : Nat} (hv : v.natAbs = c * 2 ^ k)
    (hc : c ≤ 2 ^ (f.fraction + 1)) (htop : k + 3 < f.top) :
    f.value (f.place v (2 ^ f.scale)) = v := by
  obtain ⟨hexact, -⟩ := f.units_nearest_exact hv hc htop
  obtain ⟨s, hs⟩ := exists_apply v
  rw [hs, f.place_apply s _ (Nat.two_pow_pos _), f.value_apply, hexact]

/-- A quotient is rounded like its double, its triple, and so on. -/
theorem place_mul (f : Format) (i : Int) {den c : Nat} (hd : 0 < den) (hc : 0 < c) :
    f.place (i * c) (den * c) = f.place i den := by
  obtain ⟨s, hs⟩ := exists_apply i
  have hmul : s.apply i.natAbs * c = s.apply (i.natAbs * c : Nat) := by
    rw [FloatingPoint.apply_mul]
    push_cast
    rfl
  rw [hs, hmul, f.place_apply s _ (Nat.mul_pos hd hc), f.place_apply s _ hd, Nat.mul_comm _ c,
    Nat.mul_comm den c, f.nearest_mul hc]

end Format

namespace FloatingPoint

/-! ## Integers -/

theorem rank_ofInt (i : Int) : rank (ofInt i : Float) = binary64.place i 1 := by
  have hrank := rank_ofMagnitude (i < 0) (binary64.nearest_le_infinity i.natAbs 1)
  refine hrank.trans ?_
  rw [Format.place]
  rcases Int.lt_trichotomy i 0 with hneg | rfl | hpos
  · rw [if_pos (decide_eq_true hneg), Int.sign_eq_neg_one_of_neg hneg, Int.neg_one_mul]
  · rw [Int.natAbs_zero, binary64.nearest_zero (by decide)]
    rfl
  · have hsign : ¬ decide (i < 0) = true := by rw [decide_eq_true_eq]; omega
    rw [if_neg hsign, Int.sign_eq_one_of_pos hpos, Int.one_mul]

/-- The values of integers are in their order. -/
theorem rank_ofInt_le {i j : Int} (h : i ≤ j) :
    rank (ofInt i : Float) ≤ rank (ofInt j : Float) := by
  rw [rank_ofInt, rank_ofInt]
  exact binary64.place_le (by decide) h

/-- Up to `2 ^ 53` an integer is its own value. -/
theorem value_ofInt {i : Int} (h : i.natAbs ≤ 2 ^ 53) :
    value (ofInt i : Float) = i * 2 ^ binary64.scale := by
  have hunits : (i * (2 ^ binary64.scale : Nat)).natAbs = i.natAbs * 2 ^ binary64.scale := by
    rw [Int.natAbs_mul, Int.natAbs_natCast]
  have hexact := binary64.value_place hunits h (by decide)
  have hplace := binary64.place_mul i Nat.one_pos (Nat.two_pow_pos binary64.scale)
  rw [Nat.one_mul] at hplace
  rw [hplace, ← rank_ofInt] at hexact
  exact_mod_cast hexact

/-- Up to `2 ^ 53` the values of integers compare as the integers do. -/
theorem compare_rank_ofInt {i j : Int} (hi : i.natAbs ≤ 2 ^ 53) (hj : j.natAbs ≤ 2 ^ 53) :
    compare (rank (ofInt i : Float)) (rank (ofInt j : Float)) = compare i j := by
  have hinjective (h : rank (ofInt i : Float) = rank (ofInt j : Float)) : i = j := by
    have hvalue : value (ofInt i : Float) = value (ofInt j : Float) :=
      congrArg binary64.value h
    rw [value_ofInt hi, value_ofInt hj] at hvalue
    exact Int.eq_of_mul_eq_mul_right (Int.pow_ne_zero (by decide)) hvalue
  rcases Int.lt_trichotomy i j with h | rfl | h
  · have hle := rank_ofInt_le (Int.le_of_lt h)
    have hne := mt hinjective (Int.ne_of_lt h)
    rw [Int.compare_eq_lt.2 h, Int.compare_eq_lt.2 (by omega)]
  · rw [Int.compare_eq_eq.2 rfl, Int.compare_eq_eq.2 rfl]
  · have hle := rank_ofInt_le (Int.le_of_lt h)
    have hne := mt hinjective (Int.ne_of_gt h)
    rw [Int.compare_eq_gt.2 h, Int.compare_eq_gt.2 (by omega)]

end FloatingPoint

end SimilarityStore.Numeric
