import SimilarityStore.Numeric.Shortest

/-
  Rounding decimals to double precision.  Rounding depends on the quotient only (`nearest_mul`) and
  leaves the magnitudes of the format alone (`nearest_units`).  So the decimal that is written for
  a positive finite magnitude is read back as that magnitude (`shortest_readsAs`), also after its
  trailing zeros are dropped.
-/

namespace SimilarityStore.Numeric

/-! ## Quotients -/

theorem roundDiv_mul {c : Nat} (hc : 0 < c) (num den : Nat) :
    roundDiv (c * num) (c * den) = roundDiv num den := by
  have lt (a b : Nat) : 2 * (c * a) < c * b ↔ 2 * a < b := by
    rw [Nat.mul_left_comm]
    exact Nat.mul_lt_mul_left hc
  have gt (a b : Nat) : c * b < 2 * (c * a) ↔ b < 2 * a := by
    rw [Nat.mul_left_comm]
    exact Nat.mul_lt_mul_left hc
  simp only [roundDiv, Nat.mul_div_mul_left _ _ hc, Nat.mul_mod_mul_left, lt, gt]

/-- A whole quotient is not changed. -/
theorem roundDiv_mul_self (n : Nat) {den : Nat} (hd : 0 < den) : roundDiv (n * den) den = n := by
  simp only [roundDiv, Nat.mul_div_cancel n hd, Nat.mul_mod_left, Nat.mul_zero, hd, if_true]

namespace Format

theorem nearest_zero (f : Format) {den : Nat} (hd : 0 < den) : f.nearest 0 den = 0 := by
  simp [nearest, roundDiv, hd]

/-- Rounding depends on the quotient only. -/
theorem nearest_mul (f : Format) {c : Nat} (hc : 0 < c) (num den : Nat) :
    f.nearest (c * num) (c * den) = f.nearest num den := by
  unfold nearest
  simp only [Nat.mul_assoc, Nat.mul_div_mul_left _ _ hc, roundDiv_mul hc]

/-! ## Magnitudes of the format -/

theorem units_pos (f : Format) {word : Nat} (h : 0 < word) : 0 < f.units word := by
  unfold units
  split
  · exact h
  · have := Nat.two_pow_pos f.fraction
    exact Nat.mul_pos (by omega) (Nat.two_pow_pos _)

theorem log2_units_of_subnormal (f : Format) {word : Nat} (h : word < 2 ^ f.fraction) :
    (f.units word).log2 - f.fraction = 0 := by
  rw [units, if_pos h]
  by_cases h0 : word = 0
  · simp [h0]
  · have := (Nat.log2_lt h0).2 h
    omega

theorem log2_units_of_normal (f : Format) {word : Nat} (h : ¬ word < 2 ^ f.fraction) :
    (f.units word).log2 = f.fraction + (word / 2 ^ f.fraction - 1) := by
  have hlt := Nat.mod_lt word (Nat.two_pow_pos f.fraction)
  have hpos := Nat.two_pow_pos (word / 2 ^ f.fraction - 1)
  rw [units, if_neg h]
  refine (Nat.log2_eq_iff (Nat.ne_of_gt (Nat.mul_pos (by omega) hpos))).2 ⟨?_, ?_⟩
  · rw [Nat.pow_add]
    exact Nat.mul_le_mul_right _ (by omega)
  · rw [Nat.add_right_comm, Nat.pow_add]
    exact Nat.mul_lt_mul_of_pos_right (by rw [Nat.pow_succ]; omega) hpos

/-- The magnitudes of the format are not rounded. -/
theorem nearest_units (f : Format) {word : Nat} (h : word ≤ f.infinity) :
    f.nearest (f.units word) (2 ^ f.scale) = word := by
  have hscale := Nat.two_pow_pos f.scale
  have hround (n : Nat) :
      roundDiv (f.units word * 2 ^ f.scale) (2 ^ f.scale * n) = roundDiv (f.units word) n := by
    rw [Nat.mul_comm]
    exact roundDiv_mul hscale _ _
  unfold nearest
  simp only [Nat.mul_div_cancel _ hscale, hround]
  by_cases hw : word < 2 ^ f.fraction
  · rw [f.log2_units_of_subnormal hw, Nat.zero_mul, Nat.zero_add, Nat.pow_zero, units, if_pos hw]
    have : roundDiv word 1 = word := by simpa using roundDiv_mul_self word Nat.one_pos
    omega
  · have hdiv : 0 < word / 2 ^ f.fraction :=
      Nat.div_pos (Nat.not_lt.1 hw) (Nat.two_pow_pos _)
    have hword := Nat.div_add_mod word (2 ^ f.fraction)
    rw [f.log2_units_of_normal hw, Nat.add_sub_cancel_left, units, if_neg hw,
      roundDiv_mul_self _ (Nat.two_pow_pos _)]
    have : (word / 2 ^ f.fraction - 1) * 2 ^ f.fraction + 2 ^ f.fraction =
        2 ^ f.fraction * (word / 2 ^ f.fraction) := by
      rw [← Nat.succ_mul, Nat.mul_comm]
      congr 1
      omega
    omega

/-! ## Decimals beyond the range of double precision -/

/-- What is below half of the least magnitude vanishes. -/
theorem nearest_of_tiny (f : Format) {num den : Nat} (h : 2 * (num * 2 ^ f.scale) < den) :
    f.nearest num den = 0 := by
  unfold nearest
  simp [Nat.div_eq_of_lt (show num * 2 ^ f.scale < den by omega), roundDiv, h,
    Nat.mod_eq_of_lt (show num * 2 ^ f.scale < den by omega)]

theorem nearest_of_huge {n : Nat} (h : 10 ^ decimalReach ≤ n) :
    binary64.nearest n 1 = binary64.infinity := by
  have hbig : 2 ^ (binary64.top + binary64.fraction) ≤ n * 2 ^ binary64.scale :=
    calc 2 ^ (binary64.top + binary64.fraction) ≤ 10 ^ decimalReach * 2 ^ binary64.scale := by
          decide +kernel
      _ ≤ n * 2 ^ binary64.scale := Nat.mul_le_mul_right _ h
  have hlog : binary64.top + binary64.fraction ≤ (n * 2 ^ binary64.scale).log2 :=
    (Nat.le_log2 (Nat.ne_of_gt (Nat.lt_of_lt_of_le (Nat.two_pow_pos _) hbig))).2 hbig
  have hshift : binary64.infinity ≤
      ((n * 2 ^ binary64.scale).log2 - binary64.fraction) * 2 ^ binary64.fraction :=
    Nat.mul_le_mul_right _ (by omega)
  unfold nearest
  dsimp only
  rw [Nat.div_one]
  exact Nat.min_eq_left (Nat.le_trans hshift (Nat.le_add_right _ _))

/-- Decimals so small that they are not looked at do vanish. -/
theorem nearest_of_vanishing {m k : Nat} (h : decimalReach + m.log2 < k) :
    binary64.nearest (10 * m) (10 ^ k) = 0 := by
  apply nearest_of_tiny
  have hm : m < 2 ^ (m.log2 + 1) := Nat.lt_log2_self
  calc 2 * (10 * m * 2 ^ binary64.scale) = m * (20 * 2 ^ binary64.scale) := by
        rw [Nat.mul_comm 10 m, Nat.mul_assoc m, Nat.mul_left_comm 2 m, ← Nat.mul_assoc 2 10]
    _ < 2 ^ (m.log2 + 1) * (20 * 2 ^ binary64.scale) :=
        Nat.mul_lt_mul_of_pos_right hm (Nat.mul_pos (by decide) (Nat.two_pow_pos _))
    _ = 2 ^ m.log2 * (2 * (20 * 2 ^ binary64.scale)) := by rw [Nat.pow_succ, Nat.mul_assoc]
    _ ≤ 10 ^ m.log2 * 10 ^ decimalReach :=
        Nat.mul_le_mul (Nat.pow_le_pow_left (by decide) _) (by decide +kernel)
    _ = 10 ^ (decimalReach + m.log2) := by rw [Nat.pow_add, Nat.mul_comm]
    _ ≤ 10 ^ k := Nat.pow_le_pow_right (by decide) (Nat.le_of_lt h)

/-! ## Decimals in range -/

theorem nearestDecimal_of_nonneg (f : Format) {m n : Nat} (hm : m ≠ 0) (hn : n ≤ decimalReach) :
    f.nearestDecimal m n = f.nearest (m * 10 ^ n) 1 := by
  unfold nearestDecimal
  rw [if_neg hm, if_neg (by omega), if_neg (by omega), if_neg (by omega), Int.natAbs_natCast]

theorem nearestDecimal_of_neg (f : Format) {m n : Nat} (hm : m ≠ 0) (hn : 0 < n)
    (hr : n ≤ decimalReach + m.log2) : f.nearestDecimal m (-n) = f.nearest m (10 ^ n) := by
  unfold nearestDecimal
  rw [if_neg hm, if_neg (by omega), if_neg (by omega), if_pos (by omega), Int.natAbs_neg,
    Int.natAbs_natCast]

/-- A decimal that is read as a positive finite magnitude is neither zero nor out of range. -/
theorem inRange_of_nearestDecimal {f : Format} {m : Nat} {e : Int}
    (hpos : 0 < f.nearestDecimal m e) (hfin : f.nearestDecimal m e < f.infinity) :
    m ≠ 0 ∧ e ≤ decimalReach ∧ -(decimalReach + m.log2 : Int) ≤ e := by
  unfold nearestDecimal at hpos hfin
  split at hpos
  · exact absurd hpos (Nat.lt_irrefl 0)
  · next hm =>
    rw [if_neg hm] at hfin
    split at hpos
    · next he =>
      rw [if_pos he] at hfin
      exact absurd hfin (Nat.lt_irrefl _)
    · next he =>
      split at hpos
      · exact absurd hpos (Nat.lt_irrefl 0)
      · next hv => exact ⟨hm, by omega, by omega⟩

/-- A trailing zero may be dropped from a decimal that is read as a positive finite magnitude. -/
theorem nearestDecimal_drop {m : Nat} {e : Int} (hpos : 0 < binary64.nearestDecimal (10 * m) e)
    (hfin : binary64.nearestDecimal (10 * m) e < binary64.infinity) :
    binary64.nearestDecimal m (e + 1) = binary64.nearestDecimal (10 * m) e := by
  obtain ⟨hm10, hle, hge⟩ := inRange_of_nearestDecimal hpos hfin
  have hm : m ≠ 0 := by omega
  rcases Int.lt_trichotomy e (-1) with he | he | he
  · obtain ⟨n, rfl⟩ : ∃ n : Nat, e = -((n + 1 : Nat) : Int) := ⟨e.natAbs - 1, by omega⟩
    have hneg : -((n + 1 : Nat) : Int) + 1 = -(n : Int) := by omega
    rw [nearestDecimal_of_neg _ hm10 (by omega) (by omega)] at hpos ⊢
    rw [hneg]
    by_cases hr : n ≤ decimalReach + m.log2
    · rw [nearestDecimal_of_neg _ hm (by omega) hr, Nat.pow_succ, Nat.mul_comm _ 10,
        nearest_mul _ (by decide)]
    · rw [nearest_of_vanishing (by omega)] at hpos
      exact absurd hpos (Nat.lt_irrefl 0)
  · subst he
    have hzero := nearestDecimal_of_nonneg binary64 hm (Nat.zero_le decimalReach)
    have hone := nearestDecimal_of_neg binary64 hm10 Nat.one_pos (by simp [decimalReach]; omega)
    simp only [Nat.pow_zero, Nat.mul_one, Int.natCast_zero] at hzero
    rw [show ((-1 : Int) + 1) = 0 from rfl, hzero,
      show (-1 : Int) = -((1 : Nat) : Int) from rfl, hone]
    exact (nearest_mul _ (by decide) m 1).symm
  · obtain ⟨n, rfl⟩ : ∃ n : Nat, e = n := ⟨e.toNat, by omega⟩
    rw [nearestDecimal_of_nonneg _ hm10 (by omega)] at hfin ⊢
    have hmul : 10 * m * 10 ^ n = m * 10 ^ (n + 1) := by
      rw [Nat.pow_succ, Nat.mul_comm 10 m, Nat.mul_assoc, Nat.mul_comm 10]
    by_cases hn : n + 1 ≤ decimalReach
    · rw [show (n : Int) + 1 = ((n + 1 : Nat) : Int) from rfl, nearestDecimal_of_nonneg _ hm hn,
        hmul]
    · have hhuge : 10 ^ decimalReach ≤ 10 * m * 10 ^ n := by
        rw [hmul]
        exact Nat.le_trans (Nat.pow_le_pow_right (by decide) (by omega))
          (Nat.le_mul_of_pos_left _ (by omega))
      rw [nearest_of_huge hhuge] at hfin
      exact absurd hfin (Nat.lt_irrefl _)

end Format

/-! ## Shortest decimals -/

namespace Decimal

variable {word : Nat}

theorem readsAs_iff {f : Format} {d : Decimal} :
    d.readsAs f word = true ↔ f.nearestDecimal d.significand d.exponent = word := by
  simp [readsAs]

/-- Dropping zeros does not change what a decimal is read as. -/
theorem readsAs_dropZeros (hpos : 0 < word) (hfin : word < binary64.infinity) (d : Decimal)
    (h : d.readsAs binary64 word = true) : d.dropZeros.readsAs binary64 word = true := by
  fun_induction dropZeros d with
  | case1 d hd ih =>
    apply ih
    rw [readsAs_iff] at h ⊢
    have hten : 10 * (d.significand / 10) = d.significand := by omega
    have hdrop := Format.nearestDecimal_drop (m := d.significand / 10) (e := d.exponent)
    rw [hten, h] at hdrop
    exact hdrop hpos hfin
  | case2 d hd => exact h

theorem readsAs_of_candidate? {f : Format} {tie : Tie} {e : Int} {d : Decimal}
    (h : candidate? f tie word e = some d) : d.readsAs f word = true := by
  unfold candidate? at h
  dsimp only at h
  split at h
  · cases h; assumption
  · split at h
    · cases h; assumption
    · cases h

/-- The exact expansion is read back. -/
theorem readsAs_exact (hpos : 0 < word) (hfin : word < binary64.infinity) :
    (exact binary64 word).readsAs binary64 word = true := by
  have hunits := binary64.units_pos hpos
  have hfive : 0 < 5 ^ binary64.scale := Nat.pow_pos (by decide)
  have hsig : 0 < binary64.units word * 5 ^ binary64.scale := Nat.mul_pos hunits hfive
  have hlog : binary64.scale ≤ (binary64.units word * 5 ^ binary64.scale).log2 :=
    (Nat.le_log2 (Nat.ne_of_gt hsig)).2
      (Nat.le_trans (Nat.pow_le_pow_left (by decide) _)
        (Nat.le_mul_of_pos_left (5 ^ binary64.scale) hunits))
  have ten (n : Nat) : 10 ^ n = 5 ^ n * 2 ^ n := Nat.mul_pow 5 2 n
  have hreach : binary64.scale ≤
      Format.decimalReach + (binary64.units word * 5 ^ binary64.scale).log2 :=
    Nat.le_trans hlog (Nat.le_add_left _ _)
  have hround : binary64.nearest (binary64.units word * 5 ^ binary64.scale)
      (10 ^ binary64.scale) = word := by
    rw [ten, Nat.mul_comm, Format.nearest_mul _ hfive, Format.nearest_units _ (Nat.le_of_lt hfin)]
  have hscale : 0 < binary64.scale := by decide
  have hexact := Format.nearestDecimal_of_neg binary64 (Nat.ne_of_gt hsig) hscale hreach
  exact readsAs_iff.2 (hexact.trans hround)

/-- The decimal that is written for a positive finite magnitude is read back as it. -/
theorem shortest_readsAs (tie : Tie) (hpos : 0 < word) (hfin : word < binary64.infinity) :
    (shortest binary64 tie word).readsAs binary64 word = true := by
  unfold shortest
  apply readsAs_dropZeros hpos hfin
  cases hfound : (List.range mostDigits).findSome? fun (more : Nat) =>
      candidate? binary64 tie word (leadingExponent binary64 word - more) with
  | none => exact readsAs_exact hpos hfin
  | some d =>
    obtain ⟨more, -, hd⟩ := List.exists_of_findSome?_eq_some hfound
    exact readsAs_of_candidate? hd

end Decimal

end SimilarityStore.Numeric
