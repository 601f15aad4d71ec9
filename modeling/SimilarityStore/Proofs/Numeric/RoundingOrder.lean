import SimilarityStore.Numeric.FloatingPoint
import SimilarityStore.Proofs.Numeric.DecimalRounding

/-
  Rounding keeps order.  A greater quotient is not rounded to a lesser magnitude (`nearest_le`), so
  with signs: `Format.place` is the place in the order of a format of the value nearest to a
  quotient, `Format.value` the value of a place in units, and both are monotone.
-/

namespace SimilarityStore.Numeric

/-! ## Quotients -/

/-- A quotient is rounded above `n` when it is beyond the middle between `n` and `n + 1`, or in
the middle and `n` is odd. -/
theorem lt_roundDiv_iff {num den n : Nat} (hd : 0 < den) :
    n < roundDiv num den ↔
      (2 * n + 1) * den < 2 * num ∨ ((2 * n + 1) * den = 2 * num ∧ n % 2 = 1) := by
  have hnum := Nat.div_add_mod num den
  have hrest := Nat.mod_lt num hd
  have hmiddle : (2 * n + 1) * den = 2 * (den * n) + den := by
    rw [Nat.add_mul, Nat.one_mul, Nat.mul_assoc, Nat.mul_comm n]
  rw [hmiddle]
  unfold roundDiv
  dsimp only
  rcases Nat.lt_trichotomy n (num / den) with h | h | h
  · have hbelow : den * n + den ≤ den * (num / den) := by
      rw [← Nat.mul_succ]
      exact Nat.mul_le_mul_left den h
    refine ⟨fun _ => .inl (by omega), fun _ => ?_⟩
    split
    · exact h
    · split <;> omega
  · rw [← h] at hnum ⊢
    split
    · omega
    · split <;> omega
  · have habove : den * (num / den) + den ≤ den * n := by
      rw [← Nat.mul_succ]
      exact Nat.mul_le_mul_left den h
    split
    · omega
    · split <;> omega

/-- Rounding to an integer keeps order. -/
theorem roundDiv_le {num den num' den' : Nat} (hd : 0 < den) (hd' : 0 < den')
    (h : num * den' ≤ num' * den) : roundDiv num den ≤ roundDiv num' den' := by
  cases hr : roundDiv num den with
  | zero => exact Nat.zero_le _
  | succ n =>
    have hpast := (lt_roundDiv_iff hd).1 (by omega : n < roundDiv num den)
    apply (lt_roundDiv_iff hd').2
    have hscale : (2 * n + 1) * den' * den = (2 * n + 1) * den * den' := Nat.mul_right_comm _ _ _
    rcases hpast with hlt | ⟨heq, hodd⟩
    · have : (2 * n + 1) * den * den' < 2 * num * den' := Nat.mul_lt_mul_of_pos_right hlt hd'
      refine .inl (Nat.lt_of_mul_lt_mul_right (a := den) ?_)
      calc (2 * n + 1) * den' * den < 2 * num * den' := by omega
        _ = 2 * (num * den') := Nat.mul_assoc _ _ _
        _ ≤ 2 * (num' * den) := Nat.mul_le_mul_left 2 h
        _ = 2 * num' * den := (Nat.mul_assoc _ _ _).symm
    · have hle : (2 * n + 1) * den' * den ≤ 2 * num' * den := by
        rw [hscale, heq, Nat.mul_assoc, Nat.mul_assoc]
        exact Nat.mul_le_mul_left 2 h
      rcases Nat.lt_or_eq_of_le (Nat.le_of_mul_le_mul_right hle hd) with hlt' | heq'
      · exact .inl hlt'
      · exact .inr ⟨heq', hodd⟩

/-- A quotient below a power of two is not rounded above it. -/
theorem roundDiv_le_two_pow {num den k : Nat} (hd : 0 < den) (h : num ≤ den * 2 ^ k) :
    roundDiv num den ≤ 2 ^ k := by
  rw [← roundDiv_mul_self (2 ^ k) hd]
  exact roundDiv_le hd hd (Nat.mul_le_mul_right _ (by rwa [Nat.mul_comm (2 ^ k)]))

/-- A quotient above a power of two is not rounded below it. -/
theorem two_pow_le_roundDiv {num den k : Nat} (hd : 0 < den) (h : den * 2 ^ k ≤ num) :
    2 ^ k ≤ roundDiv num den := by
  rw [← roundDiv_mul_self (2 ^ k) hd]
  exact roundDiv_le hd hd (Nat.mul_le_mul_right _ (by rwa [Nat.mul_comm (2 ^ k)]))

/-- Shifted as `nearest` does it, a quotient takes no more bits than the format stores, and one
for the carry. -/
theorem shifted_le (fraction num : Nat) {den : Nat} (hd : 0 < den) :
    num ≤ den * 2 ^ ((num / den).log2 - fraction) * 2 ^ (fraction + 1) := by
  have hlt : num / den < 2 ^ ((num / den).log2 - fraction + (fraction + 1)) :=
    Nat.lt_of_lt_of_le Nat.lt_log2_self (Nat.pow_le_pow_right (by decide) (by omega))
  rw [Nat.mul_assoc, ← Nat.pow_add, Nat.mul_comm]
  exact Nat.le_of_lt ((Nat.div_lt_iff_lt_mul hd).1 hlt)

/-- If it is shifted at all, it fills the bits that the format stores. -/
theorem le_shifted (fraction num : Nat) {den : Nat} (hd : 0 < den)
    (hs : 0 < (num / den).log2 - fraction) :
    den * 2 ^ ((num / den).log2 - fraction) * 2 ^ fraction ≤ num := by
  have hne : num / den ≠ 0 := by
    intro h
    simp [h] at hs
  have hle : 2 ^ ((num / den).log2 - fraction + fraction) ≤ num / den := by
    rw [Nat.sub_add_cancel (by omega)]
    exact Nat.log2_self_le hne
  rw [Nat.mul_assoc, ← Nat.pow_add, Nat.mul_comm]
  exact (Nat.le_div_iff_mul_le hd).1 hle

namespace Format

/-! ## Magnitudes -/

/-- Rounding to nearest keeps order. -/
theorem nearest_le (f : Format) {num den num' den' : Nat} (hd : 0 < den) (hd' : 0 < den')
    (h : num * den' ≤ num' * den) : f.nearest num den ≤ f.nearest num' den' := by
  have hscaled : num * 2 ^ f.scale * den' ≤ num' * 2 ^ f.scale * den := by
    rw [Nat.mul_right_comm, Nat.mul_right_comm num']
    exact Nat.mul_le_mul_right _ h
  unfold nearest
  dsimp only
  generalize num * 2 ^ f.scale = a at hscaled ⊢
  generalize num' * 2 ^ f.scale = b at hscaled ⊢
  have hquotient : a / den ≤ b / den' := by
    refine (Nat.le_div_iff_mul_le hd').2 (Nat.le_of_mul_le_mul_right (c := den) ?_ hd)
    calc a / den * den' * den = a / den * den * den' := Nat.mul_right_comm _ _ _
      _ ≤ a * den' := Nat.mul_le_mul_right _ (Nat.div_mul_le_self a den)
      _ ≤ b * den := hscaled
  have hshift : (a / den).log2 - f.fraction ≤ (b / den').log2 - f.fraction := by
    have : (a / den).log2 ≤ (b / den').log2 := by
      by_cases h0 : a / den = 0
      · simp [h0]
      · have hne : b / den' ≠ 0 :=
          Nat.ne_of_gt (Nat.lt_of_lt_of_le (Nat.pos_of_ne_zero h0) hquotient)
        exact (Nat.le_log2 hne).2 (Nat.le_trans (Nat.log2_self_le h0) hquotient)
    omega
  apply Nat.le_min.2
  refine ⟨Nat.min_le_left _ _, Nat.le_trans (Nat.min_le_right _ _) ?_⟩
  have hpos (k : Nat) : 0 < den * 2 ^ k := Nat.mul_pos hd (Nat.two_pow_pos k)
  have hpos' (k : Nat) : 0 < den' * 2 ^ k := Nat.mul_pos hd' (Nat.two_pow_pos k)
  rcases Nat.lt_or_eq_of_le hshift with hlt | heq
  -- with more bits shifted out, the lesser quotient ends where the greater one begins
  · have hupper := roundDiv_le_two_pow (hpos _) (shifted_le f.fraction a hd)
    have hlower := two_pow_le_roundDiv (hpos' _) (le_shifted f.fraction b hd'
      (Nat.lt_of_le_of_lt (Nat.zero_le _) hlt))
    have hstep : ((a / den).log2 - f.fraction + 1) * 2 ^ f.fraction ≤
        ((b / den').log2 - f.fraction) * 2 ^ f.fraction := Nat.mul_le_mul_right _ hlt
    rw [Nat.add_mul, Nat.one_mul] at hstep
    rw [Nat.pow_succ] at hupper
    omega
  · rw [heq]
    refine Nat.add_le_add_left (roundDiv_le (hpos _) (hpos' _) ?_) _
    rw [← Nat.mul_assoc, ← Nat.mul_assoc]
    exact Nat.mul_le_mul_right _ hscaled

/-- Equal quotients are rounded alike. -/
theorem nearest_congr (f : Format) {num den num' den' : Nat} (hd : 0 < den) (hd' : 0 < den')
    (h : num * den' = num' * den) : f.nearest num den = f.nearest num' den' :=
  Nat.le_antisymm (f.nearest_le hd hd' (Nat.le_of_eq h))
    (f.nearest_le hd' hd (Nat.le_of_eq h.symm))

theorem nearest_le_infinity (f : Format) (num den : Nat) : f.nearest num den ≤ f.infinity :=
  Nat.min_le_left _ _

theorem nearestDecimal_le_infinity (f : Format) (m : Nat) (e : Int) :
    f.nearestDecimal m e ≤ f.infinity := by
  unfold nearestDecimal
  split
  · exact Nat.zero_le _
  · split
    · exact Nat.le_refl _
    · split
      · exact Nat.zero_le _
      · split <;> exact f.nearest_le_infinity _ _

theorem units_zero (f : Format) : f.units 0 = 0 := by
  rw [units, if_pos (Nat.two_pow_pos _)]

/-- Greater words stand for greater magnitudes. -/
theorem units_le (f : Format) {w w' : Nat} (h : w ≤ w') : f.units w ≤ f.units w' := by
  have hlt (n : Nat) : n % 2 ^ f.fraction < 2 ^ f.fraction := Nat.mod_lt _ (Nat.two_pow_pos _)
  unfold units
  split
  · next hw =>
    split
    · exact h
    · exact Nat.le_trans (by omega)
        (Nat.le_mul_of_pos_right _ (Nat.two_pow_pos (w' / 2 ^ f.fraction - 1)))
  · next hw =>
    rw [if_neg (by omega)]
    have hfield : w / 2 ^ f.fraction ≤ w' / 2 ^ f.fraction := Nat.div_le_div_right h
    rcases Nat.lt_or_eq_of_le hfield with hless | hsame
    · have hone : 0 < w / 2 ^ f.fraction := Nat.div_pos (by omega) (Nat.two_pow_pos _)
      have hnext : w / 2 ^ f.fraction - 1 + 1 ≤ w' / 2 ^ f.fraction - 1 := by omega
      calc (2 ^ f.fraction + w % 2 ^ f.fraction) * 2 ^ (w / 2 ^ f.fraction - 1)
          ≤ (2 ^ f.fraction + 2 ^ f.fraction) * 2 ^ (w / 2 ^ f.fraction - 1) :=
            Nat.mul_le_mul_right _ (by have := hlt w; omega)
        _ = 2 ^ f.fraction * 2 ^ (w / 2 ^ f.fraction - 1 + 1) := by
            rw [← Nat.two_mul, Nat.pow_succ, Nat.mul_assoc, Nat.mul_left_comm, Nat.mul_comm 2,
              ← Nat.mul_assoc]
        _ ≤ 2 ^ f.fraction * 2 ^ (w' / 2 ^ f.fraction - 1) :=
            Nat.mul_le_mul_left _ (Nat.pow_le_pow_right (by decide) hnext)
        _ ≤ (2 ^ f.fraction + w' % 2 ^ f.fraction) * 2 ^ (w' / 2 ^ f.fraction - 1) :=
            Nat.mul_le_mul_right _ (Nat.le_add_right _ _)
    · have hword := Nat.div_add_mod w (2 ^ f.fraction)
      have hword' := Nat.div_add_mod w' (2 ^ f.fraction)
      rw [hsame] at hword ⊢
      exact Nat.mul_le_mul_right _ (by omega)

/-! ## Signed values -/

/-- The place of the value nearest to `num / den` in the order of the format. -/
def place (f : Format) (num : Int) (den : Nat) : Int := num.sign * f.nearest num.natAbs den

/-- The value at a place in the order of the format, in units. -/
def value (f : Format) (place : Int) : Int := place.sign * f.units place.natAbs

/-- What keeps order on magnitudes keeps order on signed values. -/
theorem signed_le {g : Nat → Nat} (hg : ∀ m n, m ≤ n → g m ≤ g n) {i j : Int} (h : i ≤ j) :
    i.sign * g i.natAbs ≤ j.sign * g j.natAbs := by
  rcases Int.lt_trichotomy i 0 with hi | rfl | hi
  · rw [Int.sign_eq_neg_one_of_neg hi]
    rcases Int.lt_trichotomy j 0 with hj | rfl | hj
    · rw [Int.sign_eq_neg_one_of_neg hj]
      have := hg j.natAbs i.natAbs (by omega)
      omega
    · simp
    · rw [Int.sign_eq_one_of_pos hj]
      omega
  · rcases Int.lt_or_eq_of_le h with hj | rfl
    · rw [Int.sign_eq_one_of_pos hj, Int.sign_zero]
      omega
    · exact Int.le_refl _
  · rw [Int.sign_eq_one_of_pos hi, Int.sign_eq_one_of_pos (Int.lt_of_lt_of_le hi h)]
    have := hg i.natAbs j.natAbs (by omega)
    omega

theorem place_le (f : Format) {i j : Int} {den : Nat} (hd : 0 < den) (h : i ≤ j) :
    f.place i den ≤ f.place j den :=
  signed_le (g := fun n => f.nearest n den)
    (fun _ _ hle => f.nearest_le hd hd (Nat.mul_le_mul_right den hle)) h

theorem value_le (f : Format) {i j : Int} (h : i ≤ j) : f.value i ≤ f.value j :=
  signed_le (fun _ _ hle => f.units_le hle) h

end Format

end SimilarityStore.Numeric
