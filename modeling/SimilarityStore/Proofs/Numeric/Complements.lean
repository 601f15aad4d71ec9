import SimilarityStore.Proofs.Numeric.Differences
import SimilarityStore.Proofs.Numeric.ExactValues

/-
  What is left of one.  For a value strictly between zero and one the difference from one is rounded
  to a multiple of `2 ^ (-53)` (`value_complement`), and the difference of that from one is exact.
  So the difference that is taken twice is the value itself, rounded to such a multiple
  (`value_double_complement`).  From one half on every value is such a multiple (`gap_dvd_units`).
-/

namespace SimilarityStore.Numeric

/-! ## Rounded differences -/

theorem roundDiv_mul_add {den q r : Nat} (h : r < den) :
    roundDiv (den * q + r) den =
      if 2 * r < den then q else if den < 2 * r then q + 1 else q + q % 2 := by
  have hpos : 0 < den := by omega
  unfold roundDiv
  dsimp only
  rw [Nat.mul_add_div hpos, Nat.div_eq_of_lt h, Nat.add_zero, Nat.mul_add_mod, Nat.mod_eq_of_lt h]

/-- The difference from an even multiple is rounded to the difference of what is rounded. -/
theorem roundDiv_sub {a den n : Nat} (hd : 0 < den) (ha : a % 2 = 0) (hn : n ≤ den * a) :
    roundDiv (den * a - n) den = a - roundDiv n den := by
  have hsplit := Nat.div_add_mod n den
  have hrest := Nat.mod_lt n hd
  generalize n / den = x at hsplit
  generalize n % den = y at hsplit hrest
  subst hsplit
  rcases Nat.eq_zero_or_pos y with rfl | hy
  · have hx : x ≤ a := Nat.le_of_mul_le_mul_left hn hd
    have hleft : den * a - (den * x + 0) = den * (a - x) + 0 := by
      rw [Nat.add_zero, Nat.add_zero, Nat.mul_sub]
    rw [hleft, roundDiv_mul_add hd, roundDiv_mul_add hd, if_pos (by omega), if_pos (by omega)]
  · have hx : x < a := Nat.lt_of_mul_lt_mul_left (a := den) (by omega)
    have hstep : den * (x + 1) ≤ den * a := Nat.mul_le_mul_left den hx
    rw [Nat.mul_add, Nat.mul_one] at hstep
    have hleft : den * a - (den * x + y) = den * (a - x - 1) + (den - y) := by
      rw [Nat.mul_sub, Nat.mul_sub, Nat.mul_one]
      omega
    rw [hleft, roundDiv_mul_add (by omega), roundDiv_mul_add hrest]
    rcases Nat.lt_trichotomy (2 * y) den with hdown | htie | hup
    · rw [if_neg (by omega), if_pos (by omega), if_pos hdown]
      omega
    -- in the middle both are rounded to even, and `a` is even
    · rw [if_neg (by omega), if_neg (by omega), if_neg (by omega), if_neg (by omega)]
      omega
    · rw [if_pos (by omega), if_neg (by omega), if_pos hup]
      omega

namespace FloatingPoint

/-! ## Values between zero and one -/

/-- The value one, in units. -/
def one : Nat := 2 ^ binary64.scale

/-- The gap of `2 ^ (-53)` between the values just below one, in units. -/
def gap : Nat := 2 ^ (binary64.scale - 53)

theorem one_eq : one = gap * 2 ^ 53 := by
  rw [one, gap, ← Nat.pow_add, Nat.sub_add_cancel (by decide)]

theorem value_one : value (ofInt 1 : Float) = one := by
  rw [value_ofInt (by decide), Int.one_mul, one, Int.natCast_pow]
  rfl

/-- A value lies strictly between zero and one. -/
structure IsFraction (x : Float) : Prop where
  pos : isLess (ofInt 0) x = true
  lt_one : isLess x (ofInt 1) = true

/-- The magnitude of a value between zero and one, in units. -/
theorem IsFraction.exists_units {x : Float} (h : IsFraction x) :
    ∃ w, w < binary64.infinity ∧ rank x = (w : Int) ∧ value x = binary64.units w ∧
      0 < binary64.units w ∧ binary64.units w < one := by
  obtain ⟨-, hnumber, hpos⟩ := isLess_iff.1 h.pos
  obtain ⟨-, -, hlt⟩ := isLess_iff.1 h.lt_one
  have hzero : rank (ofInt 0 : Float) = 0 := by decide +kernel
  have hone : rank (ofInt 1 : Float) = 1023 * 2 ^ 52 := by decide +kernel
  have hlast : binary64.units (1023 * 2 ^ 52 - 1) < one := by decide +kernel
  have hinfinity : 1023 * 2 ^ 52 < binary64.infinity := by decide
  rw [hzero] at hpos
  rw [hone] at hlt
  obtain ⟨w, hw⟩ := Int.eq_ofNat_of_zero_le (Int.le_of_lt hpos)
  rw [hw] at hpos hlt
  refine ⟨w, by omega, hw, ?_, binary64.units_pos (by omega), ?_⟩
  · rw [value, hw]
    exact binary64.value_natCast w
  · exact Nat.lt_of_le_of_lt (binary64.units_le (by omega)) hlast

/-- From one half on the gap divides all magnitudes. -/
theorem gap_dvd_units {w : Nat} (h : 1022 * 2 ^ 52 ≤ w) : gap ∣ binary64.units w := by
  have hfraction : binary64.fraction = 52 := rfl
  have hscale : binary64.scale = 1074 := rfl
  have hlarge : ¬ w < 2 ^ binary64.fraction := by
    rw [hfraction]
    omega
  have hexponent : binary64.scale - 53 ≤ w / 2 ^ binary64.fraction - 1 := by
    rw [hfraction, hscale]
    omega
  rw [Format.units, if_neg hlarge]
  exact Nat.dvd_mul_left_of_dvd (Nat.pow_dvd_pow 2 hexponent) _

/-- What is left of more than one half is a multiple of the gap. -/
theorem gap_dvd_complement {w : Nat} (hlt : binary64.units w < one)
    (hless : one - binary64.units w < 2 ^ (binary64.scale - 1)) :
    gap ∣ one - binary64.units w := by
  have hdouble : one = 2 ^ (binary64.scale - 1) * 2 := by
    rw [one, ← Nat.pow_succ, Nat.succ_eq_add_one, Nat.sub_add_cancel (by decide)]
  have hword : binary64.units (1022 * 2 ^ 52) = 2 ^ (binary64.scale - 1) := by decide +kernel
  have hhalf : 1022 * 2 ^ 52 ≤ w := by
    refine Nat.le_of_not_lt fun hbelow => ?_
    have hunits := binary64.units_le (Nat.le_of_lt hbelow)
    omega
  exact Nat.dvd_sub ⟨2 ^ 53, one_eq⟩ (gap_dvd_units hhalf)

/-- Below one the difference of a magnitude from one is rounded to a multiple of the gap. -/
theorem units_nearest_complement {w : Nat} (hpos : 0 < binary64.units w)
    (hlt : binary64.units w < one) :
    binary64.units (binary64.nearest (one - binary64.units w) (2 ^ binary64.scale)) =
        roundDiv (one - binary64.units w) gap * gap ∧
      binary64.nearest (one - binary64.units w) (2 ^ binary64.scale) < binary64.infinity := by
  have hfraction : binary64.fraction = 52 := rfl
  have hscale : binary64.scale = 1074 := rfl
  have hsmall := gap_dvd_complement hlt
  have hbound : one - binary64.units w < one := by omega
  have hne : one - binary64.units w ≠ 0 := by omega
  generalize one - binary64.units w = n at *
  rcases Nat.lt_or_ge n (2 ^ (binary64.scale - 1)) with hless | hlarge
  -- a small difference has few bits
  · obtain ⟨c, hc⟩ := hsmall hless
    rw [Nat.mul_comm] at hc
    have hbits : c ≤ 2 ^ (binary64.fraction + 1) := by
      refine Nat.le_of_mul_le_mul_right (c := gap) ?_ (Nat.two_pow_pos _)
      rw [← hc, hfraction, Nat.mul_comm, ← one_eq]
      exact Nat.le_of_lt hbound
    have hround : roundDiv (c * gap) gap = c := roundDiv_mul_self c (Nat.two_pow_pos _)
    rw [← hc] at hround
    rw [hround, ← hc]
    exact binary64.units_nearest_exact hc hbits (by decide)
  · have hlower : binary64.scale - 1 ≤ n.log2 := (Nat.le_log2 hne).2 hlarge
    have hupper : n.log2 < binary64.scale := (Nat.log2_lt hne).2 hbound
    have hshift : binary64.scale - 53 = n.log2 - binary64.fraction := by omega
    exact binary64.units_nearest hshift (by decide)

/-- A difference of a whole number of units is rounded to the format. -/
theorem value_sub_eq_units {x y : Float} {n : Nat} (hx : isFinite x = true)
    (hy : isFinite y = true) (h : value x - value y = n)
    (hbelow : binary64.nearest n (2 ^ binary64.scale) < binary64.infinity) :
    value (x - y) = binary64.units (binary64.nearest n (2 ^ binary64.scale)) ∧
      isFinite (x - y) = true := by
  have hrank : rank (x - y) = (binary64.nearest n (2 ^ binary64.scale) : Int) := by
    rw [rank_sub hx hy, h, binary64.place_natCast n (Nat.two_pow_pos _)]
  generalize binary64.nearest n (2 ^ binary64.scale) = word at hrank hbelow ⊢
  constructor
  · rw [value, hrank]
    exact binary64.value_natCast word
  · rw [isFinite_iff, hrank, Int.natAbs_natCast]
    exact hbelow

theorem isFinite_one : isFinite (ofInt 1 : Float) = true := by decide +kernel

section Complement

variable {x : Float} (h : IsFraction x)

include h

theorem IsFraction.isFinite : isFinite x = true := by
  obtain ⟨w, hw, hrank, -⟩ := h.exists_units
  rw [isFinite_iff, hrank, Int.natAbs_natCast]
  exact hw

/-- From one half on the gap divides all values below one. -/
theorem IsFraction.gap_dvd_value (hhalf : isAtLeast x (ofDecimal false 5 (-1)) = true) :
    gap ∣ (value x).natAbs := by
  obtain ⟨w, -, hrank, hvalue, -⟩ := h.exists_units
  obtain ⟨-, -, hle⟩ := isAtLeast_iff.1 hhalf
  have hword : rank (ofDecimal false 5 (-1) : Float) = 1022 * 2 ^ 52 := by decide +kernel
  rw [hword, hrank] at hle
  rw [hvalue, Int.natAbs_natCast]
  exact gap_dvd_units (by omega)

/-- The difference from one is rounded to a multiple of the gap. -/
theorem value_complement :
    value (ofInt 1 - x) = (roundDiv (one - (value x).natAbs) gap * gap : Nat) ∧
      isFinite (ofInt 1 - x) = true := by
  obtain ⟨w, -, -, hvalue, hpos, hlt⟩ := h.exists_units
  obtain ⟨hunits, hbelow⟩ := units_nearest_complement hpos hlt
  have hdifference : value (ofInt 1 : Float) - value x =
      ((one - binary64.units w : Nat) : Int) := by
    rw [value_one, hvalue, Int.ofNat_sub (Nat.le_of_lt hlt)]
  rw [hvalue, Int.natAbs_natCast, ← hunits]
  exact value_sub_eq_units isFinite_one h.isFinite hdifference hbelow

/-- The difference from one that is taken twice is the value, rounded to a multiple of the gap. -/
theorem value_double_complement :
    value (ofInt 1 - (ofInt 1 - x)) = (roundDiv (value x).natAbs gap * gap : Nat) ∧
      isFinite (ofInt 1 - (ofInt 1 - x)) = true := by
  obtain ⟨w, -, -, hvalue, -, hlt⟩ := h.exists_units
  obtain ⟨hcomplement, hfinite⟩ := value_complement h
  have hgap : 0 < gap := Nat.two_pow_pos _
  have hunits : (value x).natAbs ≤ gap * 2 ^ 53 := by
    rw [hvalue, Int.natAbs_natCast, ← one_eq]
    exact Nat.le_of_lt hlt
  generalize (value x).natAbs = n at *
  have hkept : roundDiv n gap ≤ 2 ^ 53 := roundDiv_le_two_pow hgap hunits
  rw [one_eq, roundDiv_sub hgap (by decide) hunits] at hcomplement
  generalize roundDiv n gap = c at *
  have hdifference : value (ofInt 1 : Float) - value (ofInt 1 - x) = ((c * gap : Nat) : Int) := by
    rw [value_one, hcomplement, ← Int.ofNat_sub, one_eq, Nat.mul_comm gap, ← Nat.sub_mul,
      Nat.sub_sub_self hkept]
    rw [one_eq, Nat.mul_comm gap]
    exact Nat.mul_le_mul_right gap (Nat.sub_le _ _)
  obtain ⟨hexact, hbelow⟩ := binary64.units_nearest_exact (n := c * gap) rfl hkept (by decide)
  have hrounded := value_sub_eq_units isFinite_one hfinite hdifference hbelow
  rw [hexact] at hrounded
  exact hrounded

/-- A multiple of the gap is what is left of one when its difference from one is taken away. -/
theorem rank_double_complement (hdvd : gap ∣ (value x).natAbs) :
    rank (ofInt 1 - (ofInt 1 - x)) = rank x := by
  obtain ⟨w, -, -, hvalue, -⟩ := h.exists_units
  obtain ⟨hrounded, hfinite⟩ := value_double_complement h
  refine rank_eq_of_value_eq hfinite h.isFinite ?_
  have hgap : 0 < gap := Nat.two_pow_pos _
  obtain ⟨c, hc⟩ := hdvd
  rw [Nat.mul_comm] at hc
  rw [hrounded, hc, roundDiv_mul_self c hgap, ← hc, hvalue, Int.natAbs_natCast]

end Complement

end FloatingPoint

end SimilarityStore.Numeric
