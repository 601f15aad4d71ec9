import SimilarityStore.Json.Number
import SimilarityStore.Json.Read
import SimilarityStore.Proofs.Numeric.PlainNumeral

/-
  Written numerals are read back.  A numeral that a document can hold has a digit in front and no
  zero in front of another one; its text is read as the same numeral, in front of anything that no
  number goes on with (`readNumber?_toText`).  The numerals that integers and finite values are
  written with are of this kind.  An integer is read as that integer, and a value in double precision
  never as an integer (`Number.ofNumeral?_document`).
-/

namespace SimilarityStore.Json

open SimilarityStore.Numeric

/-- A numeral that a document can hold: there are digits in front, and no zero in front of another
one. -/
structure IsWhole (ds : List Digit) : Prop where
  ne_nil : ds ≠ []
  lead : ds.head? = some 0 → ds.length = 1

/-- No number goes on with what stands at the front. -/
def EndsNumber (rest : List Char) : Prop :=
  ∀ c ∈ rest.head?, c.isDigit = false ∧ c ≠ '.' ∧ c ≠ 'e' ∧ c ≠ 'E'

theorem endsNumber_nil : EndsNumber [] := by
  intro c hc
  cases hc

theorem endsNumber_cons {c : Char} (h : c = ',' ∨ c = ']' ∨ c = '\x7d') (rest : List Char) :
    EndsNumber (c :: rest) := by
  intro d hd
  obtain rfl := Option.some.inj hd
  rcases h with rfl | rfl | rfl <;> decide

/-! ## Texts of numerals -/

/-- The power of ten of a numeral, with its sign. -/
def powerText (exponent : Option Int) : List Char :=
  match exponent with
  | none => []
  | some e => 'e' :: (if 0 ≤ e then '+' else '-') :: (digitsOf e.natAbs).map Digit.toChar

theorem powerText_eq (exponent : Option Int) :
    powerText exponent = Numeral.powerText true exponent := by
  cases exponent with
  | none => rfl
  | some e =>
    unfold powerText Numeral.powerText Numeral.powerSign
    by_cases he : 0 ≤ e
    · have hlt : ¬ e < 0 := by omega
      simp [he, hlt]
    · have hlt : e < 0 := by omega
      simp [he, hlt]

/-- A numeral is written as its sign, the digits before the point, the point with the digits behind
it, and the power of ten. -/
theorem toList_toText (n : Numeral) :
    (n.toText true).toList = (if n.negative then ['-'] else []) ++
      (n.whole.map Digit.toChar ++ (n.pointAndFraction ++ powerText n.exponent)) := by
  rw [n.toList_toText_written, Numeral.unsignedText, List.append_assoc, powerText_eq]

/-! ## Reading numerals -/

/-- Digits behind the sign of a power of ten. -/
theorem readExponent?_signed (e : Int) {cs rest : List Char} {d : Digit} {ds : List Digit}
    (hspan : spanDigits cs = (d :: ds, rest)) (hvalue : ofDigits (d :: ds) = e.natAbs) :
    readExponent? ('e' :: (if 0 ≤ e then '+' else '-') :: cs) = some (some e, rest) := by
  by_cases he : 0 ≤ e
  · have hsame : ((ofDigits (d :: ds) : Nat) : Int) = e := by omega
    rw [if_pos he, ← hsame]
    simp [readExponent?, hspan]
  · have hsame : -((ofDigits (d :: ds) : Nat) : Int) = e := by omega
    rw [if_neg he, ← hsame]
    simp [readExponent?, hspan]

theorem readExponent?_powerText (exponent : Option Int) {rest : List Char} (h : EndsNumber rest) :
    readExponent? (powerText exponent ++ rest) = some (exponent, rest) := by
  have hfront : NoDigitFront rest := fun c hc => (h c hc).1
  cases exponent with
  | none =>
    cases rest with
    | nil => rfl
    | cons c rest =>
      obtain ⟨-, -, he, hE⟩ := h c rfl
      simp [powerText, readExponent?, he, hE]
  | some e =>
    have hspan := spanDigits_append (digitsOf e.natAbs) hfront
    have hvalue : ofDigits (digitsOf e.natAbs) = e.natAbs := ofDigits_digitsOf _
    obtain ⟨d, ds, hds⟩ := List.exists_cons_of_ne_nil (digitsOf_ne_nil e.natAbs)
    rw [hds] at hvalue
    exact readExponent?_signed e (hspan.trans (by rw [hds])) hvalue

/-- What stands behind the digits of a numeral, written in front of what ends a number, is neither a
digit nor a point. -/
theorem powerText_front (exponent : Option Int) {rest : List Char} (h : EndsNumber rest) :
    ∀ c ∈ (powerText exponent ++ rest).head?, c.isDigit = false ∧ c ≠ '.' := by
  cases exponent with
  | none =>
    intro c hc
    exact ⟨(h c hc).1, (h c hc).2.1⟩
  | some e =>
    intro c hc
    obtain rfl := Option.some.inj hc
    decide

theorem readFraction?_pointAndFraction (n : Numeral) {rest : List Char}
    (h : ∀ c ∈ rest.head?, c.isDigit = false ∧ c ≠ '.') :
    readFraction? (n.pointAndFraction ++ rest) = some (n.fraction, rest) := by
  obtain ⟨negative, whole, fraction, exponent⟩ := n
  have hfront : NoDigitFront rest := fun c hc => (h c hc).1
  cases fraction with
  | nil =>
    cases rest with
    | nil => rfl
    | cons c rest =>
      have hc := (h c rfl).2
      unfold readFraction?
      split
      · next heq =>
        cases heq
        exact absurd rfl hc
      · rfl
  | cons d ds =>
    have hspan := spanDigits_append (d :: ds) hfront
    have htext : Numeral.pointAndFraction ⟨negative, whole, d :: ds, exponent⟩ ++ rest =
        '.' :: ((d :: ds).map Digit.toChar ++ rest) := rfl
    rw [htext, readFraction?, hspan]

theorem readUnsigned?_written (n : Numeral) (hn : IsWhole n.whole) {rest : List Char}
    (h : EndsNumber rest) :
    readUnsigned? n.negative
      (n.whole.map Digit.toChar ++ (n.pointAndFraction ++ (powerText n.exponent ++ rest))) =
        some (n, rest) := by
  have hfront : NoDigitFront (n.pointAndFraction ++ (powerText n.exponent ++ rest)) := by
    unfold Numeral.pointAndFraction
    split
    · intro c hc
      exact (powerText_front n.exponent h c hc).1
    · intro c hc
      obtain rfl := Option.some.inj hc
      rfl
  have hspan := spanDigits_append n.whole hfront
  have hfraction := readFraction?_pointAndFraction n (powerText_front n.exponent h)
  have hexponent := readExponent?_powerText n.exponent h
  have hlead : (n.whole.isEmpty || (n.whole.head? = some 0 && n.whole.length ≠ 1)) = false := by
    have hempty : n.whole.isEmpty = false := by simpa using hn.ne_nil
    by_cases hzero : n.whole.head? = some 0
    · simp [hempty, hn.lead hzero]
    · simp [hempty, hzero]
  unfold readUnsigned?
  rw [hspan]
  dsimp only
  rw [if_neg (Bool.eq_false_iff.1 hlead), hfraction]
  simp only [bind, Option.bind_some, hexponent, pure]

theorem toChar_ne_minus (d : Digit) : d.toChar ≠ '-' := by
  revert d
  decide

/-- A written numeral is read back in front of anything that no number goes on with. -/
theorem readNumber?_toText (n : Numeral) (hn : IsWhole n.whole) {rest : List Char}
    (h : EndsNumber rest) : readNumber? ((n.toText true).toList ++ rest) = some (n, rest) := by
  have hread := readUnsigned?_written n hn h
  rw [toList_toText]
  simp only [List.append_assoc]
  cases hnegative : n.negative with
  | true =>
    rw [hnegative] at hread
    exact hread
  | false =>
    obtain ⟨d, ds, hds⟩ := List.exists_cons_of_ne_nil hn.ne_nil
    rw [hnegative, hds, List.map_cons, List.cons_append] at hread
    rw [hds, List.map_cons, List.cons_append, if_neg (by simp), List.nil_append]
    unfold readNumber?
    split
    · next heq => exact absurd (List.cons.inj heq).1 (toChar_ne_minus d)
    · exact hread

/-! ## Numerals that are written -/

theorem head?_digitsBefore {n : Nat} (hn : n ≠ 0) (known : List Digit) :
    (digitsBefore n known).head? ≠ some 0 := by
  fun_induction digitsBefore n known with
  | case1 n known h =>
    intro hzero
    have hdigit : Fin.ofNat 10 n = 0 := Option.some.inj hzero
    have hmod := congrArg Fin.val hdigit
    simp only [Fin.val_ofNat] at hmod
    have : n % 10 = 0 := hmod
    omega
  | case2 n known h ih => exact ih (by omega)

/-- The digits of a number that is not zero do not start with a zero, and no more do these digits
with others behind them. -/
theorem isWhole_append {n : Nat} (hn : n ≠ 0) (more : List Digit) :
    IsWhole (digitsOf n ++ more) where
  ne_nil := by simp [digitsOf_ne_nil]
  lead h := by
    obtain ⟨d, ds, hds⟩ := List.exists_cons_of_ne_nil (digitsOf_ne_nil n)
    have hlead := head?_digitsBefore hn []
    rw [← digitsOf, hds] at hlead
    rw [hds] at h
    exact absurd h hlead

theorem isWhole_take {n k : Nat} (hn : n ≠ 0) (hk : 0 < k) : IsWhole ((digitsOf n).take k) where
  ne_nil := by
    rw [Ne, List.take_eq_nil_iff]
    rintro (h | h)
    · omega
    · exact digitsOf_ne_nil n h
  lead h := by
    obtain ⟨d, ds, hds⟩ := List.exists_cons_of_ne_nil (digitsOf_ne_nil n)
    obtain ⟨j, rfl⟩ := Nat.exists_eq_succ_of_ne_zero (Nat.ne_of_gt hk)
    have hlead := head?_digitsBefore hn []
    rw [← digitsOf, hds] at hlead
    rw [hds] at h
    exact absurd h hlead

theorem isWhole_zero : IsWhole [0] where
  ne_nil := by simp
  lead _ := rfl

theorem isWhole_ofInt (i : Int) : IsWhole (Numeral.ofInt i).whole := by
  by_cases hi : i.natAbs = 0
  · have hdigits : (Numeral.ofInt i).whole = [0] := by
      simp [Numeral.ofInt, hi, digitsOf, digitsBefore]
    rw [hdigits]
    exact isWhole_zero
  · have hwhole := isWhole_append hi []
    rwa [List.append_nil] at hwhole

/-- The shortest decimal of a positive finite magnitude has digits. -/
theorem significand_shortest_ne_zero (tie : Tie) {word : Nat} (hpos : 0 < word)
    (hfin : word < binary64.infinity) : (Decimal.shortest binary64 tie word).significand ≠ 0 := by
  intro hzero
  have hread := Decimal.readsAs_iff.1 (Decimal.shortest_readsAs tie hpos hfin)
  rw [hzero, Format.nearestDecimal, if_pos rfl] at hread
  omega

/-- A decimal is spelled for a document with no leading zeros, and with a point or a power of ten. -/
theorem spellDecimal_document (negative : Bool) {d : Decimal} (hd : d.significand ≠ 0) :
    IsWhole (NumberStyle.document.spellDecimal negative d).whole ∧
      ((NumberStyle.document.spellDecimal negative d).fraction ≠ [] ∨
        (NumberStyle.document.spellDecimal negative d).exponent ≠ none) := by
  have hlength : 0 < (digitsOf d.significand).length :=
    List.length_pos_iff.2 (digitsOf_ne_nil d.significand)
  unfold NumberStyle.spellDecimal
  split
  · unfold NumberStyle.positional
    dsimp only
    split
    · exact ⟨isWhole_append hd _, .inl (by simp [NumberStyle.document])⟩
    · next hexponent =>
      split
      · next hbefore =>
        refine ⟨isWhole_take hd (by omega), .inl ?_⟩
        rw [Ne, List.drop_eq_nil_iff]
        omega
      · exact ⟨isWhole_zero, .inl (by simp [digitsOf_ne_nil])⟩
  · exact ⟨isWhole_take hd (by decide), .inr (by simp [NumberStyle.scientific])⟩

/-- The numeral of a finite value in a document has no leading zeros, and a point or a power of
ten. -/
theorem numeral_document {x : Float} (h : FloatingPoint.isFinite x = true) :
    IsWhole (NumberStyle.document.numeral x).whole ∧
      ((NumberStyle.document.numeral x).fraction ≠ [] ∨
        (NumberStyle.document.numeral x).exponent ≠ none) := by
  have hfin : FloatingPoint.magnitude x < binary64.infinity := of_decide_eq_true h
  unfold NumberStyle.numeral
  dsimp only
  split
  · exact ⟨isWhole_zero, .inl (by simp [NumberStyle.document])⟩
  · next hzero =>
    have hpos : 0 < FloatingPoint.magnitude x := by
      simpa [FloatingPoint.isZero, Nat.pos_iff_ne_zero] using hzero
    exact spellDecimal_document _ (significand_shortest_ne_zero _ hpos hfin)

/-! ## Numbers of numerals -/

namespace Number

/-- An integer's numeral stands for the integer. -/
theorem ofNumeral?_ofInt {i : Int} (hlow : -2 ^ 63 ≤ i) (hhigh : i < 2 ^ 64) :
    ofNumeral? (Numeral.ofInt i) = some (int i) := by
  have hvalue : ofDigits (Numeral.ofInt i).whole = i.natAbs := ofDigits_digitsOf _
  have hwhole : ((Numeral.ofInt i).fraction.isEmpty && (Numeral.ofInt i).exponent.isNone) = true :=
    rfl
  unfold ofNumeral?
  dsimp only
  rw [hvalue, hwhole]
  by_cases hi : i < 0
  · have hsign : (Numeral.ofInt i).negative = true := decide_eq_true hi
    have hnegative : -(i.natAbs : Int) = i := by omega
    have hpos : 0 < i.natAbs := by omega
    have hsmall : i.natAbs ≤ 2 ^ 63 := by omega
    rw [hsign, hnegative, decide_eq_true hpos, decide_eq_true hsmall]
    rfl
  · have hsign : (Numeral.ofInt i).negative = false := decide_eq_false hi
    have hpositive : (i.natAbs : Int) = i := by omega
    have hsmall : i.natAbs < 2 ^ 64 := by omega
    rw [hsign, hpositive, decide_eq_true hsmall]
    rfl

/-- The numeral of a finite value is not that of an integer, so it stands for what it is read as in
double precision. -/
theorem ofNumeral?_document {x : Float} (h : FloatingPoint.isFinite x = true) :
    ofNumeral? (NumberStyle.document.numeral x) =
      (realOf? (NumberStyle.document.numeral x)).map real := by
  obtain ⟨-, hreal⟩ := numeral_document h
  have hwhole : ((NumberStyle.document.numeral x).fraction.isEmpty &&
      (NumberStyle.document.numeral x).exponent.isNone) = false := by
    rcases hreal with hfraction | hexponent
    · simp [hfraction]
    · simp [Option.ne_none_iff_isSome.1 hexponent]
  unfold ofNumeral?
  simp only [hwhole, Bool.false_and]
  rfl

end Number

end SimilarityStore.Json
