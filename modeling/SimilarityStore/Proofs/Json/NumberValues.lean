import SimilarityStore.Json.Value
import SimilarityStore.Proofs.Numeric.Differences

/-
  Numbers of documents are numbers.  Whatever digits a numeral has, its value in double precision is
  not the one that is no number: scaling a word down stays finite (`isFinite_scaleDown`), and what
  is scaled up is only kept if it is finite (`isNaN_of_scaled?`).  The numbers in an object are those
  of numerals (`Value.exists_numeral_of_lookup?`).
-/

namespace SimilarityStore.Numeric

/-- The value nearest to a numeral is a number. -/
theorem Numeral.isNaN_toFloat (n : Numeral) : FloatingPoint.isNaN (n.toFloat : Float) = false :=
  FloatingPoint.isNaN_ofMagnitude _ (binary64.nearestDecimal_le_infinity _ _)

end SimilarityStore.Numeric

namespace SimilarityStore.Json

open SimilarityStore.Numeric FloatingPoint

/-! ## Scaling -/

namespace Number

theorem absorb_lt {word : Nat} (h : word < 2 ^ 64) (ds : List Digit) :
    (absorb word ds).1 < 2 ^ 64 := by
  induction ds generalizing word with
  | nil => exact h
  | cons d ds ih =>
    rw [absorb]
    split
    · next hfits => exact ih hfits
    · exact h

/-- Every 64-bit word has a finite value. -/
theorem isFinite_ofWord64 {word : Nat} (h : word < 2 ^ 64) :
    isFinite (ofInt word : Float) = true := by
  have hbound : binary64.nearest (2 ^ 64) 1 < binary64.infinity := by decide +kernel
  have hnearest : binary64.nearest word 1 ≤ binary64.nearest (2 ^ 64) 1 :=
    binary64.nearest_le (by decide) (by decide) (by omega)
  refine decide_eq_true ?_
  change magnitude (ofMagnitude _ (binary64.nearest word 1) : Float) < binary64.infinity
  rw [magnitude_ofMagnitude _ (binary64.nearest_le_infinity _ _)]
  omega

/-- The powers of ten that scaling uses are finite and not below one. -/
theorem powerOfTen_spec {n : Nat} (hn : n ≤ scaleStep) :
    isFinite (powerOfTen n) = true ∧ 2 ^ binary64.scale ≤ value (powerOfTen n) := by
  have hgreatest : binary64.nearest (10 ^ scaleStep) 1 < binary64.infinity := by decide +kernel
  have hleast : binary64.units (binary64.nearest 1 1) = 2 ^ binary64.scale := by decide +kernel
  have hword : binary64.nearestDecimal 1 n = binary64.nearest (10 ^ n) 1 := by
    rw [binary64.nearestDecimal_of_nonneg (by decide) (Nat.le_trans hn (by decide)), Nat.one_mul]
  have hbelow : binary64.nearest (10 ^ n) 1 ≤ binary64.nearest (10 ^ scaleStep) 1 :=
    binary64.nearest_le (by decide) (by decide)
      (Nat.mul_le_mul_right 1 (Nat.pow_le_pow_right (by decide) hn))
  have habove : binary64.nearest 1 1 ≤ binary64.nearest (10 ^ n) 1 :=
    binary64.nearest_le (by decide) (by decide)
      (Nat.mul_le_mul_right 1 (Nat.one_le_pow n 10 (by decide)))
  have hpower : powerOfTen n = ofMagnitude false (binary64.nearest (10 ^ n) 1) :=
    congrArg (ofMagnitude false) hword
  have hrank : rank (powerOfTen n) = binary64.nearest (10 ^ n) 1 := by
    rw [hpower, rank_ofMagnitude _ (binary64.nearest_le_infinity _ _)]
    rfl
  constructor
  · rw [isFinite_iff, hrank, Int.natAbs_natCast]
    exact Nat.lt_of_le_of_lt hbelow hgreatest
  · have hvalue : value (powerOfTen n) = binary64.units (binary64.nearest (10 ^ n) 1) := by
      rw [value, hrank]
      exact Format.value_natCast _ _
    rw [hvalue]
    have hunits := binary64.units_le habove
    rw [hleast] at hunits
    exact_mod_cast hunits

theorem isFinite_scaleDown {x : Float} (h : isFinite x = true) (n : Nat) :
    isFinite (scaleDown x n) = true := by
  induction n using Nat.strongRecOn generalizing x with
  | _ n ih =>
    rw [scaleDown]
    split
    · next hn => exact isFinite_div h (powerOfTen_spec hn).1 (powerOfTen_spec hn).2
    · next hn =>
      have hstep := powerOfTen_spec (Nat.le_refl scaleStep)
      split
      · exact h
      · exact ih (n - scaleStep) (by simp only [scaleStep] at *; omega)
          (isFinite_div h hstep.1 hstep.2)

/-- What is scaled up is finite. -/
theorem isFinite_of_scaleUp? {x y : Float} {n : Nat} (hx : isFinite x = true)
    (h : scaleUp? x n = some y) : isFinite y = true := by
  unfold scaleUp? at h
  split at h
  · dsimp only at h
    split at h
    · next hfinite =>
      rw [← Option.some.inj h]
      exact hfinite
    · cases h
  · split at h
    · rw [← Option.some.inj h]
      exact hx
    · cases h

theorem isNaN_of_scaled? {negative : Bool} {word : Nat} {exponent : Int} {y : Float}
    (hword : word < 2 ^ 64) (h : scaled? negative word exponent = some y) : isNaN y = false := by
  have hstart := isFinite_ofWord64 hword
  obtain ⟨z, hz, rfl⟩ := Option.map_eq_some_iff.1 h
  have hfinite : isFinite z = true := by
    split at hz
    · exact isFinite_of_scaleUp? hstart hz
    · rw [← Option.some.inj hz]
      exact isFinite_scaleDown hstart _
  have hnumber := isNaN_of_isFinite hfinite
  split
  · exact isNaN_neg hnumber
  · exact hnumber

/-- The number of a numeral is a number in double precision. -/
theorem isNaN_of_ofNumeral? {n : Numeral} {m : Number} (h : ofNumeral? n = some m) :
    isNaN m.toFloat = false := by
  unfold ofNumeral? at h
  dsimp only at h
  split at h
  · rw [← Option.some.inj h]
    exact isNaN_ofInt _
  · split at h
    · rw [← Option.some.inj h]
      exact isNaN_ofInt _
    · obtain ⟨y, hy, rfl⟩ := Option.map_eq_some_iff.1 h
      exact isNaN_of_scaled? (absorb_lt (absorb_lt (by decide) _) _) hy

end Number

/-! ## Members -/

/-- What is found in sorted members is one of them. -/
theorem mem_of_lookup?_sortMembers {α : Type} {name : String} {value : α}
    {members : List (String × α)} (h : lookup? name (sortMembers members) = some value) :
    (name, value) ∈ members := by
  have hfold (sorted : List (String × α)) (members : List (String × α))
      (h : lookup? name (members.foldl (fun sorted m => insertMember m.1 m.2 sorted) sorted) =
        some value) :
      lookup? name sorted = some value ∨ (name, value) ∈ members := by
    induction members generalizing sorted with
    | nil => exact .inl h
    | cons first rest ih =>
      rcases ih _ h with hfound | hrest
      · rw [lookup?_insertMember] at hfound
        split at hfound
        · next hname =>
          rw [← hname, ← Option.some.inj hfound]
          exact .inr List.mem_cons_self
        · exact .inl hfound
      · exact .inr (List.mem_cons_of_mem first hrest)
  rcases hfold [] members h with hnone | hmem
  · cases hnone
  · exact hmem

/-- Every value among members is that of a document. -/
theorem exists_document_of_mem {depth : Nat} {name : String} {value : Value}
    {members : List (Option String × Document)} {values : List (String × Value)}
    (h : Document.memberValues? depth members = some values) (hmem : (name, value) ∈ values) :
    ∃ d : Document, d.value? depth = some value := by
  induction members generalizing values with
  | nil =>
    rw [Document.memberValues?] at h
    rw [← Option.some.inj h] at hmem
    cases hmem
  | cons first rest ih =>
    obtain ⟨other, item⟩ := first
    simp only [Document.memberValues?, Option.bind_eq_bind, Option.bind_eq_some_iff] at h
    obtain ⟨_, -, v, hv, vs, hvs, hcons⟩ := h
    rw [← Option.some.inj hcons] at hmem
    rcases List.mem_cons.1 hmem with hfirst | hrest
    · exact ⟨item, by rw [hv, (Prod.mk.inj hfirst).2]⟩
    · exact ih hvs hrest

/-- Only numerals have numbers as their values. -/
theorem Document.exists_numeral_of_value? {depth : Nat} {d : Document} {n : Number}
    (h : d.value? depth = some (.number n)) : ∃ m, Number.ofNumeral? m = some n := by
  cases d with
  | number m =>
    obtain ⟨k, hk, hn⟩ := Option.map_eq_some_iff.1 h
    exact ⟨m, by rw [hk, Value.number.inj hn]⟩
  | null | bool _ | text _ | array _ | object _ => simp [Document.value?] at h

/-- Only objects have objects as their values. -/
theorem Document.exists_members_of_value? {depth : Nat} {d : Document}
    {members : List (String × Value)} (h : d.value? depth = some (.object members)) :
    ∃ items values, Document.memberValues? (depth - 1) items = some values ∧
      sortMembers values = members := by
  cases d with
  | object items =>
    rw [Document.value?] at h
    split at h
    · cases h
    · obtain ⟨values, hvalues, hsorted⟩ := Option.map_eq_some_iff.1 h
      exact ⟨items, values, hvalues, Value.object.inj hsorted⟩
  | null | bool _ | text _ | number _ | array _ => simp [Document.value?] at h

/-- A number in an object that was read is that of a numeral. -/
theorem Value.exists_numeral_of_lookup? {s name : String} {members : List (String × Value)}
    {n : Number} (h : Value.read? s = some (.object members))
    (hn : lookup? name members = some (.number n)) : ∃ m, Number.ofNumeral? m = some n := by
  obtain ⟨d, -, hd⟩ := Option.bind_eq_some_iff.1 h
  obtain ⟨items, values, hvalues, rfl⟩ := Document.exists_members_of_value? hd
  obtain ⟨item, hitem⟩ := exists_document_of_mem hvalues (mem_of_lookup?_sortMembers hn)
  exact Document.exists_numeral_of_value? hitem

end SimilarityStore.Json
