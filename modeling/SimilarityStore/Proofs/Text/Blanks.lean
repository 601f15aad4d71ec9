import SimilarityStore.Text.Blank

/-
  Runs of blanks, and texts without any.  Trimming takes the blanks around a text away
  (`trimList_pad`).
-/

namespace SimilarityStore.Text

/-- No character is blank. -/
def Unblank (cs : List Char) : Prop := ∀ c ∈ cs, ¬ isBlank c = true

/-- All characters are blank. -/
def AllBlank (cs : List Char) : Prop := ∀ c ∈ cs, isBlank c = true

instance (cs : List Char) : Decidable (Unblank cs) :=
  decidable_of_iff (cs.all fun c => !isBlank c) (by simp [Unblank])

instance (cs : List Char) : Decidable (AllBlank cs) :=
  decidable_of_iff (cs.all isBlank) List.all_eq_true

theorem allBlank_nil : AllBlank [] := fun _ hc => absurd hc List.not_mem_nil

theorem AllBlank.append {cs ds : List Char} (hcs : AllBlank cs) (hds : AllBlank ds) :
    AllBlank (cs ++ ds) := List.forall_mem_append.2 ⟨hcs, hds⟩

theorem AllBlank.reverse {cs : List Char} (h : AllBlank cs) : AllBlank cs.reverse :=
  fun c hc => h c (List.mem_reverse.1 hc)

theorem Unblank.reverse {cs : List Char} (h : Unblank cs) : Unblank cs.reverse :=
  fun c hc => h c (List.mem_reverse.1 hc)

/-- The visible characters of ASCII are no blanks. -/
theorem isBlank_of_ascii {c : Char} (hlow : 33 ≤ c.toNat) (hhigh : c.toNat ≤ 126) :
    isBlank c = false := by
  simp only [isBlank, Bool.or_eq_false_iff, Bool.and_eq_false_iff, decide_eq_false_iff_not,
    beq_eq_false_iff_ne]
  omega

/-- Blanks are dropped up to the first character that is none. -/
theorem dropWhile_blanks {blanks text rest : List Char} (hblanks : AllBlank blanks)
    (htext : Unblank text) (hne : text ≠ []) :
    (blanks ++ text ++ rest).dropWhile isBlank = text ++ rest := by
  cases text with
  | nil => exact absurd rfl hne
  | cons c text =>
    rw [List.append_assoc, List.dropWhile_append_of_pos hblanks, List.cons_append,
      List.dropWhile_cons_of_neg (htext c List.mem_cons_self)]

/-- Trimming takes the blanks around a text away. -/
theorem trimList_pad {before text after : List Char} (hbefore : AllBlank before)
    (htext : Unblank text) (hafter : AllBlank after) (hne : text ≠ []) :
    trimList (before ++ text ++ after) = text := by
  have hback : (after.reverse ++ text.reverse ++ []).dropWhile isBlank = text.reverse ++ [] :=
    dropWhile_blanks hafter.reverse htext.reverse (mt List.reverse_eq_nil_iff.1 hne)
  rw [trimList, dropWhile_blanks hbefore htext hne, List.reverse_append]
  rw [List.append_nil, List.append_nil] at hback
  rw [hback, List.reverse_reverse]

/-- A blank has no other case. -/
theorem toLower_of_isBlank {c : Char} (h : isBlank c = true) : c.toLower = c := by
  simp only [isBlank, Char.toNat, Bool.or_eq_true, Bool.and_eq_true, decide_eq_true_eq,
    beq_iff_eq] at h
  unfold Char.toLower
  rw [dif_neg]
  rintro ⟨hA, hZ⟩
  have hlower : 65 ≤ c.val.toNat := hA
  have hupper : c.val.toNat ≤ 90 := hZ
  omega

end SimilarityStore.Text
