/-
  The order of texts is the order of their bytes.  Characters are compared by code point; their
  encodings differ at a byte that decides the same way, and no encoding is the front of another one
  (`encode_append_lt`).  Main statement: `bytes_lt_iff`.
-/

namespace SimilarityStore.Text

open String (utf8EncodeChar)

/-- The bytes that a text is stored as. -/
def bytes (s : String) : List UInt8 := s.toByteArray.data.toList

theorem bytes_eq (s : String) : bytes s = s.toList.flatMap utf8EncodeChar := by
  rw [bytes, ← String.utf8Encode_toList, List.utf8Encode, List.data_toByteArray]

/-- A byte that is no greater stands in front of what is lesser if the bytes are equal. -/
theorem ofNat_cons_lt {p q : Nat} {xs ys : List UInt8} (hq : q < 256) (hle : p ≤ q)
    (h : p = q → xs < ys) : UInt8.ofNat p :: xs < UInt8.ofNat q :: ys := by
  have hp : p < UInt8.size := Nat.lt_of_le_of_lt hle hq
  rw [List.cons_lt_cons_iff, UInt8.lt_iff_toNat_lt, UInt8.toNat_ofNat_of_lt' hp,
    UInt8.toNat_ofNat_of_lt' hq]
  rcases Nat.lt_or_eq_of_le hle with hlt | rfl
  · exact .inl hlt
  · exact .inr ⟨rfl, h rfl⟩

/-- Of two characters the lesser one has the lesser bytes, whatever follows them. -/
theorem encode_append_lt {c d : Char} (h : c < d) (xs ys : List UInt8) :
    utf8EncodeChar c ++ xs < utf8EncodeChar d ++ ys := by
  have hlt : c.val.toNat < d.val.toNat := h
  have hbound : d.val.toNat < 1114112 := by
    rcases d.valid with hd | ⟨-, hd⟩
    · exact Nat.lt_trans hd (by decide)
    · exact hd
  simp only [utf8EncodeChar]
  repeat' split
  -- one goal for each pair of lengths; a first byte tells the length, so only equal lengths go on
  all_goals
    simp only [List.cons_append, List.nil_append]
    repeat refine ofNat_cons_lt (by omega) (by omega) fun _ => ?_
  all_goals exfalso; omega

theorem flatMap_encode_lt {cs ds : List Char} (h : cs < ds) :
    cs.flatMap utf8EncodeChar < ds.flatMap utf8EncodeChar := by
  induction h with
  | @nil d ds =>
    rw [List.flatMap_nil, List.flatMap_cons]
    cases hd : utf8EncodeChar d with
    | nil => exact absurd hd String.utf8EncodeChar_ne_nil
    | cons b bs => exact List.nil_lt_cons b _
  | rel h => exact encode_append_lt h _ _
  | cons h ih => exact List.append_left_lt ih

/-- Texts are ordered as their bytes are. -/
theorem bytes_lt_iff {s t : String} : bytes s < bytes t ↔ s < t := by
  rw [bytes_eq, bytes_eq]
  change _ ↔ s.toList < t.toList
  constructor
  · intro h
    rcases Std.lt_trichotomy s.toList t.toList with hlt | heq | hgt
    · exact hlt
    · rw [heq] at h
      exact absurd h (List.lt_irrefl _)
    · exact absurd h (List.lt_asymm (flatMap_encode_lt hgt))
  · exact flatMap_encode_lt

end SimilarityStore.Text
