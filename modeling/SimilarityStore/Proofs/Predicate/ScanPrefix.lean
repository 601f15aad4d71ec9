import SimilarityStore.Proofs.Predicate.Lexemes

/-
  Scanning goes from the left and never past a blank: the tokens of a text that ends with a blank
  are the first tokens of every longer text (`scanFrom_before_blank`), because no lexeme ends with a
  blank and a token ends where its lexeme does.  Nothing is asked of what stands behind the blank,
  which may well be refused.
-/

namespace SimilarityStore.Predicate

open SimilarityStore.Numeric SimilarityStore.Text

/-! ## Lexemes in front of a blank -/

theorem isBlank_of_continuesName {c : Char} (h : continuesName c = true) : isBlank c = false := by
  rw [Bool.eq_false_iff]
  intro hblank
  have hends : EndsToken [c] := endsToken_of_blank fun d hd => Option.some.inj hd ▸ hblank
  cases h.symm.trans (hends c rfl).1

theorem isBlank_of_continuesNumber {before c : Char} (h : continuesNumber before c = true) :
    isBlank c = false := by
  rw [Bool.eq_false_iff]
  intro hblank
  have hends : EndsToken [c] := endsToken_of_blank fun d hd => Option.some.inj hd ▸ hblank
  cases h.symm.trans ((hends c rfl).2 before)

theorem isBlank_of_isChain {c : Char} {cs : List Char}
    (h : (c :: cs).IsChain fun before d => continuesNumber before d = true) :
    ∀ d ∈ cs, isBlank d = false := by
  induction cs generalizing c with
  | nil => exact fun d hd => absurd hd List.not_mem_nil
  | cons d cs ih =>
    rw [List.isChain_cons_cons] at h
    exact List.forall_mem_cons.2 ⟨isBlank_of_continuesNumber h.1, ih h.2⟩

/-- Only a string has blanks in it. -/
theorem IsIdentifier.isBlank {name : List Char} (h : IsIdentifier name) :
    ∀ c ∈ name, isBlank c = false := by
  obtain ⟨hc, hcs⟩ := h
  exact List.forall_mem_cons.2
    ⟨isBlank_of_startsName hc, fun d hd => isBlank_of_continuesName (hcs d hd)⟩

/-- No lexeme ends with a blank. -/
theorem Token.HasLexeme.isBlank_of_getLast {t : Token} {lexeme : List Char}
    (h : t.HasLexeme lexeme) : ∀ c ∈ lexeme.getLast?, Text.isBlank c = false := by
  intro c hc
  have hmem : c ∈ lexeme := List.mem_of_getLast? hc
  cases h with
  | selector hname =>
    rcases List.mem_cons.1 hmem with rfl | hmem
    · rfl
    · exact hname.isBlank c hmem
  | @text quote content hquote hcontent =>
    rw [← List.cons_append, List.getLast?_append] at hc
    obtain rfl := Option.some.inj hc
    exact hquote.isBlank
  | number hrun hx =>
    rcases List.mem_cons.1 hmem with rfl | hmem
    · exact (other_of_startsNumber hrun.starts).1
    · exact isBlank_of_isChain hrun.continues c hmem
  | word hname => exact hname.isBlank c hmem
  | operator o =>
    cases o <;> obtain rfl := Option.some.inj hc <;> rfl
  | mark hmark =>
    obtain rfl := List.mem_singleton.1 hmem
    exact hmark.isBlank

/-- Where a token ends is seen in the first character behind its lexeme. -/
theorem Token.EndsBefore.congr {t : Token} {lexeme rest other : List Char}
    (h : t.EndsBefore lexeme rest) (hhead : other.head? = rest.head?) :
    t.EndsBefore lexeme other := by
  unfold Token.EndsBefore EndsName EndsNumber EndsOperator at *
  rwa [hhead]

/-- A token is the same whatever stands behind a blank that is not in it. -/
theorem scanToken_before_blank {position : Nat} {c : Char} {cs after : List Char} {t : Token}
    (hc : isBlank c = false) (h : scanToken position c (cs ++ [' ']) = .ok (t, after)) :
    ∃ left, after = left ++ [' '] ∧
      ∀ place rest, scanToken place c (cs ++ ' ' :: rest) = .ok (t, left ++ ' ' :: rest) := by
  obtain ⟨lexeme, hfront, hlexeme, hend⟩ := (scanToken_eq_ok_iff hc).1 h
  rcases List.eq_nil_or_concat' after with rfl | ⟨left, d, rfl⟩
  · rw [List.append_nil] at hfront
    have hlast : ' ' ∈ lexeme.getLast? := by
      rw [← hfront, ← List.cons_append, List.getLast?_append]
      rfl
    cases hlexeme.isBlank_of_getLast ' ' hlast
  · rw [← List.append_assoc, ← List.cons_append] at hfront
    obtain ⟨hsame, hblank⟩ := List.append_inj' hfront rfl
    obtain rfl := List.singleton_inj.1 hblank
    refine ⟨left, rfl, fun place rest => (scanToken_eq_ok_iff hc).2 ⟨lexeme, ?_, hlexeme, ?_⟩⟩
    · rw [← List.append_assoc, ← hsame]
      rfl
    · refine hend.congr ?_
      cases left <;> rfl

/-! ## Texts -/

/-- The tokens in front of a blank are the same whatever stands behind it. -/
theorem scanFrom_before_blank {cs : List Char} {ts : List Token} (h : Lexes (cs ++ [' ']) ts)
    {total : Nat} {rest : List Char} {all : List Token}
    (hall : scanFrom total (cs ++ ' ' :: rest) = .ok all) :
    ∃ us, all = ts ++ us ∧ scanFrom total rest = .ok us := by
  induction hn : cs.length using Nat.strongRecOn generalizing cs ts all with
  | _ n ih =>
    cases cs with
    | nil =>
      have hnothing : ts = [] := by
        have hts := h 0
        rw [List.nil_append, scanFrom_blank rfl, lexes_nil 0] at hts
        exact (Except.ok.inj hts).symm
      rw [List.nil_append, scanFrom_blank rfl] at hall
      exact ⟨all, by rw [hnothing, List.nil_append], hall⟩
    | cons c cs =>
      rw [List.cons_append] at h hall
      rw [List.length_cons] at hn
      cases hc : isBlank c with
      | true =>
        rw [scanFrom_blank hc] at hall
        have hrest : Lexes (cs ++ [' ']) ts := fun place => by
          rw [← scanFrom_blank hc]
          exact h place
        exact ih cs.length (by omega) hrest hall rfl
      | false =>
        obtain ⟨t, after, ts', htoken, -, rfl⟩ := scanFrom_token hc (h total)
        obtain ⟨left, rfl, hsame⟩ := scanToken_before_blank hc htoken
        have hlength := scanToken_length htoken
        rw [List.length_append, List.length_append] at hlength
        have hleft : Lexes (left ++ [' ']) ts' := fun place => by
          obtain ⟨u, last, us, hu, hlast, hus⟩ := scanFrom_token hc (h place)
          rw [hsame] at hu
          cases hu
          cases hus
          exact hlast
        obtain ⟨u, last, us, hu, hlast, rfl⟩ := scanFrom_token hc hall
        rw [hsame] at hu
        cases hu
        obtain ⟨more, rfl, hmore⟩ := ih left.length (by omega) hleft hlast rfl
        exact ⟨more, rfl, hmore⟩

end SimilarityStore.Predicate
