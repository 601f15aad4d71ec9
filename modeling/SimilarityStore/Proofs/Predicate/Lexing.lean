import SimilarityStore.Predicate.Scan
import SimilarityStore.Predicate.Term
import SimilarityStore.Proofs.Numeric.PlainNumeral
import SimilarityStore.Proofs.Text.Blanks

/-
  Scanning texts that were written piece by piece.  `Lexes cs ts` says that the end `cs` of any text
  is scanned into `ts`.  For each kind of token there is a step, `scanToken_*`, in front of anything
  that the token does not go on with, and `lexes_*` puts it in front of what is scanned.
-/

namespace SimilarityStore.Predicate

open SimilarityStore.Numeric SimilarityStore.Text

/-- The characters are scanned into the tokens, at the end of any text. -/
def Lexes (cs : List Char) (ts : List Token) : Prop := ∀ total, scanFrom total cs = .ok ts

theorem Lexes.scan {s : String} {ts : List Token} (h : Lexes s.toList ts) : scan s = .ok ts :=
  h s.toList.length

theorem lexes_nil : Lexes [] [] := by
  intro total
  rw [scanFrom.eq_def]

theorem scanFrom_blank {c : Char} (hc : isBlank c = true) (total : Nat) (rest : List Char) :
    scanFrom total (c :: rest) = scanFrom total rest := by
  rw [scanFrom.eq_def]
  dsimp only
  rw [if_pos hc]

/-- What does not start with a blank starts with a token, and the rest follows it. -/
theorem scanFrom_step {c : Char} (hc : isBlank c = false) (total : Nat) (rest : List Char) :
    scanFrom total (c :: rest) = scanToken (total - (rest.length + 1)) c rest >>= fun found =>
      (scanFrom total found.2).map (found.1 :: ·) := by
  rw [scanFrom.eq_def]
  dsimp only
  rw [if_neg (by simp [hc])]
  split
  · next e he =>
    rw [List.length_cons] at he
    rw [he]
    rfl
  · next t after ht =>
    rw [List.length_cons] at ht
    rw [ht]
    rfl

/-- What is scanned and does not start with a blank starts with a token. -/
theorem scanFrom_token {c : Char} (hc : isBlank c = false) {total : Nat} {rest : List Char}
    {all : List Token} (h : scanFrom total (c :: rest) = .ok all) :
    ∃ t after us, scanToken (total - (rest.length + 1)) c rest = .ok (t, after) ∧
      scanFrom total after = .ok us ∧ all = t :: us := by
  rw [scanFrom_step hc] at h
  cases htoken : scanToken (total - (rest.length + 1)) c rest with
  | error e =>
    rw [htoken] at h
    cases h
  | ok found =>
    rw [htoken] at h
    have hmap : (scanFrom total found.2).map (found.1 :: ·) = .ok all := h
    cases hafter : scanFrom total found.2 with
    | error e =>
      rw [hafter] at hmap
      cases hmap
    | ok us =>
      rw [hafter] at hmap
      cases hmap
      exact ⟨found.1, found.2, us, rfl, hafter, rfl⟩

theorem lexes_blank {c : Char} {rest : List Char} {ts : List Token} (hc : isBlank c = true)
    (h : Lexes rest ts) : Lexes (c :: rest) ts := by
  intro total
  rw [scanFrom_blank hc]
  exact h total

/-- A token, and what stands behind it. -/
theorem lexes_token {c : Char} {rest after : List Char} {t : Token} {ts : List Token}
    (hc : isBlank c = false) (ht : ∀ position, scanToken position c rest = .ok (t, after))
    (h : Lexes after ts) : Lexes (c :: rest) (t :: ts) := by
  intro total
  rw [scanFrom_step hc, ht]
  exact congrArg (Except.map (t :: ·)) (h total)

/-! ## Names -/

/-- Nothing stands at the front that a name goes on with. -/
def EndsName (rest : List Char) : Prop := ∀ c ∈ rest.head?, continuesName c = false

/-- Nothing stands at the front that a number with these characters goes on with. -/
def EndsNumber (number rest : List Char) : Prop :=
  ∀ before ∈ number.getLast?, ∀ c ∈ rest.head?, continuesNumber before c = false

/-- Nothing stands at the front that a name or a number goes on with. -/
def EndsToken (rest : List Char) : Prop :=
  ∀ c ∈ rest.head?, continuesName c = false ∧ ∀ before, continuesNumber before c = false

theorem EndsToken.endsName {rest : List Char} (h : EndsToken rest) : EndsName rest :=
  fun c hc => (h c hc).1

theorem EndsToken.endsNumber {rest : List Char} (h : EndsToken rest) (number : List Char) :
    EndsNumber number rest := fun before _ c hc => (h c hc).2 before

theorem endsToken_nil : EndsToken [] := by
  intro c hc
  cases hc

theorem endsToken_cons {c : Char} (rest : List Char)
    (h : c = ' ' ∨ c = ')' ∨ c = ']' ∨ c = ',' ∨ c = '=' ∨ c = '!' ∨ c = '<' ∨ c = '>') :
    EndsToken (c :: rest) := by
  intro d hd
  obtain rfl := Option.some.inj hd
  rcases h with rfl | rfl | rfl | rfl | rfl | rfl | rfl | rfl <;> exact ⟨rfl, fun _ => rfl⟩

/-- A name takes exactly the characters that it goes on with. -/
theorem span_name {cs rest : List Char} (hcs : ∀ d ∈ cs, continuesName d = true)
    (hrest : EndsName rest) :
    (cs ++ rest).takeWhile continuesName = cs ∧ (cs ++ rest).dropWhile continuesName = rest := by
  rw [List.takeWhile_append_of_pos hcs, List.dropWhile_append_of_pos hcs]
  cases rest with
  | nil => simp
  | cons c rest => simp [hrest c rfl]

/-- A name starts with a letter or an underscore. -/
theorem toNat_of_startsName {c : Char} (h : startsName c = true) :
    (65 ≤ c.toNat ∧ c.toNat ≤ 90) ∨ (97 ≤ c.toNat ∧ c.toNat ≤ 122) ∨ c.toNat = 95 := by
  simp only [startsName, Char.isAlpha, Char.isUpper, Char.isLower, Bool.or_eq_true,
    Bool.and_eq_true, decide_eq_true_eq, ge_iff_le, UInt32.le_iff_toNat_le] at h
  rcases h with (h | h) | h
  · exact .inl h
  · exact .inr (.inl h)
  · subst h
    exact .inr (.inr rfl)

theorem toNat_of_isDigit {c : Char} (h : c.isDigit = true) : 48 ≤ c.toNat ∧ c.toNat ≤ 57 := by
  simp only [Char.isDigit, Bool.and_eq_true, decide_eq_true_eq, ge_iff_le,
    UInt32.le_iff_toNat_le] at h
  exact h

theorem isBlank_of_startsName {c : Char} (h : startsName c = true) : isBlank c = false := by
  have range := toNat_of_startsName h
  exact isBlank_of_ascii (by omega) (by omega)

theorem isBlank_of_isDigit {c : Char} (h : c.isDigit = true) : isBlank c = false := by
  have range := toNat_of_isDigit h
  exact isBlank_of_ascii (by omega) (by omega)

/-- Neither a name nor a number goes on with a blank. -/
theorem endsToken_of_blank {rest : List Char} (h : ∀ c ∈ rest.head?, isBlank c = true) :
    EndsToken rest := by
  intro c hc
  have hblank := h c hc
  have ne (d : Char) (hd : isBlank d = false) : c ≠ d := by
    rintro rfl
    cases hblank.symm.trans hd
  have hletter : startsName c = false := by
    rw [Bool.eq_false_iff]
    intro hname
    cases hblank.symm.trans (isBlank_of_startsName hname)
  have hdigit : c.isDigit = false := by
    rw [Bool.eq_false_iff]
    intro hdigit
    cases hblank.symm.trans (isBlank_of_isDigit hdigit)
  rw [startsName, Bool.or_eq_false_iff] at hletter
  have hpoint := ne '.' rfl
  have hlower := ne 'e' rfl
  have hupper := ne 'E' rfl
  have hplus := ne '+' rfl
  have hminus := ne '-' rfl
  refine ⟨?_, fun before => ?_⟩
  · simp [continuesName, Char.isAlphanum, hletter, hdigit]
  · simp [continuesNumber, *]

theorem mark?_of_startsName {c : Char} (h : startsName c = true) : mark? c = none := by
  unfold mark?
  split <;> first | rfl | cases h

/-- What starts a name starts neither a string nor a selector nor a number. -/
theorem other_of_startsName {c : Char} (h : startsName c = true) (rest : List Char) :
    c ≠ '"' ∧ c ≠ '\x27' ∧ c ≠ '.' ∧ startsNumber c rest = false := by
  have range := toNat_of_startsName h
  have ne (d : Char) (hd : d.toNat < 65) : c ≠ d := by
    rintro rfl
    omega
  have hdigit : c.isDigit = false := by
    rw [Bool.eq_false_iff]
    intro hdigit
    have digits := toNat_of_isDigit hdigit
    omega
  have hdot := ne '.' (by decide)
  have hminus := ne '-' (by decide)
  exact ⟨ne '"' (by decide), ne '\x27' (by decide), hdot, by simp [startsNumber, *]⟩

theorem scanToken_word {c : Char} {cs rest : List Char} (hc : startsName c = true)
    (hcs : ∀ d ∈ cs, continuesName d = true) (hrest : EndsName rest) (position : Nat) :
    scanToken position c (cs ++ rest) = .ok (.word (String.ofList (c :: cs)), rest) := by
  obtain ⟨htake, hdrop⟩ := span_name hcs hrest
  obtain ⟨hquote, hsingle, hdot, hnumber⟩ := other_of_startsName hc (cs ++ rest)
  simp [scanToken, mark?_of_startsName hc, hquote, hsingle, hdot, hnumber, hc, htake, hdrop]

theorem lexes_word {c : Char} {cs rest : List Char} {ts : List Token}
    (hc : startsName c = true) (hcs : ∀ d ∈ cs, continuesName d = true) (hrest : EndsName rest)
    (h : Lexes rest ts) : Lexes (c :: (cs ++ rest)) (.word (String.ofList (c :: cs)) :: ts) :=
  lexes_token (isBlank_of_startsName hc) (scanToken_word hc hcs hrest) h

/-- A name goes on with everything that it starts with. -/
theorem continuesName_of_startsName {c : Char} (h : startsName c = true) :
    continuesName c = true := by
  simp only [startsName, continuesName, Char.isAlphanum, Bool.or_eq_true] at h ⊢
  rcases h with h | h
  · exact .inl (.inl h)
  · exact .inr h

/-- A point and what starts a name behind it are scanned as a selector. -/
theorem scanToken_selector {c : Char} (hc : startsName c = true) (rest : List Char)
    (position : Nat) :
    scanToken position '.' (c :: rest) =
      .ok (.selector (String.ofList ((c :: rest).takeWhile continuesName)),
        (c :: rest).dropWhile continuesName) := by
  have hmark : mark? '.' = none := rfl
  simp only [scanToken, hmark]
  rw [if_neg (by decide), if_pos (by simp [hc])]

theorem scanToken_name {c : Char} {cs rest : List Char} (hc : startsName c = true)
    (hcs : ∀ d ∈ cs, continuesName d = true) (hrest : EndsName rest) (position : Nat) :
    scanToken position '.' (c :: cs ++ rest) = .ok (.selector (String.ofList (c :: cs)), rest) := by
  have hall : ∀ d ∈ c :: cs, continuesName d = true :=
    List.forall_mem_cons.2 ⟨continuesName_of_startsName hc, hcs⟩
  obtain ⟨htake, hdrop⟩ := span_name hall hrest
  rw [List.cons_append] at htake hdrop ⊢
  rw [scanToken_selector hc, htake, hdrop]

theorem lexes_selector {c : Char} {cs rest : List Char} {ts : List Token}
    (hc : startsName c = true) (hcs : ∀ d ∈ cs, continuesName d = true) (hrest : EndsName rest)
    (h : Lexes rest ts) :
    Lexes ('.' :: (c :: cs ++ rest)) (.selector (String.ofList (c :: cs)) :: ts) :=
  lexes_token rfl (scanToken_name hc hcs hrest) h

/-! ## Strings and numbers -/

/-- The characters that a string can stand between. -/
def IsQuote (c : Char) : Prop := c = '"' ∨ c = '\x27'

theorem IsQuote.isBlank {quote : Char} (h : IsQuote quote) : isBlank quote = false := by
  rcases h with rfl | rfl <;> rfl

theorem scanToken_text {quote : Char} (hquote : IsQuote quote) {cs : List Char} (hcs : quote ∉ cs)
    (rest : List Char) (position : Nat) :
    scanToken position quote (cs ++ quote :: rest) = .ok (.text (String.ofList cs), rest) := by
  have hall : ∀ d ∈ cs, (d != quote) = true := by
    intro d hd
    rw [bne_iff_ne]
    rintro rfl
    exact hcs hd
  have hmark : mark? quote = none := by
    rcases hquote with rfl | rfl <;> rfl
  simp only [scanToken, hmark]
  rw [if_pos (by simpa [IsQuote] using hquote), List.takeWhile_append_of_pos hall,
    List.dropWhile_append_of_pos hall]
  simp

theorem lexes_text {quote : Char} (hquote : IsQuote quote) {cs rest : List Char} {ts : List Token}
    (hcs : quote ∉ cs) (h : Lexes rest ts) :
    Lexes (quote :: (cs ++ quote :: rest)) (.text (String.ofList cs) :: ts) :=
  lexes_token hquote.isBlank (scanToken_text hquote hcs rest) h

/-- The characters of a number, of which each goes on from the one before it. -/
structure NumberRun (c : Char) (cs : List Char) : Prop where
  starts : startsNumber c cs = true
  continues : (c :: cs).IsChain fun before d => continuesNumber before d = true

/-- What a number starts with is seen in its first two characters. -/
theorem NumberRun.starts_append {c : Char} {cs : List Char} (h : NumberRun c cs)
    (rest : List Char) : startsNumber c (cs ++ rest) = true := by
  have hstarts := h.starts
  cases cs with
  | nil =>
    have hdigit : c.isDigit = true := by simpa [startsNumber] using hstarts
    simp [startsNumber, hdigit]
  | cons d cs => exact hstarts

/-- A number takes the characters that it goes on with. -/
theorem spanNumber_append {c : Char} {cs rest : List Char}
    (hcs : (c :: cs).IsChain fun before d => continuesNumber before d = true)
    (hrest : EndsNumber (c :: cs) rest) : spanNumber c (cs ++ rest) = (cs, rest) := by
  induction cs generalizing c with
  | nil =>
    cases rest with
    | nil => rfl
    | cons d rest =>
      have hd : continuesNumber c d = false := hrest c rfl d rfl
      rw [List.nil_append, spanNumber, if_neg (by simp [hd])]
  | cons d cs ih =>
    rw [List.isChain_cons_cons] at hcs
    have hrest' : EndsNumber (d :: cs) rest := by
      rwa [EndsNumber, List.getLast?_cons_cons] at hrest
    rw [List.cons_append, spanNumber, if_pos hcs.1, ih hcs.2 hrest']

/-- A number starts with a digit, a minus sign or a point, and no name stands behind the point. -/
theorem cases_of_startsNumber {c : Char} {rest : List Char} (h : startsNumber c rest = true) :
    c.isDigit = true ∨ c = '-' ∨ c = '.' ∧ rest.head?.any startsName = false := by
  simp only [startsNumber, Bool.or_eq_true, Bool.and_eq_true, decide_eq_true_eq] at h
  rcases h with hdigit | ⟨rfl | rfl, hnext⟩
  · exact .inl hdigit
  · exact .inr (.inl rfl)
  · refine .inr (.inr ⟨rfl, ?_⟩)
    cases rest with
    | nil => rfl
    | cons d rest =>
      rw [List.head?_cons, Option.any_some, Bool.eq_false_iff]
      intro hname
      have range := toNat_of_startsName hname
      simp only [Bool.or_eq_true, decide_eq_true_eq] at hnext
      rcases hnext with hdigit | rfl
      · have digits := toNat_of_isDigit hdigit
        omega
      · cases hname

/-- What starts a number is neither a blank nor a mark nor a quote nor the point of a selector. -/
theorem other_of_startsNumber {c : Char} {rest : List Char} (h : startsNumber c rest = true) :
    isBlank c = false ∧ mark? c = none ∧ ¬ IsQuote c ∧
      ¬ (c = '.' && rest.head?.any startsName) = true := by
  rcases cases_of_startsNumber h with hdigit | rfl | ⟨rfl, hnext⟩
  · have hmark : mark? c = none := by
      unfold mark?
      split <;> first | rfl | cases hdigit
    refine ⟨isBlank_of_isDigit hdigit, hmark, ?_, ?_⟩
    · rintro (rfl | rfl) <;> cases hdigit
    · intro hpoint
      simp only [Bool.and_eq_true, decide_eq_true_eq] at hpoint
      rw [hpoint.1] at hdigit
      cases hdigit
  · refine ⟨rfl, rfl, ?_, ?_⟩
    · rintro (h | h) <;> cases h
    · simp
  · refine ⟨rfl, rfl, ?_, ?_⟩
    · rintro (h | h) <;> cases h
    · simp [hnext]

/-- A run of number characters is scanned as a number when it is a literal as a whole. -/
theorem scanToken_number {c : Char} {cs rest : List Char} {x : Float} (hrun : NumberRun c cs)
    (hx : readLiteral? (c :: cs) = some x) (hrest : EndsNumber (c :: cs) rest) (position : Nat) :
    scanToken position c (cs ++ rest) = .ok (.number x, rest) := by
  have hspan := spanNumber_append hrun.continues hrest
  have hstarts := hrun.starts_append rest
  obtain ⟨-, hmark, hquote, hselector⟩ := other_of_startsNumber hstarts
  simp only [scanToken, hmark]
  rw [if_neg (by simpa [IsQuote] using hquote), if_neg hselector, if_pos hstarts, hspan, hx]

/-- Digits and points go on from any character. -/
theorem isChain_continuesNumber (c : Char) {cs : List Char}
    (h : ∀ d ∈ cs, d.isDigit = true ∨ d = '.') :
    (c :: cs).IsChain fun before d => continuesNumber before d = true := by
  induction cs generalizing c with
  | nil => exact List.isChain_singleton c
  | cons d cs ih =>
    rw [List.isChain_cons_cons]
    refine ⟨?_, ih d fun e he => h e (List.mem_cons_of_mem d he)⟩
    rcases h d List.mem_cons_self with hd | hd <;> simp [continuesNumber, hd]

/-- The text of a plain numeral is a run of number characters. -/
theorem numberRun_toText {n : Numeral} (hn : n.IsPlain) (plus : Bool) :
    ∃ c cs, (n.toText plus).toList = c :: cs ∧ NumberRun c cs := by
  obtain ⟨d, cs, hu⟩ := hn.unsignedText_eq_cons
  have hmem (c : Char) (hc : c ∈ d.toChar :: cs) : c.isDigit = true ∨ c = '.' :=
    Numeral.IsPlain.mem_unsignedText (hu ▸ hc)
  rw [hn.toList_toText, hu]
  cases n.negative with
  | true =>
    refine ⟨'-', d.toChar :: cs, rfl, ?_, isChain_continuesNumber _ hmem⟩
    simp [startsNumber, d.isDigit_toChar]
  | false =>
    refine ⟨d.toChar, cs, rfl, ?_, isChain_continuesNumber _ fun c hc => ?_⟩
    · simp [startsNumber, d.isDigit_toChar]
    · exact hmem c (List.mem_cons_of_mem _ hc)

theorem lexes_numeral {n : Numeral} (hn : n.IsPlain) (plus : Bool) {rest : List Char}
    {ts : List Token} (hrest : EndsToken rest) (h : Lexes rest ts) :
    Lexes ((n.toText plus).toList ++ rest) (.number n.toFloat :: ts) := by
  obtain ⟨c, cs, htext, hrun⟩ := numberRun_toText hn plus
  have hread := hn.readLiteral? plus
  rw [htext] at hread ⊢
  exact lexes_token (other_of_startsNumber hrun.starts).1
    (scanToken_number hrun hread (hrest.endsNumber _)) h

/-! ## Marks and comparisons -/

theorem scanToken_mark {c : Char} {t : Token} (ht : mark? c = some t) (rest : List Char)
    (position : Nat) : scanToken position c rest = .ok (t, rest) := by
  rw [scanToken, ht]

theorem lexes_mark {c : Char} {t : Token} {rest : List Char} {ts : List Token}
    (hc : isBlank c = false) (ht : mark? c = some t) (h : Lexes rest ts) :
    Lexes (c :: rest) (t :: ts) := lexes_token hc (scanToken_mark ht rest) h

/-- An operator of one character would take in an equals sign behind it. -/
def EndsOperator (o : Operator) (rest : List Char) : Prop :=
  o.text.length = 1 → rest.head? ≠ some '='

/-- Without an equals sign behind it, the only character of an operator is the operator. -/
theorem scanToken_single {c : Char} {o : Operator}
    (hc : c = '<' ∧ o = .less ∨ c = '>' ∧ o = .greater ∨ c = '!' ∧ o = .not) {rest : List Char}
    (hrest : rest.head? ≠ some '=') (position : Nat) :
    scanToken position c rest = .ok (.operator o, rest) := by
  have hop : operatorAt? c rest = some (o, rest) := by
    unfold operatorAt?
    rcases hc with ⟨rfl, rfl⟩ | ⟨rfl, rfl⟩ | ⟨rfl, rfl⟩ <;> split <;> simp_all
  rcases hc with ⟨rfl, rfl⟩ | ⟨rfl, rfl⟩ | ⟨rfl, rfl⟩ <;>
    simp [scanToken, mark?, startsNumber, startsName, hop]

/-- An operator is scanned whole when it ends in front of what stands behind it. -/
theorem scanToken_operator {o : Operator} {c : Char} {cs rest : List Char}
    (htext : o.text.toList = c :: cs) (hrest : EndsOperator o rest) (position : Nat) :
    scanToken position c (cs ++ rest) = .ok (.operator o, rest) := by
  cases o with
  | equal | notEqual | atLeast | atMost | and | or =>
    obtain ⟨rfl, rfl⟩ := List.cons.inj htext
    rfl
  | less =>
    obtain ⟨rfl, rfl⟩ := List.cons.inj htext
    exact scanToken_single (.inl ⟨rfl, rfl⟩) (hrest rfl) position
  | greater =>
    obtain ⟨rfl, rfl⟩ := List.cons.inj htext
    exact scanToken_single (.inr (.inl ⟨rfl, rfl⟩)) (hrest rfl) position
  | not =>
    obtain ⟨rfl, rfl⟩ := List.cons.inj htext
    exact scanToken_single (.inr (.inr ⟨rfl, rfl⟩)) (hrest rfl) position

theorem Operator.text_eq_cons (o : Operator) :
    ∃ c cs, o.text.toList = c :: cs ∧ isBlank c = false := by
  cases o <;> exact ⟨_, _, rfl, rfl⟩

theorem lexes_operator {o : Operator} {rest : List Char} {ts : List Token}
    (hrest : EndsOperator o rest) (h : Lexes rest ts) :
    Lexes (o.text.toList ++ rest) (.operator o :: ts) := by
  obtain ⟨c, cs, htext, hblank⟩ := o.text_eq_cons
  rw [htext]
  exact lexes_token hblank (scanToken_operator htext hrest) h

/-- What ends a token in front of a comparison: the comparison's first character. -/
theorem endsToken_comparison {o : Operator} {c : Comparison} (h : o.comparison? = some c)
    (rest : List Char) : EndsToken (o.text.toList ++ rest) := by
  obtain ⟨first, more, htext, hfirst⟩ : ∃ first more, o.text.toList = first :: more ∧
      (first = '=' ∨ first = '!' ∨ first = '<' ∨ first = '>') := by
    cases o with
    | equal => exact ⟨'=', ['='], rfl, by simp⟩
    | notEqual => exact ⟨'!', ['='], rfl, by simp⟩
    | greater => exact ⟨'>', [], rfl, by simp⟩
    | atLeast => exact ⟨'>', ['='], rfl, by simp⟩
    | less => exact ⟨'<', [], rfl, by simp⟩
    | atMost => exact ⟨'<', ['='], rfl, by simp⟩
    | and | or | not => cases h
  rw [htext]
  exact endsToken_cons _ (.inr (.inr (.inr (.inr hfirst))))

end SimilarityStore.Predicate
