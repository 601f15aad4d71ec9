import SimilarityStore.Proofs.Predicate.Grammar
import SimilarityStore.Proofs.Predicate.Phrases

/-
  The parser accepts exactly its grammar.  Soundness: each reader takes a piece from the front that
  the grammar derives, by recursion on what is left.  Completeness: each derivation is read back
  from in front of anything that cannot extend it, by induction on the derivation.  Hence
  `parse ts = .ok t` exactly when `ts` is a disjunction that spells `t`, and no token list spells
  two terms.
-/

namespace SimilarityStore.Predicate

open Grammar

/-! ## Signs and suffixes -/

theorem joinsOr_iff {t : Token} : t.joinsOr = true ↔ IsOr t := by
  simp [Token.joinsOr, IsOr]

theorem joinsAnd_iff {t : Token} : t.joinsAnd = true ↔ IsAnd t := by
  simp [Token.joinsAnd, IsAnd]

theorem negates_iff {t : Token} : t.negates = true ↔ IsNot t := by
  simp [Token.negates, IsNot]

/-- How a suffix is written in front of its operand. -/
inductive SuffixTokens : Suffix → List Token → Prop where
  | compare {o : Operator} {c : Comparison} : o.comparison? = some c →
      SuffixTokens (.compare c) [.operator o]
  | isIn : SuffixTokens .isIn [.word "in"]
  | notInParens : SuffixTokens (.notIn true) [.word "not", .openParen, .word "in"]
  | notIn : SuffixTokens (.notIn false) [.word "not", .word "in"]

theorem suffixTokens_of_suffix? {ts rest : List Token} {s : Suffix}
    (h : suffix? ts = some (s, rest)) : ∃ us, SuffixTokens s us ∧ ts = us ++ rest := by
  unfold suffix? at h
  split at h
  · next o more =>
    obtain ⟨c, hc, he⟩ := Option.map_eq_some_iff.1 h
    cases he
    exact ⟨_, .compare hc, rfl⟩
  · next w more =>
    split at h
    · next hw =>
      cases h
      exact ⟨_, .isIn, by rw [hw]; rfl⟩
    · split at h
      · next hw =>
        subst hw
        split at h
        · split at h
          · next hv =>
            cases h
            exact ⟨_, .notInParens, by rw [hv]; rfl⟩
          · cases h
        · split at h
          · next hv =>
            cases h
            exact ⟨_, .notIn, by rw [hv]; rfl⟩
          · cases h
        · cases h
      · cases h
  · cases h

theorem suffix?_of_suffixTokens {us : List Token} {s : Suffix} (h : SuffixTokens s us)
    (rest : List Token) : suffix? (us ++ rest) = some (s, rest) := by
  cases h with
  | compare hc => simp [suffix?, hc]
  | _ => rfl

/-- The token in front of a chain's next operand starts no suffix. -/
theorem suffix?_of_isAnd {t : Token} (h : IsAnd t) (rest : List Token) :
    suffix? (t :: rest) = none := by
  rcases h with rfl | rfl <;> rfl

theorem suffix?_of_isOr {t : Token} (h : IsOr t) (rest : List Token) :
    suffix? (t :: rest) = none := by
  rcases h with rfl | rfl <;> rfl

theorem not_isAnd_of_isOr {t : Token} (h : IsOr t) : ¬ IsAnd t := by
  rcases h with rfl | rfl <;> simp [IsAnd]

/-! ## Soundness -/

/-- A phrase of a kind stands at the front: `ts` is `us ++ rest` with `us` derived. -/
def Starts {α : Type} (Phrase : List Token → α → Prop) (ts : List Token) (a : α)
    (rest : List Token) : Prop :=
  ∃ us, ts = us ++ rest ∧ Phrase us a

theorem primary_of_operand? {t : Token} {operand : Term} (h : t.operand? = some operand) :
    Primary [t] operand := by
  cases t with
  | selector name => cases h; exact .selector name
  | text s => cases h; exact .text s
  | number x => cases h; exact .number x
  | word w =>
    obtain ⟨v, hv, rfl⟩ := Option.map_eq_some_iff.1 h
    unfold wordValue? at hv
    split at hv
    · next hw => cases hv; subst hw; exact .true
    · split at hv
      · next hw => cases hv; subst hw; exact .false
      · split at hv
        · next hw => cases hv; subst hw; exact .null
        · cases hv
  | _ => cases h

theorem comparing_of_closeSuffix {ls us rs rest after : List Token} {l r t : Term} {s : Suffix}
    (hl : Primary ls l) (hs : SuffixTokens s us) (hr : Primary rs r)
    (h : closeSuffix s l r rest = some (t, after)) :
    Starts Comparing (ls ++ (us ++ (rs ++ rest))) t after := by
  unfold closeSuffix at h
  split at h
  · next hn =>
    subst hn
    cases hs
    split at h
    · cases h
      exact ⟨_, by simp, .notInParens hl hr⟩
    · cases h
  · next hn =>
    cases h
    cases hs with
    | compare hc => exact ⟨_, by simp, .compare hl hc hr⟩
    | isIn => exact ⟨_, by simp, .isIn hl hr⟩
    | notInParens => exact absurd rfl hn
    | notIn => exact ⟨_, by simp, .notIn hl hr⟩

mutual

theorem primaryPhrase_sound {ts rest : List Token} {t : Term}
    (h : primaryPhrase ts = some (t, rest)) : Starts Primary ts t rest := by
  match ts with
  | [] => rw [primaryPhrase_nil] at h; cases h
  | .openParen :: more =>
    rw [primaryPhrase_openParen] at h
    obtain ⟨⟨u, left⟩, hu, h⟩ := Option.bind_eq_some_iff.1 h
    split at h
    · next after hleft =>
      cases h
      obtain ⟨us, hus, hd⟩ := orPhrase_sound hu
      refine ⟨.openParen :: (us ++ [.closeParen]), ?_, .parens hd⟩
      simp only at hleft
      simp [hus, hleft]
    · cases h
  | .openBracket :: more =>
    by_cases hc : more.head? = some .closeBracket
    · obtain ⟨after, rfl⟩ := List.head?_eq_some_iff.1 hc
      rw [primaryPhrase_emptyList] at h
      cases h
      exact ⟨[.openBracket, .closeBracket], rfl, .emptyList⟩
    · rw [primaryPhrase_openBracket hc] at h
      obtain ⟨⟨items, left⟩, hi, he⟩ := Option.map_eq_some_iff.1 h
      cases he
      obtain ⟨us, hus, hd⟩ := itemsPhrase_sound hi
      exact ⟨.openBracket :: (us ++ [.closeBracket]), by simp [hus], .list hd⟩
  | .selector name :: more | .text s :: more | .number x :: more | .word w :: more
  | .operator o :: more | .closeParen :: more | .closeBracket :: more | .comma :: more =>
    simp only [primaryPhrase_token, ne_eq, reduceCtorEq, not_false_eq_true] at h
    obtain ⟨operand, ho, he⟩ := Option.map_eq_some_iff.1 h
    cases he
    exact ⟨[_], rfl, primary_of_operand? ho⟩
termination_by 6 * ts.length

/-- The items and the bracket behind them. -/
theorem itemsPhrase_sound {ts rest : List Token} {items : List Term}
    (h : itemsPhrase ts = some (items, rest)) : Starts Items ts items (.closeBracket :: rest) := by
  rw [itemsPhrase_eq] at h
  obtain ⟨⟨t, left⟩, ht, h⟩ := Option.bind_eq_some_iff.1 h
  obtain ⟨us, hus, hp⟩ := primaryPhrase_sound ht
  have shorter := found_shorter ht
  split at h
  · next more hleft =>
    simp only at hleft
    subst hleft
    obtain ⟨⟨others, last⟩, ho, he⟩ := Option.map_eq_some_iff.1 h
    cases he
    obtain ⟨vs, hvs, hi⟩ := itemsPhrase_sound ho
    exact ⟨us ++ .comma :: vs, by simp [hus, hvs], .more hp hi⟩
  · next more hleft =>
    simp only at hleft
    subst hleft
    cases h
    exact ⟨us, hus, .last hp⟩
  · cases h
termination_by 6 * ts.length + 1
decreasing_by
  · omega
  · simp only [List.length_cons] at shorter; omega

theorem comparisonPhrase_sound {ts rest : List Token} {t : Term}
    (h : comparisonPhrase ts = some (t, rest)) : Starts Comparing ts t rest := by
  rw [comparisonPhrase_eq] at h
  obtain ⟨⟨l, left⟩, hl, h⟩ := Option.bind_eq_some_iff.1 h
  obtain ⟨ls, hls, pl⟩ := primaryPhrase_sound hl
  split at h
  · cases h
    exact ⟨ls, hls, .operand pl⟩
  · next s more hs =>
    obtain ⟨⟨r, right⟩, hr, h⟩ := Option.bind_eq_some_iff.1 h
    have shorter := found_shorter hl
    have := suffix?_length hs
    obtain ⟨rs, hrs, pr⟩ := primaryPhrase_sound hr
    obtain ⟨us, hus, hleft⟩ := suffixTokens_of_suffix? hs
    simp only at hleft
    rw [hls, hleft, hrs]
    exact comparing_of_closeSuffix pl hus pr h
termination_by 6 * ts.length + 1
decreasing_by
  · omega
  · simp only at *; omega

theorem unaryPhrase_sound {ts rest : List Token} {t : Term}
    (h : unaryPhrase ts = some (t, rest)) : Starts Unary ts t rest := by
  match ts with
  | [] =>
    rw [unaryPhrase_nil] at h
    obtain ⟨us, hus, hc⟩ := comparisonPhrase_sound h
    exact ⟨us, hus, .plain hc⟩
  | sign :: more =>
    rw [unaryPhrase_cons] at h
    split at h
    · next hn =>
      obtain ⟨⟨u, left⟩, hu, he⟩ := Option.map_eq_some_iff.1 h
      cases he
      obtain ⟨us, hus, hd⟩ := unaryPhrase_sound hu
      exact ⟨sign :: us, by rw [hus]; rfl, .negated (negates_iff.1 hn) hd⟩
    · obtain ⟨us, hus, hc⟩ := comparisonPhrase_sound h
      exact ⟨us, hus, .plain hc⟩
termination_by 6 * ts.length + 2

/-- What stands behind a conjunction already read makes it longer. -/
theorem andMore_sound {ts rest : List Token} {l t : Term} (h : andMore l ts = some (t, rest)) :
    ∃ us, ts = us ++ rest ∧ ∀ ls, Conjunction ls l → Conjunction (ls ++ us) t := by
  match ts with
  | [] =>
    rw [andMore_nil] at h
    cases h
    exact ⟨[], rfl, fun ls hl => by rwa [List.append_nil]⟩
  | sign :: more =>
    rw [andMore_cons] at h
    split at h
    · next hs =>
      obtain ⟨⟨r, left⟩, hr, h⟩ := Option.bind_eq_some_iff.1 h
      have shorter := found_shorter hr
      obtain ⟨rs, hrs, pr⟩ := unaryPhrase_sound hr
      obtain ⟨us, hus, grow⟩ := andMore_sound h
      refine ⟨sign :: (rs ++ us), ?_, fun ls hl => ?_⟩
      · simp only at hus
        simp [hrs, hus]
      · have := grow _ (.join hl (joinsAnd_iff.1 hs) pr)
        simpa using this
    · cases h
      exact ⟨[], rfl, fun ls hl => by rwa [List.append_nil]⟩
termination_by 6 * ts.length + 2

theorem andPhrase_sound {ts rest : List Token} {t : Term}
    (h : andPhrase ts = some (t, rest)) : Starts Conjunction ts t rest := by
  rw [andPhrase_eq] at h
  obtain ⟨⟨l, left⟩, hl, h⟩ := Option.bind_eq_some_iff.1 h
  have shorter := found_shorter hl
  obtain ⟨ls, hls, pl⟩ := unaryPhrase_sound hl
  obtain ⟨us, hus, grow⟩ := andMore_sound h
  simp only at hus
  exact ⟨ls ++ us, by simp [hls, hus], grow ls (.single pl)⟩
termination_by 6 * ts.length + 3

/-- What stands behind a disjunction already read makes it longer. -/
theorem orMore_sound {ts rest : List Token} {l t : Term} (h : orMore l ts = some (t, rest)) :
    ∃ us, ts = us ++ rest ∧ ∀ ls, Disjunction ls l → Disjunction (ls ++ us) t := by
  match ts with
  | [] =>
    rw [orMore_nil] at h
    cases h
    exact ⟨[], rfl, fun ls hl => by rwa [List.append_nil]⟩
  | sign :: more =>
    rw [orMore_cons] at h
    split at h
    · next hs =>
      obtain ⟨⟨r, left⟩, hr, h⟩ := Option.bind_eq_some_iff.1 h
      have shorter := found_shorter hr
      obtain ⟨rs, hrs, pr⟩ := andPhrase_sound hr
      obtain ⟨us, hus, grow⟩ := orMore_sound h
      refine ⟨sign :: (rs ++ us), ?_, fun ls hl => ?_⟩
      · simp only at hus
        simp [hrs, hus]
      · have := grow _ (.join hl (joinsOr_iff.1 hs) pr)
        simpa using this
    · cases h
      exact ⟨[], rfl, fun ls hl => by rwa [List.append_nil]⟩
termination_by 6 * ts.length + 3

theorem orPhrase_sound {ts rest : List Token} {t : Term}
    (h : orPhrase ts = some (t, rest)) : Starts Disjunction ts t rest := by
  rw [orPhrase_eq] at h
  obtain ⟨⟨l, left⟩, hl, h⟩ := Option.bind_eq_some_iff.1 h
  have shorter := found_shorter hl
  obtain ⟨ls, hls, pl⟩ := andPhrase_sound hl
  obtain ⟨us, hus, grow⟩ := orMore_sound h
  simp only at hus
  exact ⟨ls ++ us, by simp [hls, hus], grow ls (.single pl)⟩
termination_by 6 * ts.length + 4

end

/-! ## Completeness -/

/-- What an operand starts with neither negates nor closes a list. -/
theorem Grammar.Primary.head {ts : List Token} {t : Term} (h : Primary ts t) :
    ∃ first more, ts = first :: more ∧ ¬ IsNot first ∧ first ≠ .closeBracket := by
  cases h with
  | _ => exact ⟨_, _, rfl, by simp [IsNot], by simp⟩

/-- Items do not look like the end of an empty list. -/
theorem Grammar.Items.head_append {ts : List Token} {items : List Term} (h : Items ts items)
    (rest : List Token) : (ts ++ rest).head? ≠ some .closeBracket := by
  cases h with
  | last hp | more hp _ =>
    obtain ⟨first, more, rfl, -, hc⟩ := hp.head
    simpa using hc

theorem Grammar.Comparing.head {ts : List Token} {t : Term} (h : Comparing ts t) :
    ∃ first more, ts = first :: more ∧ ¬ IsNot first := by
  cases h with
  | operand hp =>
    obtain ⟨first, more, rfl, hn, -⟩ := hp.head
    exact ⟨first, more, rfl, hn⟩
  | compare hp _ _ | isIn hp _ | notIn hp _ | notInParens hp _ =>
    obtain ⟨first, more, rfl, hn, -⟩ := hp.head
    exact ⟨first, _, rfl, hn⟩

/-- No suffix stands here, and no condition that has to hold as well. -/
def EndsConjunction (rest : List Token) : Prop :=
  suffix? rest = none ∧ ∀ t ∈ rest.head?, ¬ IsAnd t

/-- Nothing stands here that a disjunction goes on with. -/
def EndsDisjunction (rest : List Token) : Prop :=
  EndsConjunction rest ∧ ∀ t ∈ rest.head?, ¬ IsOr t

theorem endsDisjunction_nil : EndsDisjunction [] :=
  ⟨⟨rfl, by simp⟩, by simp⟩

theorem endsDisjunction_closeParen (rest : List Token) : EndsDisjunction (.closeParen :: rest) :=
  ⟨⟨rfl, by simp [IsAnd]⟩, by simp [IsOr]⟩

theorem endsConjunction_of_isOr {sign : Token} (h : IsOr sign) (rest : List Token) :
    EndsConjunction (sign :: rest) :=
  ⟨suffix?_of_isOr h rest, by simpa using not_isAnd_of_isOr h⟩

theorem andMore_of_ends {rest : List Token} (h : EndsConjunction rest) (l : Term) :
    andMore l rest = some (l, rest) := by
  cases rest with
  | nil => exact andMore_nil l
  | cons t rest =>
    have hn : ¬ t.joinsAnd = true := fun hj => h.2 t rfl (joinsAnd_iff.1 hj)
    rw [andMore_cons, if_neg hn]

theorem orMore_of_ends {rest : List Token} (h : EndsDisjunction rest) (l : Term) :
    orMore l rest = some (l, rest) := by
  cases rest with
  | nil => exact orMore_nil l
  | cons t rest =>
    have hn : ¬ t.joinsOr = true := fun hj => h.2 t rfl (joinsOr_iff.1 hj)
    rw [orMore_cons, if_neg hn]

/-- Two operands and a suffix between them are read as the suffix's term. -/
theorem comparisonPhrase_of_suffix {ls us rs rest after : List Token} {l r t : Term} {s : Suffix}
    (hl : primaryPhrase (ls ++ (us ++ (rs ++ rest))) = some (l, us ++ (rs ++ rest)))
    (hs : SuffixTokens s us) (hr : primaryPhrase (rs ++ rest) = some (r, rest))
    (hc : closeSuffix s l r rest = some (t, after)) :
    comparisonPhrase (ls ++ (us ++ (rs ++ rest))) = some (t, after) := by
  rw [comparisonPhrase_eq, hl]
  simp only [Option.bind_some, suffix?_of_suffixTokens hs, hr, hc]

-- The chains are read from the left: behind a derived chain the reader is in its loop, with the
-- chain's term read and the rest to come.  So the two statements about chains end in `andMore` and
-- `orMore`, which is what the induction over the recursion on the left needs.
mutual

theorem Grammar.Primary.read {ts : List Token} {t : Term} (h : Primary ts t)
    (rest : List Token) : primaryPhrase (ts ++ rest) = some (t, rest) := by
  match h with
  | .parens hd =>
    have ends := endsDisjunction_closeParen rest
    rw [List.cons_append, List.append_assoc, List.singleton_append, primaryPhrase_openParen,
      hd.read ends.1, orMore_of_ends ends]
    rfl
  | .emptyList => exact primaryPhrase_emptyList rest
  | .list hi =>
    rw [List.cons_append, List.append_assoc, List.singleton_append,
      primaryPhrase_openBracket (hi.head_append _), hi.read rest]
    rfl
  | .selector _ | .text _ | .number _ | .true | .false | .null =>
    simp only [List.singleton_append, primaryPhrase_token, ne_eq, reduceCtorEq,
      not_false_eq_true]
    rfl

theorem Grammar.Items.read {ts : List Token} {items : List Term} (h : Items ts items)
    (rest : List Token) : itemsPhrase (ts ++ .closeBracket :: rest) = some (items, rest) := by
  match h with
  | .last hp =>
    rw [itemsPhrase_eq, hp.read]
    rfl
  | .more hp hi =>
    rw [itemsPhrase_eq, List.append_assoc, hp.read, List.cons_append, Option.bind_some]
    simp only [hi.read rest, Option.map_some]

theorem Grammar.Comparing.read {ts : List Token} {t : Term} (h : Comparing ts t)
    {rest : List Token} (hrest : suffix? rest = none) :
    comparisonPhrase (ts ++ rest) = some (t, rest) := by
  match h with
  | .operand hp =>
    rw [comparisonPhrase_eq, hp.read]
    simp only [Option.bind_some, hrest]
  | .compare hl hc hr =>
    rw [List.append_assoc]
    exact comparisonPhrase_of_suffix (hl.read _) (.compare hc) (hr.read _) rfl
  | .isIn hl hr =>
    rw [List.append_assoc]
    exact comparisonPhrase_of_suffix (hl.read _) .isIn (hr.read _) rfl
  | .notIn hl hr =>
    rw [List.append_assoc]
    exact comparisonPhrase_of_suffix (hl.read _) .notIn (hr.read _) rfl
  | .notInParens hl hr =>
    simp only [List.append_assoc, List.cons_append, List.nil_append]
    exact comparisonPhrase_of_suffix (hl.read _) .notInParens (hr.read _) rfl

theorem Grammar.Unary.read {ts : List Token} {t : Term} (h : Unary ts t)
    {rest : List Token} (hrest : suffix? rest = none) :
    unaryPhrase (ts ++ rest) = some (t, rest) := by
  match h with
  | .negated hs hu =>
    rw [List.cons_append, unaryPhrase_cons, if_pos (negates_iff.2 hs), hu.read hrest]
    rfl
  | .plain hc =>
    obtain ⟨first, more, hts, hn⟩ := hc.head
    have hf : ¬ first.negates = true := fun hf => hn (negates_iff.1 hf)
    have hread := hc.read hrest
    rw [hts, List.cons_append] at hread ⊢
    rw [unaryPhrase_cons, if_neg hf, hread]

theorem Grammar.Conjunction.read {ts : List Token} {t : Term} (h : Conjunction ts t)
    {rest : List Token} (hrest : suffix? rest = none) :
    andPhrase (ts ++ rest) = andMore t rest := by
  match h with
  | .single hu =>
    rw [andPhrase_eq, hu.read hrest]
    rfl
  | .join hl hs hr =>
    rw [List.append_assoc, List.cons_append, hl.read (suffix?_of_isAnd hs _), andMore_cons,
      if_pos (joinsAnd_iff.2 hs), hr.read hrest]
    rfl

theorem Grammar.Disjunction.read {ts : List Token} {t : Term} (h : Disjunction ts t)
    {rest : List Token} (hrest : EndsConjunction rest) :
    orPhrase (ts ++ rest) = orMore t rest := by
  match h with
  | .single hc =>
    rw [orPhrase_eq, hc.read hrest.1, andMore_of_ends hrest]
    rfl
  | .join hl hs hr =>
    rw [List.append_assoc, List.cons_append, hl.read (endsConjunction_of_isOr hs _), orMore_cons,
      if_pos (joinsOr_iff.2 hs), hr.read hrest.1, andMore_of_ends hrest]
    rfl

end

/-! ## The parser and the grammar -/

/-- A token list is parsed as a term exactly when it spells the term. -/
theorem parse_eq_ok_iff {ts : List Token} {t : Term} : parse ts = .ok t ↔ Disjunction ts t := by
  rw [parse_eq_ok_iff_orPhrase]
  constructor
  · intro h
    obtain ⟨us, rfl, hd⟩ := orPhrase_sound h
    rwa [List.append_nil]
  · intro h
    have hread := h.read endsDisjunction_nil.1
    rwa [List.append_nil, orMore_of_ends endsDisjunction_nil] at hread

/-- The parser accepts exactly what the grammar derives, with the term of the derivation; it
refuses every other token list; and no token list spells two terms. -/
theorem parse_accepts_exactly_grammar :
    (∀ ts t, parse ts = .ok t ↔ Disjunction ts t) ∧
      (∀ ts, (∃ e, parse ts = .error e) ↔ ∀ t, ¬ Disjunction ts t) ∧
      ∀ ts t u, Disjunction ts t → Disjunction ts u → t = u := by
  refine ⟨fun ts t => parse_eq_ok_iff, fun ts => ?_, fun ts t u ht hu => ?_⟩
  · constructor
    · rintro ⟨e, he⟩ t ht
      rw [parse_eq_ok_iff.2 ht] at he
      cases he
    · intro none
      cases h : parse ts with
      | error e => exact ⟨e, rfl⟩
      | ok t => exact absurd (parse_eq_ok_iff.1 h) (none t)
  · have := (parse_eq_ok_iff.2 ht).symm.trans (parse_eq_ok_iff.2 hu)
    exact Except.ok.inj this

/-- A negation in front and one behind the first operand: `not .a not (in [])`. -/
theorem parse_double_negation :
    parse [.word "not", .selector "a", .word "not", .openParen, .word "in", .openBracket,
      .closeBracket, .closeParen] = .ok (.not (.notIn (.selector "a") (.list []))) := by
  have comparing : Comparing ([.selector "a"] ++ .word "not" :: .openParen :: .word "in" ::
      ([.openBracket, .closeBracket] ++ [.closeParen])) (.notIn (.selector "a") (.list [])) :=
    .notInParens (.selector "a") .emptyList
  have unary : Unary (.word "not" :: _) _ := .negated (.inl rfl) (.plain comparing)
  exact (parse_accepts_exactly_grammar.1 _ _).2 (.single (.single unary))

end SimilarityStore.Predicate
