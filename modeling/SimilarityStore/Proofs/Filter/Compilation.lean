import SimilarityStore.Filter.Compile
import SimilarityStore.Proofs.Filter.Translation
import SimilarityStore.Proofs.Predicate.GrammarParsing
import SimilarityStore.Proofs.Predicate.Lexing

/-
  The text of a filter is read as the filter's term.  Each piece of a text is scanned into tokens in
  front of anything that ends a token, and these tokens spell the piece's term in the grammar; both
  are shown together, by induction on the filter.
-/

namespace SimilarityStore.Filter

open SimilarityStore.Numeric SimilarityStore.Predicate
open Predicate.Grammar

/-! ## Pieces of texts -/

/-- The characters are scanned into the tokens in front of anything that ends a token. -/
def Spells (cs : List Char) (ts : List Token) : Prop :=
  ∀ rest us, EndsToken rest → Lexes rest us → Lexes (cs ++ rest) (ts ++ us)

theorem Spells.lexes {cs : List Char} {ts : List Token} (h : Spells cs ts) : Lexes cs ts := by
  have := h [] [] endsToken_nil lexes_nil
  rwa [List.append_nil, List.append_nil] at this

/-- Names are what the scanner takes for one. -/
theorem isName_iff {w : String} :
    IsName w ↔ ∃ c cs, w.toList = c :: cs ∧ startsName c = true ∧
      ∀ d ∈ cs, continuesName d = true := by
  simp only [IsName, startsName, continuesName, Bool.or_eq_true, decide_eq_true_eq]

theorem isName_of_all {w : String} {c : Char} {cs : List Char} (hw : w.toList = c :: cs)
    (hc : startsName c = true) (hcs : cs.all continuesName = true) : IsName w :=
  isName_iff.2 ⟨c, cs, hw, hc, List.all_eq_true.1 hcs⟩

theorem spells_name {w : String} (hw : IsName w) : Spells w.toList [.word w] := by
  obtain ⟨c, cs, htext, hc, hcs⟩ := isName_iff.1 hw
  intro rest us hrest h
  have := lexes_word hc hcs hrest.endsName h
  rwa [← htext, String.ofList_toList, ← List.cons_append, ← htext] at this

theorem spells_numeral {n : Numeral} (hn : n.IsPlain) (plus : Bool) :
    Spells (n.toText plus).toList [.number n.toFloat] :=
  fun _ _ hrest h => lexes_numeral hn plus hrest h

theorem spells_text {cs : List Char} (hcs : '"' ∉ cs) :
    Spells ('"' :: (cs ++ ['"'])) [.text (String.ofList cs)] := by
  intro rest us hrest h
  have := lexes_text (.inl rfl) hcs h
  simpa using this

/-- A comparison cannot take in the first character. -/
def StartsOperand (cs : List Char) : Prop := ∃ c more, cs = c :: more ∧ c ≠ '='

/-! ## Operands -/

theorem startsOperand_numeral {n : Numeral} (hn : n.IsPlain) (plus : Bool) :
    StartsOperand (n.toText plus).toList := by
  obtain ⟨d, cs, hu⟩ := hn.unsignedText_eq_cons
  have hd : d.toChar ≠ '=' := by
    intro he
    have := d.isDigit_toChar
    rw [he] at this
    cases this
  rw [hn.toList_toText, hu]
  cases n.negative with
  | true => exact ⟨'-', d.toChar :: cs, rfl, by decide⟩
  | false => exact ⟨d.toChar, cs, rfl, hd⟩

/-- What the text of an operand spells. -/
structure Operand.Written (text : String) (term : Term) (ts : List Token) : Prop where
  spells : Spells text.toList ts
  starts : StartsOperand text.toList
  primary : Primary ts term

/-- The text of a finite number is its plain spelling. -/
theorem literal_real {x : Float} (h : FloatingPoint.isFinite x = true) :
    (Scalar.real x).literal = (NumberStyle.plain.numeral x).toText NumberStyle.plain.plus := by
  rw [Scalar.literal, NumberStyle.spell_finite NumberStyle.plain h]

theorem written_name {w : String} {t : Term} (hw : IsName w) (ht : Primary [.word w] t) :
    Operand.Written w t [.word w] where
  spells := spells_name hw
  starts := by
    obtain ⟨c, cs, htext, hc, -⟩ := isName_iff.1 hw
    refine ⟨c, cs, htext, ?_⟩
    rintro rfl
    cases hc
  primary := ht

theorem Scalar.written {s : Scalar} {text : String} (h : s.compile = .ok text)
    (hq : s.IsUnquoted) : ∃ ts, Operand.Written text (.literal s.value) ts := by
  cases s with
  | null =>
    cases h
    exact ⟨_, written_name (isName_of_all (c := 'n') rfl rfl rfl) .null⟩
  | bool b =>
    cases h
    cases b with
    | false => exact ⟨_, written_name (isName_of_all (c := 'f') rfl rfl rfl) .false⟩
    | true => exact ⟨_, written_name (isName_of_all (c := 't') rfl rfl rfl) .true⟩
  | int i =>
    cases h
    have hn := Numeral.isPlain_ofInt i.toInt
    refine ⟨[.number (FloatingPoint.ofInt i.toInt)], ?_, ?_, .number _⟩
    · rw [← Numeral.toFloat_ofInt, Scalar.literal, ← Numeral.toText_ofInt]
      exact spells_numeral hn false
    · rw [Scalar.literal, ← Numeral.toText_ofInt]
      exact startsOperand_numeral hn false
  | real x =>
    simp only [Scalar.compile] at h
    split at h
    · next hfin =>
      cases h
      have hn := NumberStyle.isPlain_plain x
      refine ⟨[.number x], ?_, ?_, .number x⟩
      · have := spells_numeral hn NumberStyle.plain.plus
        rwa [NumberStyle.toFloat_plain hfin, ← literal_real hfin] at this
      · rw [literal_real hfin]
        exact startsOperand_numeral hn _
    · cases h
  | text s =>
    cases h
    have htext : (Scalar.text s).literal.toList = '"' :: (s.toList ++ ['"']) := by
      simp [Scalar.literal, String.toList_append]
    refine ⟨[.text s], ?_, ?_, .text s⟩
    · rw [htext]
      have := spells_text hq
      rwa [String.ofList_toList] at this
    · exact ⟨'"', _, htext, by decide⟩

/-! ## Sets -/

theorem ok_of_bind {ε α β : Type} {x : Except ε α} {f : α → Except ε β} {b : β}
    (h : x >>= f = .ok b) : ∃ a, x = .ok a ∧ f a = .ok b := by
  cases x with
  | error e => cases h
  | ok a => exact ⟨a, rfl, h⟩

theorem compileAll_cons {s : Scalar} {items : List Scalar} {texts : List String}
    (h : compileAll (s :: items) = .ok texts) :
    ∃ text more, s.compile = .ok text ∧ compileAll items = .ok more ∧ texts = text :: more := by
  obtain ⟨text, ht, h⟩ := ok_of_bind h
  obtain ⟨more, hm, h⟩ := ok_of_bind h
  cases h
  exact ⟨text, more, ht, hm, rfl⟩

/-- The texts of a set's items, with commas between them. -/
theorem written_items {s : Scalar} {items : List Scalar} {texts : List String}
    (h : compileAll (s :: items) = .ok texts) (hq : ∀ i ∈ s :: items, i.IsUnquoted) :
    ∃ ts, Spells (String.intercalate "," texts).toList ts ∧
      Items ts ((s :: items).map fun i => .literal i.value) := by
  induction items generalizing s texts with
  | nil =>
    obtain ⟨text, more, ht, hm, rfl⟩ := compileAll_cons h
    obtain ⟨ts, hw⟩ := s.written ht (hq s List.mem_cons_self)
    cases hm
    refine ⟨ts, ?_, .last hw.primary⟩
    rw [String.intercalate_singleton]
    exact hw.spells
  | cons next items ih =>
    obtain ⟨text, more, ht, hm, rfl⟩ := compileAll_cons h
    obtain ⟨ts, hw⟩ := s.written ht (hq s List.mem_cons_self)
    obtain ⟨us, hus, hitems⟩ := ih hm fun i hi => hq i (List.mem_cons_of_mem s hi)
    obtain ⟨second, others, -, -, rfl⟩ := compileAll_cons hm
    refine ⟨ts ++ .comma :: us, ?_, .more hw.primary hitems⟩
    intro rest after hrest hafter
    have hcomma : Lexes (',' :: ((String.intercalate "," (second :: others)).toList ++ rest))
        (.comma :: (us ++ after)) := lexes_mark rfl rfl (hus rest after hrest hafter)
    have := hw.spells _ _ (endsToken_cons _ (by simp)) hcomma
    simpa [String.intercalate_cons_cons, String.toList_append] using this

/-- The text of an operand that compiles, bracketed when it is a set. -/
theorem Operand.written {operand : Operand} {text : String} (h : operand.compile = .ok text)
    (hq : operand.IsUnquoted) : ∃ ts, Operand.Written text operand.term ts := by
  cases operand with
  | scalar s => exact s.written h hq
  | set items =>
    obtain ⟨texts, ht, h⟩ := ok_of_bind h
    cases h
    have htext : ("[" ++ String.intercalate "," texts ++ "]").toList =
        '[' :: ((String.intercalate "," texts).toList ++ [']']) := by
      simp [String.toList_append]
    have hstarts : StartsOperand ("[" ++ String.intercalate "," texts ++ "]").toList :=
      ⟨'[', _, htext, by decide⟩
    change compileAll (present items) = .ok texts at ht
    have hpresent : ∀ i ∈ present items, i.IsUnquoted := fun i hi => hq i (List.mem_filter.1 hi).1
    have hterm : (set items).term = .list ((present items).map fun s => .literal s.value) := rfl
    rw [hterm]
    cases hp : present items with
    | nil =>
      rw [hp] at ht
      cases ht
      refine ⟨[.openBracket, .closeBracket], ?_, hstarts, .emptyList⟩
      exact fun _ _ _ hafter => lexes_mark rfl rfl (lexes_mark rfl rfl hafter)
    | cons s others =>
      rw [hp] at ht hpresent
      obtain ⟨ts, hts, hitems⟩ := written_items ht hpresent
      refine ⟨.openBracket :: (ts ++ [.closeBracket]), ?_, hstarts, .list hitems⟩
      intro rest after hrest hafter
      have hclose : Lexes (']' :: rest) (.closeBracket :: after) := lexes_mark rfl rfl hafter
      have hopen := lexes_mark (c := '[') (t := .openBracket) rfl rfl
        (hts _ _ (endsToken_cons rest (by simp)) hclose)
      rw [htext]
      simpa using hopen

/-! ## Leaves -/

/-- What the text of a filter spells. -/
structure Expr.Written (text : String) (t : Term) (ts : List Token) : Prop where
  spells : Spells text.toList ts
  unary : Unary ts t

theorem lexes_key {key : String} (hk : IsName key) {rest : List Char} {ts : List Token}
    (hrest : EndsToken rest) (h : Lexes rest ts) :
    Lexes ('.' :: (key.toList ++ rest)) (.selector key :: ts) := by
  obtain ⟨c, cs, hkey, hc, hcs⟩ := isName_iff.1 hk
  have := lexes_selector hc hcs hrest.endsName h
  rwa [← hkey, String.ofList_toList] at this

/-- A word between two blanks. -/
theorem lexes_between {w : String} (hw : IsName w) {rest : List Char} {ts : List Token}
    (h : Lexes rest ts) : Lexes (' ' :: (w.toList ++ ' ' :: rest)) (.word w :: ts) :=
  lexes_blank rfl (spells_name hw _ _ (endsToken_cons rest (.inl rfl)) (lexes_blank rfl h))

theorem isName_in : IsName "in" := isName_of_all (c := 'i') rfl rfl rfl

theorem isName_not : IsName "not" := isName_of_all (c := 'n') rfl rfl rfl

theorem isName_and : IsName "and" := isName_of_all (c := 'a') rfl rfl rfl

theorem isName_or : IsName "or" := isName_of_all (c := 'o') rfl rfl rfl

section Leaf

variable {key value : String} {operand : Term} {vs : List Token}

/-- A key, a comparison and an operand. -/
theorem written_comparison {o : Operator} {c : Comparison} (ho : o.comparison? = some c)
    (hk : IsName key) (hv : Operand.Written value operand vs) :
    Expr.Written ("." ++ key ++ o.text ++ value ++ "") (.compare c (.selector key) operand)
      ([.selector key] ++ .operator o :: vs) where
  spells := by
    intro rest us hrest h
    obtain ⟨first, more, hfirst, hne⟩ := hv.starts
    have noEqual : (value.toList ++ rest).head? ≠ some '=' := by
      rw [hfirst]
      simpa using hne
    have hoperator := lexes_operator (o := o) (fun _ => noEqual) (hv.spells rest us hrest h)
    have := lexes_key hk (endsToken_comparison ho _) hoperator
    simpa [String.toList_append] using this
  unary := .plain (.compare (.selector key) ho hv.primary)

/-- A key, the word for membership and an operand. -/
theorem written_among (hk : IsName key) (hv : Operand.Written value operand vs) :
    Expr.Written ("." ++ key ++ " in " ++ value ++ "") (.isIn (.selector key) operand)
      ([.selector key] ++ .word "in" :: vs) where
  spells := by
    intro rest us hrest h
    have hin := lexes_between isName_in (hv.spells rest us hrest h)
    have := lexes_key hk (endsToken_cons _ (.inl rfl)) hin
    simpa [String.toList_append] using this
  unary := .plain (.isIn (.selector key) hv.primary)

/-- A key, the words for non-membership and an operand in parentheses. -/
theorem written_notAmong (hk : IsName key) (hv : Operand.Written value operand vs) :
    Expr.Written ("." ++ key ++ " not (in " ++ value ++ ")") (.notIn (.selector key) operand)
      ([.selector key] ++ .word "not" :: .openParen :: .word "in" :: (vs ++ [.closeParen])) where
  spells := by
    intro rest us hrest h
    have hclose : Lexes (')' :: rest) (.closeParen :: us) := lexes_mark rfl rfl h
    have hvalue := hv.spells _ _ (endsToken_cons rest (by simp)) hclose
    have hin := spells_name isName_in _ _ (endsToken_cons _ (.inl rfl))
      (lexes_blank (c := ' ') rfl hvalue)
    have hnot := lexes_between isName_not (lexes_mark (c := '(') (t := .openParen) rfl rfl hin)
    have := lexes_key hk (endsToken_cons _ (.inl rfl)) hnot
    simpa [String.toList_append] using this
  unary := .plain (.notInParens (.selector key) hv.primary)

end Leaf

theorem compile_leaf {r : Relation} {key text : String} {operand : Operand}
    (h : (Expr.leaf r key operand).compile = .ok text) :
    ∃ before after value, r.frame? = some (before, after) ∧ operand.compile = .ok value ∧
      text = "." ++ key ++ before ++ value ++ after := by
  unfold Expr.compile at h
  split at h
  · cases h
  · next before after hframe =>
    obtain ⟨value, hv, h⟩ := ok_of_bind h
    cases h
    exact ⟨before, after, value, hframe, hv, rfl⟩

theorem Expr.written_leaf {r : Relation} {key text : String} {operand : Operand}
    (h : (leaf r key operand).compile = .ok text) (hk : IsName key) (hq : operand.IsUnquoted) :
    ∃ t ts, (leaf r key operand).term? = some t ∧ Expr.Written text t ts := by
  obtain ⟨before, after, value, hframe, hcompile, rfl⟩ := compile_leaf h
  obtain ⟨vs, hv⟩ := operand.written hcompile hq
  cases r with
  | equal => cases hframe; exact ⟨_, _, rfl, written_comparison (o := .equal) rfl hk hv⟩
  | notEqual => cases hframe; exact ⟨_, _, rfl, written_comparison (o := .notEqual) rfl hk hv⟩
  | atLeast => cases hframe; exact ⟨_, _, rfl, written_comparison (o := .atLeast) rfl hk hv⟩
  | greater => cases hframe; exact ⟨_, _, rfl, written_comparison (o := .greater) rfl hk hv⟩
  | less => cases hframe; exact ⟨_, _, rfl, written_comparison (o := .less) rfl hk hv⟩
  | atMost => cases hframe; exact ⟨_, _, rfl, written_comparison (o := .atMost) rfl hk hv⟩
  | among => cases hframe; exact ⟨_, _, rfl, written_among hk hv⟩
  | notAmong => cases hframe; exact ⟨_, _, rfl, written_notAmong hk hv⟩
  | containing => cases hframe

/-! ## Trees -/

theorem toList_and : " and ".toList = ' ' :: ("and".toList ++ [' ']) := by simp

theorem toList_or : " or ".toList = ' ' :: ("or".toList ++ [' ']) := by simp

/-- Two filters and a word between them, in parentheses. -/
theorem spells_joined {l r w between : String} {ls rs : List Token} (hw : IsName w)
    (hbetween : between.toList = ' ' :: (w.toList ++ [' '])) (hl : Spells l.toList ls)
    (hr : Spells r.toList rs) :
    Spells ("(" ++ l ++ between ++ r ++ ")").toList
      (.openParen :: ((ls ++ .word w :: rs) ++ [.closeParen])) := by
  intro rest us hrest h
  have hclose : Lexes (')' :: rest) (.closeParen :: us) := lexes_mark rfl rfl h
  have hright := hr _ _ (endsToken_cons rest (by simp)) hclose
  have hleft := hl _ _ (endsToken_cons _ (.inl rfl)) (lexes_between hw hright)
  have := lexes_mark (c := '(') (t := .openParen) rfl rfl hleft
  simpa [String.toList_append, hbetween] using this

/-- A negated filter in parentheses. -/
theorem spells_negated {i : String} {is : List Token} (hi : Spells i.toList is) :
    Spells ("(not " ++ i ++ ")").toList
      (.openParen :: ((.word "not" :: is) ++ [.closeParen])) := by
  intro rest us hrest h
  have hclose : Lexes (')' :: rest) (.closeParen :: us) := lexes_mark rfl rfl h
  have hinner := hi _ _ (endsToken_cons rest (by simp)) hclose
  have hnot := spells_name isName_not _ _ (endsToken_cons _ (.inl rfl))
    (lexes_blank (c := ' ') rfl hinner)
  have := lexes_mark (c := '(') (t := .openParen) rfl rfl hnot
  simpa [String.toList_append] using this

/-- The text of a filter spells the filter's term, in front of anything that ends a token. -/
theorem Expr.written {e : Expr} {text : String} (h : e.compile = .ok text) (hw : e.IsWritable) :
    ∃ t ts, e.term? = some t ∧ Expr.Written text t ts := by
  induction e generalizing text with
  | leaf r key operand => exact written_leaf h hw.1 hw.2
  | and left right ihl ihr =>
    obtain ⟨l, hl, h⟩ := ok_of_bind h
    obtain ⟨r, hr, h⟩ := ok_of_bind h
    cases h
    obtain ⟨t, ts, ht, hleft⟩ := ihl hl hw.1
    obtain ⟨u, us, hu, hright⟩ := ihr hr hw.2
    have hjoin : Conjunction (ts ++ .word "and" :: us) (.and t u) :=
      .join (.single hleft.unary) (.inl rfl) hright.unary
    have hspells := spells_joined isName_and toList_and hleft.spells hright.spells
    exact ⟨.and t u, _, by simp [term?, ht, hu], hspells,
      .plain (.operand (.parens (.single hjoin)))⟩
  | or left right ihl ihr =>
    obtain ⟨l, hl, h⟩ := ok_of_bind h
    obtain ⟨r, hr, h⟩ := ok_of_bind h
    cases h
    obtain ⟨t, ts, ht, hleft⟩ := ihl hl hw.1
    obtain ⟨u, us, hu, hright⟩ := ihr hr hw.2
    have hjoin : Disjunction (ts ++ .word "or" :: us) (.or t u) :=
      .join (.single (.single hleft.unary)) (.inl rfl) (.single hright.unary)
    have hspells := spells_joined isName_or toList_or hleft.spells hright.spells
    exact ⟨.or t u, _, by simp [term?, ht, hu], hspells, .plain (.operand (.parens hjoin))⟩
  | not inner ih =>
    obtain ⟨i, hi, h⟩ := ok_of_bind h
    cases h
    obtain ⟨t, ts, ht, hinner⟩ := ih hi hw
    have hnegated : Unary (.word "not" :: ts) (.not t) := .negated (.inl rfl) hinner.unary
    exact ⟨.not t, _, by simp [term?, ht], spells_negated hinner.spells,
      .plain (.operand (.parens (.single (.single hnegated))))⟩

/-! ## Whole filters -/

/-- The text of a filter is read as the filter's term. -/
theorem Expr.read_compile {e : Expr} {text : String} (h : e.compile = .ok text)
    (hw : e.IsWritable) : ∃ t, e.term? = some t ∧ Term.read text = .ok t := by
  obtain ⟨t, ts, ht, hwritten⟩ := e.written h hw
  refine ⟨t, ht, ?_⟩
  rw [Term.read, hwritten.spells.lexes.scan]
  exact parse_eq_ok_iff.2 (.single (.single hwritten.unary))

/-- A filter that compiles, with names as keys and no double quote in its texts, is read back from
its text as its own term, and the term passes exactly the elements that the filter admits. -/
theorem Expr.compiled_text_means_filter (e : Expr) (text : String) (h : e.compile = .ok text)
    (hw : e.IsWritable) :
    ∃ t, e.term? = some t ∧ Term.read text = .ok t ∧
      ∀ raw, t.accepts raw = true ↔ e.Admits (memberOf? raw) := by
  obtain ⟨t, ht, hread⟩ := e.read_compile h hw
  exact ⟨t, ht, hread, fun raw => e.accepts_iff ht raw⟩

/-- A filter with words of the language as keys, a negative number, a null in a set and a quote of
the other kind. -/
def keywordFilter : Expr :=
  .not (.or (.leaf .less "not" (.scalar (.int (-5))))
    (.leaf .notAmong "in" (.set [.text "it's", .null, .bool true])))

theorem compile_keywordFilter :
    keywordFilter.compile = .ok "(not (.not<-5 or .in not (in [\"it's\",true])))" := by
  have five : Scalar.compile (.int (-5)) = .ok "-5" := by
    have value : Int64.toInt (-5) = -5 := by decide
    rw [Scalar.compile, Scalar.literal, value, signedText, decimalText, digitsOf, digitsBefore]
    · rfl
    · simp
  rw [keywordFilter, Expr.compile, Expr.compile, Expr.compile, Expr.compile]
  simp only [Relation.frame?, Operand.compile, five]
  rfl

theorem isWritable_keywordFilter : keywordFilter.IsWritable :=
  ⟨⟨isName_not, trivial⟩, isName_in, by
    simp [Operand.IsUnquoted, Scalar.IsUnquoted]⟩

/-- The filter with words as keys is read back and means what it says. -/
theorem Expr.keywordFilter_means :
    keywordFilter.compile = .ok "(not (.not<-5 or .in not (in [\"it's\",true])))" ∧
      ∃ t, keywordFilter.term? = some t ∧
        Term.read "(not (.not<-5 or .in not (in [\"it's\",true])))" = .ok t ∧
        ∀ raw, t.accepts raw = true ↔ keywordFilter.Admits (memberOf? raw) :=
  ⟨compile_keywordFilter, Expr.compiled_text_means_filter keywordFilter _ compile_keywordFilter
    isWritable_keywordFilter⟩

end SimilarityStore.Filter
