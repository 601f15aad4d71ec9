import SimilarityStore.Proofs.Predicate.Lexing
import SimilarityStore.Proofs.Text.Blanks

/-
  What scanning keeps of a text.  A text is scanned into tokens exactly when it is made of their
  lexemes, with blanks around them, and every lexeme takes all that it goes on with (`Covers`); any
  other text is refused at a place behind such a front (`Refused`).  One step is `scanToken_finds`,
  and the run is `scanFrom_ends`.  Tokens that are written in source form with blanks between them
  are read back as they were (`Joined.covers`).  Main statement: `scanning_loses_nothing`.
-/

namespace SimilarityStore.Predicate

open SimilarityStore.Numeric SimilarityStore.Text

/-! ## Lexemes -/

/-- A letter or an underscore, and then letters, digits and underscores. -/
inductive IsIdentifier : List Char → Prop where
  | intro {c : Char} {cs : List Char} (hc : startsName c = true)
      (hcs : ∀ d ∈ cs, continuesName d = true) : IsIdentifier (c :: cs)

/-- The tokens that are written as one character. -/
inductive IsMark : Token → Char → Prop where
  | openParen : IsMark .openParen '('
  | closeParen : IsMark .closeParen ')'
  | openBracket : IsMark .openBracket '['
  | closeBracket : IsMark .closeBracket ']'
  | comma : IsMark .comma ','

/-- The characters that a token stands for in a text. -/
inductive Token.HasLexeme : Token → List Char → Prop where
  | selector {name : List Char} (h : IsIdentifier name) :
      HasLexeme (.selector (String.ofList name)) ('.' :: name)
  /-- The content of a string is kept as it is. -/
  | text {quote : Char} {content : List Char} (hquote : IsQuote quote) (h : quote ∉ content) :
      HasLexeme (.text (String.ofList content)) (quote :: (content ++ [quote]))
  | number {c : Char} {cs : List Char} {x : Float} (hrun : NumberRun c cs)
      (hx : readLiteral? (c :: cs) = some x) : HasLexeme (.number x) (c :: cs)
  | word {name : List Char} (h : IsIdentifier name) : HasLexeme (.word (String.ofList name)) name
  | operator (o : Operator) : HasLexeme (.operator o) o.text.toList
  | mark {t : Token} {c : Char} (h : IsMark t c) : HasLexeme t [c]

/-- The lexeme of a token takes in nothing of what stands behind it. -/
def Token.EndsBefore (lexeme rest : List Char) : Token → Prop
  | selector _ | word _ => EndsName rest
  | number _ => EndsNumber lexeme rest
  | operator o => EndsOperator o rest
  | _ => True

/-- A lexeme of the token stands at the front of a text, and this is what stands behind it. -/
def Token.Heads (t : Token) (cs after : List Char) : Prop :=
  ∃ lexeme, cs = lexeme ++ after ∧ t.HasLexeme lexeme ∧ t.EndsBefore lexeme after

/-- A text is, in order, runs of blanks around the lexemes of tokens, up to the rest of it. -/
inductive Covers : List Char → List Token → List Char → Prop where
  | done {gap : List Char} (hgap : AllBlank gap) (rest : List Char) : Covers (gap ++ rest) [] rest
  | token {gap cs after rest : List Char} {t : Token} {ts : List Token} (hgap : AllBlank gap)
      (ht : t.Heads cs after) (hafter : Covers after ts rest) : Covers (gap ++ cs) (t :: ts) rest

/-- Why no token is found at a position where a character stands in front of others. -/
inductive RefusedAt (position : Nat) : Char → List Char → SyntaxError → Prop where
  | openString {quote : Char} {rest : List Char} (hquote : IsQuote quote) (h : quote ∉ rest) :
      RefusedAt position quote rest (.openString position)
  /-- The whole run of number characters is no numeral. -/
  | badNumber {c : Char} {cs rest : List Char} (hrun : NumberRun c cs)
      (hend : EndsNumber (c :: cs) rest) (h : readLiteral? (c :: cs) = none) :
      RefusedAt position c (cs ++ rest) (.badNumber (String.ofList (c :: cs)))
  /-- There is no lexeme at the front. -/
  | badCharacter {c : Char} {rest : List Char} (hblank : isBlank c = false)
      (h : ∀ t lexeme after, Token.HasLexeme t lexeme → c :: rest ≠ lexeme ++ after) :
      RefusedAt position c rest (.badCharacter c position)

/-- What is found at a position: a token with its lexeme, or a reason why there is none. -/
inductive Finds (position : Nat) (c : Char) (rest : List Char) :
    Except SyntaxError (Token × List Char) → Prop where
  | token {t : Token} {after : List Char} (h : t.Heads (c :: rest) after) :
      Finds position c rest (.ok (t, after))
  | refused {e : SyntaxError} (h : RefusedAt position c rest e) : Finds position c rest (.error e)

/-- A text is refused at a position behind some tokens. -/
def Refused (text : List Char) (e : SyntaxError) : Prop :=
  ∃ ts position c rest, text.drop position = c :: rest ∧ Covers text ts (c :: rest) ∧
    RefusedAt position c rest e

/-! ## Covered texts are scanned -/

theorem mark?_eq_some_iff {c : Char} {t : Token} : mark? c = some t ↔ IsMark t c := by
  constructor
  · intro h
    unfold mark? at h
    split at h <;> cases h <;> constructor
  · intro h
    cases h <;> rfl

theorem IsMark.isBlank {t : Token} {c : Char} (h : IsMark t c) : isBlank c = false := by
  cases h <;> rfl

theorem lexes_gap {gap rest : List Char} {ts : List Token} (hgap : AllBlank gap)
    (h : Lexes rest ts) : Lexes (gap ++ rest) ts := by
  induction gap with
  | nil => exact h
  | cons c gap ih =>
    have hblank := List.forall_mem_cons.1 hgap
    exact lexes_blank hblank.1 (ih hblank.2)

/-- No lexeme starts with a blank. -/
theorem Token.HasLexeme.exists_cons {t : Token} {lexeme : List Char} (h : t.HasLexeme lexeme) :
    ∃ c cs, lexeme = c :: cs ∧ Text.isBlank c = false := by
  cases h with
  | selector hname => exact ⟨_, _, rfl, rfl⟩
  | text hquote hcontent => exact ⟨_, _, rfl, hquote.isBlank⟩
  | number hrun hx => exact ⟨_, _, rfl, (other_of_startsNumber hrun.starts).1⟩
  | word hname =>
    obtain ⟨hc, hcs⟩ := hname
    exact ⟨_, _, rfl, isBlank_of_startsName hc⟩
  | operator o => exact o.text_eq_cons
  | mark hmark => exact ⟨_, _, rfl, hmark.isBlank⟩

/-- A token is found by its lexeme. -/
theorem Token.Heads.scanToken {t : Token} {c : Char} {rest after : List Char}
    (h : t.Heads (c :: rest) after) (position : Nat) :
    Predicate.scanToken position c rest = .ok (t, after) := by
  obtain ⟨lexeme, hfront, hlexeme, hend⟩ := h
  cases hlexeme with
  | selector hname =>
    obtain ⟨hc, hcs⟩ := hname
    obtain ⟨rfl, rfl⟩ := List.cons.inj hfront
    exact scanToken_name hc hcs hend position
  | text hquote hcontent =>
    rw [List.cons_append, List.append_assoc] at hfront
    obtain ⟨rfl, rfl⟩ := List.cons.inj hfront
    exact scanToken_text hquote hcontent after position
  | number hrun hx =>
    obtain ⟨rfl, rfl⟩ := List.cons.inj hfront
    exact scanToken_number hrun hx hend position
  | word hname =>
    obtain ⟨hc, hcs⟩ := hname
    obtain ⟨rfl, rfl⟩ := List.cons.inj hfront
    exact scanToken_word hc hcs hend position
  | operator o =>
    obtain ⟨d, cs, htext, -⟩ := o.text_eq_cons
    rw [htext] at hfront
    obtain ⟨rfl, rfl⟩ := List.cons.inj hfront
    exact scanToken_operator htext hend position
  | mark hmark =>
    obtain ⟨rfl, rfl⟩ := List.cons.inj hfront
    exact scanToken_mark (mark?_eq_some_iff.2 hmark) _ position

theorem Token.Heads.lexes {t : Token} {cs after : List Char} {ts : List Token}
    (ht : t.Heads cs after) (h : Lexes after ts) : Lexes cs (t :: ts) := by
  obtain ⟨lexeme, rfl, hlexeme, hend⟩ := ht
  obtain ⟨c, more, rfl, hblank⟩ := hlexeme.exists_cons
  have hheads : t.Heads (c :: (more ++ after)) after := ⟨c :: more, rfl, hlexeme, hend⟩
  exact lexes_token hblank hheads.scanToken h

/-- After the tokens of a front the rest is scanned. -/
theorem Covers.lexes {cs rest : List Char} {ts us : List Token} (h : Covers cs ts rest)
    (hrest : Lexes rest us) : Lexes cs (ts ++ us) := by
  induction h with
  | done hgap rest => exact lexes_gap hgap hrest
  | token hgap ht hafter ih => exact lexes_gap hgap (ht.lexes (ih hrest))

/-! ## Scanned texts are covered -/

theorem dropWhile_ends {p : Char → Bool} (cs : List Char) :
    ∀ c ∈ (cs.dropWhile p).head?, p c = false := by
  intro c hc
  have hhead := List.head?_dropWhile_not p cs
  rw [Option.mem_def.1 hc] at hhead
  simpa using hhead

/-- The characters of a number and what stands behind them. -/
theorem spanNumber_run (c : Char) (cs : List Char) :
    cs = (spanNumber c cs).1 ++ (spanNumber c cs).2 ∧
      ((c :: (spanNumber c cs).1).IsChain fun before d => continuesNumber before d = true) ∧
      EndsNumber (c :: (spanNumber c cs).1) (spanNumber c cs).2 := by
  induction cs generalizing c with
  | nil => exact ⟨rfl, List.isChain_singleton c, fun _ _ d hd => by cases hd⟩
  | cons d cs ih =>
    rw [spanNumber]
    split
    · next hd =>
      obtain ⟨hsplit, hchain, hend⟩ := ih d
      refine ⟨congrArg (d :: ·) hsplit, List.isChain_cons_cons.2 ⟨hd, hchain⟩, ?_⟩
      rwa [EndsNumber, List.getLast?_cons_cons]
    · next hd =>
      refine ⟨rfl, List.isChain_singleton c, ?_⟩
      intro before hbefore e he
      obtain rfl := Option.some.inj hbefore
      obtain rfl := Option.some.inj he
      exact Bool.eq_false_iff.2 hd

theorem operatorAt?_split {c : Char} {rest after : List Char} {o : Operator}
    (h : operatorAt? c rest = some (o, after)) :
    c :: rest = o.text.toList ++ after ∧ EndsOperator o after := by
  unfold operatorAt? at h
  split at h
  -- An operator of two characters takes in nothing more.
  iterate 6
    · cases h
      exact ⟨rfl, fun hone => absurd hone (by decide)⟩
  -- An operator of one would have been one of two in front of an equals sign.
  iterate 3
    · next hother =>
      cases h
      refine ⟨rfl, fun _ hequals => ?_⟩
      obtain ⟨more, rfl⟩ := List.head?_eq_some_iff.1 hequals
      exact hother more rfl
  · cases h

theorem operatorAt?_text (o : Operator) (after : List Char) {c : Char} {rest : List Char}
    (h : c :: rest = o.text.toList ++ after) : operatorAt? c rest ≠ none := by
  have hsingle (d : Char) (hd : d = '<' ∨ d = '>' ∨ d = '!') : operatorAt? d rest ≠ none := by
    unfold operatorAt?
    rcases hd with rfl | rfl | rfl <;> split <;> simp_all
  cases o with
  | equal | notEqual | atLeast | atMost | and | or =>
    cases h
    exact Option.some_ne_none _
  | less | greater | not =>
    obtain ⟨rfl, -⟩ := List.cons.inj h
    exact hsingle _ (by decide)

/-- A character that starts nothing is not the first of a lexeme. -/
theorem not_hasLexeme {c : Char} {rest : List Char} (hmark : mark? c = none)
    (hquote : ¬ IsQuote c) (hselector : ¬ (c = '.' && rest.head?.any startsName) = true)
    (hnumber : ¬ startsNumber c rest = true) (hname : ¬ startsName c = true)
    (hoperator : operatorAt? c rest = none) {t : Token} {lexeme : List Char} (after : List Char)
    (h : t.HasLexeme lexeme) : c :: rest ≠ lexeme ++ after := by
  intro hfront
  cases h with
  | selector hidentifier =>
    obtain ⟨hd, -⟩ := hidentifier
    obtain ⟨rfl, rfl⟩ := List.cons.inj hfront
    exact hselector (by simp [hd])
  | text hq hcontent =>
    obtain ⟨rfl, -⟩ := List.cons.inj hfront
    exact hquote hq
  | number hrun hx =>
    obtain ⟨rfl, rfl⟩ := List.cons.inj hfront
    exact hnumber (hrun.starts_append after)
  | word hidentifier =>
    obtain ⟨hd, -⟩ := hidentifier
    obtain ⟨rfl, -⟩ := List.cons.inj hfront
    exact hname hd
  | operator o => exact operatorAt?_text o after hfront hoperator
  | mark h =>
    obtain ⟨rfl, -⟩ := List.cons.inj hfront
    cases hmark.symm.trans (mark?_eq_some_iff.2 h)

/-- A quote is closed by the next one of its kind, if there is one. -/
theorem finds_quoted (position : Nat) {quote : Char} (hquote : IsQuote quote) (rest : List Char) :
    Finds position quote rest
      (match rest.dropWhile (· != quote) with
      | [] => .error (.openString position)
      | _ :: after => .ok (.text (String.ofList (rest.takeWhile (· != quote))), after)) := by
  have hsplit := List.takeWhile_append_dropWhile (p := (· != quote)) (l := rest)
  have hcontent : quote ∉ rest.takeWhile (· != quote) := by
    intro hmem
    have hne := List.all_eq_true.1 List.all_takeWhile quote hmem
    simp at hne
  cases hclosed : rest.dropWhile (· != quote) with
  | nil =>
    rw [hclosed, List.append_nil] at hsplit
    rw [hsplit] at hcontent
    exact .refused (.openString hquote hcontent)
  | cons close after =>
    have hclose : (close != quote) = false := dropWhile_ends rest close (by rw [hclosed]; rfl)
    obtain rfl : close = quote := by simpa using hclose
    rw [hclosed] at hsplit
    refine .token ⟨_, ?_, .text hquote hcontent, trivial⟩
    simp [hsplit]

/-- A name takes all that it goes on with. -/
theorem isIdentifier_takeWhile {cs : List Char} (h : cs.head?.any startsName = true) :
    IsIdentifier (cs.takeWhile continuesName) := by
  cases cs with
  | nil => cases h
  | cons c cs =>
    rw [List.takeWhile_cons_of_pos (continuesName_of_startsName h)]
    exact .intro h (List.all_eq_true.1 List.all_takeWhile)

/-- What starts a number is part of its characters. -/
theorem numberRun_spanNumber {c : Char} {rest : List Char} (h : startsNumber c rest = true) :
    NumberRun c (spanNumber c rest).1 := by
  refine ⟨?_, (spanNumber_run c rest).2.1⟩
  cases rest with
  | nil => exact h
  | cons d rest =>
    rw [spanNumber]
    split
    · exact h
    · next hd =>
      -- Behind a minus sign or a point stands a digit or a point, which would not be left out.
      have hdigit : c.isDigit = true := by
        simp only [startsNumber, continuesNumber, Bool.or_eq_true, Bool.and_eq_true,
          decide_eq_true_eq] at h hd
        tauto
      simp [startsNumber, hdigit]

theorem finds_number (position : Nat) {c : Char} {rest : List Char}
    (h : startsNumber c rest = true) :
    Finds position c rest
      (match readLiteral? (c :: (spanNumber c rest).1) with
      | some x => .ok (.number x, (spanNumber c rest).2)
      | none => .error (.badNumber (String.ofList (c :: (spanNumber c rest).1)))) := by
  obtain ⟨hsplit, -, hend⟩ := spanNumber_run c rest
  have hrun := numberRun_spanNumber h
  cases hread : readLiteral? (c :: (spanNumber c rest).1) with
  | none =>
    have hrefused : RefusedAt position c ((spanNumber c rest).1 ++ (spanNumber c rest).2) _ :=
      .badNumber hrun hend hread
    rw [← hsplit] at hrefused
    exact .refused hrefused
  | some x => exact .token ⟨_, congrArg (c :: ·) hsplit, .number hrun hread, hend⟩

/-- One step finds a token with its lexeme, or tells why there is none. -/
theorem scanToken_finds (position : Nat) {c : Char} (rest : List Char)
    (hblank : isBlank c = false) : Finds position c rest (scanToken position c rest) := by
  unfold scanToken
  cases hmark : mark? c with
  | some t =>
    have hmark' := mark?_eq_some_iff.1 hmark
    refine .token ⟨[c], rfl, .mark hmark', ?_⟩
    cases hmark' <;> trivial
  | none =>
    dsimp only
    split
    · next hquote => exact finds_quoted position (by simpa [IsQuote] using hquote) rest
    next hquote =>
    split
    · next hselector =>
      rw [Bool.and_eq_true, decide_eq_true_eq] at hselector
      obtain ⟨rfl, hname⟩ := hselector
      have hsplit := List.takeWhile_append_dropWhile (p := continuesName) (l := rest)
      exact .token ⟨_, congrArg ('.' :: ·) hsplit.symm, .selector (isIdentifier_takeWhile hname),
        dropWhile_ends rest⟩
    next hselector =>
    split
    · next hnumber => exact finds_number position hnumber
    next hnumber =>
    split
    · next hname =>
      have hsplit := List.takeWhile_append_dropWhile (p := continuesName) (l := rest)
      have hall := List.all_eq_true.1 (List.all_takeWhile (p := continuesName) (l := rest))
      exact .token ⟨_, congrArg (c :: ·) hsplit.symm, .word (.intro hname hall),
        dropWhile_ends rest⟩
    next hname =>
    cases hoperator : operatorAt? c rest with
    | none =>
      refine .refused (.badCharacter hblank fun t lexeme after hlexeme => ?_)
      exact not_hasLexeme hmark (by simpa [IsQuote] using hquote) hselector hnumber hname hoperator
        after hlexeme
    | some found =>
      obtain ⟨hfront, hend⟩ := operatorAt?_split hoperator
      exact .token ⟨_, hfront, .operator found.1, hend⟩

/-- A step finds a token exactly when a lexeme of it stands there. -/
theorem scanToken_eq_ok_iff {position : Nat} {c : Char} {rest after : List Char} {t : Token}
    (hblank : isBlank c = false) :
    scanToken position c rest = .ok (t, after) ↔ t.Heads (c :: rest) after := by
  constructor
  · intro h
    have hfinds := scanToken_finds position rest hblank
    rw [h] at hfinds
    cases hfinds with
    | token hheads => exact hheads
  · intro h
    exact h.scanToken position

theorem covers_nil (rest : List Char) : Covers rest [] rest := .done allBlank_nil rest

theorem Token.Heads.covers {t : Token} {cs after rest : List Char} {ts : List Token}
    (ht : t.Heads cs after) (hafter : Covers after ts rest) : Covers cs (t :: ts) rest :=
  .token allBlank_nil ht hafter

theorem Covers.gap {gap cs rest : List Char} {ts : List Token} (hgap : AllBlank gap)
    (h : Covers cs ts rest) : Covers (gap ++ cs) ts rest := by
  cases h with
  | done hmore rest =>
    rw [← List.append_assoc]
    exact .done (hgap.append hmore) rest
  | token hmore ht hafter =>
    rw [← List.append_assoc]
    exact .token (hgap.append hmore) ht hafter

/-- What is behind a front is the end of the text. -/
theorem Covers.isSuffix {cs rest : List Char} {ts : List Token} (h : Covers cs ts rest) :
    rest <:+ cs := by
  induction h with
  | done hgap rest => exact List.suffix_append _ rest
  | token hgap ht hafter ih =>
    obtain ⟨lexeme, rfl, -, -⟩ := ht
    exact ih.trans ((List.suffix_append lexeme _).trans (List.suffix_append _ _))

/-- How a scan ends: with tokens that cover its text, or where no token is found. -/
inductive Ends (total : Nat) (cs : List Char) : Except SyntaxError (List Token) → Prop where
  | covered {ts : List Token} (h : Covers cs ts []) : Ends total cs (.ok ts)
  | refused {ts : List Token} {c : Char} {rest : List Char} {e : SyntaxError}
      (hfront : Covers cs ts (c :: rest)) (h : RefusedAt (total - (rest.length + 1)) c rest e) :
      Ends total cs (.error e)

theorem Ends.blank {total : Nat} {c : Char} {cs : List Char}
    {result : Except SyntaxError (List Token)} (hc : isBlank c = true)
    (h : Ends total cs result) : Ends total (c :: cs) result := by
  have hgap : AllBlank [c] := List.forall_mem_singleton.2 hc
  cases h with
  | covered h => exact .covered (h.gap hgap)
  | refused hfront h => exact .refused (hfront.gap hgap) h

theorem Ends.token {total : Nat} {t : Token} {cs after : List Char}
    {result : Except SyntaxError (List Token)} (ht : t.Heads cs after)
    (h : Ends total after result) : Ends total cs (result.map (t :: ·)) := by
  cases h with
  | covered h => exact .covered (ht.covers h)
  | refused hfront h => exact .refused (ht.covers hfront) h

theorem scanFrom_ends (total : Nat) (cs : List Char) : Ends total cs (scanFrom total cs) := by
  induction cs using scanFrom.induct total with
  | case1 =>
    rw [lexes_nil total]
    exact .covered (covers_nil [])
  | case2 c rest hblank ih =>
    rw [scanFrom_blank hblank]
    exact ih.blank hblank
  | case3 c rest hblank e he =>
    have hc : isBlank c = false := Bool.eq_false_iff.2 hblank
    have hfinds := scanToken_finds (total - (rest.length + 1)) rest hc
    rw [List.length_cons] at he
    rw [he] at hfinds
    rw [scanFrom_step hc, he]
    cases hfinds with
    | refused h => exact .refused (covers_nil _) h
  | case4 c rest hblank t after ht hlt ih =>
    have hc : isBlank c = false := Bool.eq_false_iff.2 hblank
    have hfinds := scanToken_finds (total - (rest.length + 1)) rest hc
    rw [List.length_cons] at ht
    rw [ht] at hfinds
    rw [scanFrom_step hc, ht]
    cases hfinds with
    | token h => exact ih.token h

theorem scan_eq_ok_iff {s : String} {ts : List Token} :
    scan s = .ok ts ↔ Covers s.toList ts [] := by
  constructor
  · intro h
    have hends := scanFrom_ends s.toList.length s.toList
    rw [show scanFrom s.toList.length s.toList = .ok ts from h] at hends
    cases hends with
    | covered hcovers => exact hcovers
  · intro h
    have hlexes := h.lexes lexes_nil
    rw [List.append_nil] at hlexes
    exact hlexes.scan

theorem refused_of_scan {s : String} {e : SyntaxError} (h : scan s = .error e) :
    Refused s.toList e := by
  have hends := scanFrom_ends s.toList.length s.toList
  rw [show scanFrom s.toList.length s.toList = .error e from h] at hends
  cases hends with
  | refused hfront hrefused =>
    have hdrop := (List.suffix_iff_eq_drop.1 hfront.isSuffix).symm
    exact ⟨_, _, _, _, hdrop, hfront, hrefused⟩

/-! ## Tokens in source form -/

/-- The token in source form, with quotes for a string. -/
def Token.source (quote : Char) : Token → List Char
  | selector name => '.' :: name.toList
  | text s => quote :: (s.toList ++ [quote])
  | number x => (NumberStyle.plain.spell x).toList
  | word w => w.toList
  | operator o => o.text.toList
  | openParen => ['(']
  | closeParen => [')']
  | openBracket => ['[']
  | closeBracket => [']']
  | comma => [',']

/-- The token has that source form: its name is one, its string does not contain the quote, and its
number is finite. -/
def Token.HasSource (quote : Char) : Token → Prop
  | selector name | word name => IsIdentifier name.toList
  | text s => IsQuote quote ∧ quote ∉ s.toList
  | number x => FloatingPoint.isFinite x = true
  | _ => True

/-- Tokens in source form with blanks between them. -/
inductive Joined : List Token → List Char → Prop where
  | nil : Joined [] []
  | last {t : Token} {quote : Char} (ht : t.HasSource quote) : Joined [t] (t.source quote)
  | cons {t next : Token} {ts : List Token} {quote : Char} {gap rest : List Char}
      (ht : t.HasSource quote) (hne : gap ≠ []) (hgap : AllBlank gap)
      (hrest : Joined (next :: ts) rest) :
      Joined (t :: next :: ts) (t.source quote ++ (gap ++ rest))

theorem hasLexeme_source {t : Token} {quote : Char} (h : t.HasSource quote) :
    t.HasLexeme (t.source quote) := by
  cases t with
  | selector name =>
    have hlexeme := Token.HasLexeme.selector h
    rwa [String.ofList_toList] at hlexeme
  | text s =>
    have hlexeme := Token.HasLexeme.text h.1 h.2
    rwa [String.ofList_toList] at hlexeme
  | number x =>
    have hplain := NumberStyle.isPlain_plain x
    have hread := hplain.readLiteral? NumberStyle.plain.plus
    rw [NumberStyle.toFloat_plain h] at hread
    obtain ⟨c, cs, htext, hrun⟩ := numberRun_toText hplain NumberStyle.plain.plus
    rw [Token.source, NumberStyle.spell_finite _ h]
    rw [htext] at hread ⊢
    exact .number hrun hread
  | word w =>
    have hlexeme := Token.HasLexeme.word h
    rwa [String.ofList_toList] at hlexeme
  | operator o => exact .operator o
  | openParen => exact .mark .openParen
  | closeParen => exact .mark .closeParen
  | openBracket => exact .mark .openBracket
  | closeBracket => exact .mark .closeBracket
  | comma => exact .mark .comma

/-- Neither a name nor a number nor an operator goes on with a blank. -/
theorem endsBefore_of_blank (t : Token) (lexeme : List Char) {rest : List Char}
    (h : ∀ c ∈ rest.head?, isBlank c = true) : t.EndsBefore lexeme rest := by
  have hends := endsToken_of_blank h
  cases t with
  | selector name | word name => exact hends.endsName
  | number x => exact hends.endsNumber lexeme
  | operator o =>
    intro _ hequals
    cases h '=' hequals
  | text | openParen | closeParen | openBracket | closeBracket | comma => trivial

theorem Joined.covers {ts : List Token} {cs : List Char} (h : Joined ts cs) : Covers cs ts [] := by
  induction h with
  | nil => exact covers_nil []
  | @last t quote ht =>
    have hends : t.EndsBefore (t.source quote) [] :=
      endsBefore_of_blank t _ fun c hc => absurd hc (Option.not_mem_none c)
    have hheads : t.Heads (t.source quote) [] :=
      ⟨_, (List.append_nil _).symm, hasLexeme_source ht, hends⟩
    exact hheads.covers (covers_nil [])
  | @cons t next ts quote gap rest ht hne hgap hrest ih =>
    have hblank : ∀ c ∈ (gap ++ rest).head?, isBlank c = true := by
      obtain ⟨c, gap, rfl⟩ := List.exists_cons_of_ne_nil hne
      intro d hd
      obtain rfl := Option.some.inj hd
      exact hgap c List.mem_cons_self
    have hends := endsBefore_of_blank t (t.source quote) hblank
    have hheads : t.Heads (t.source quote ++ (gap ++ rest)) (gap ++ rest) :=
      ⟨_, rfl, hasLexeme_source ht, hends⟩
    exact hheads.covers (ih.gap hgap)

theorem exists_joined {ts : List Token} (h : ∀ t ∈ ts, ∃ quote, t.HasSource quote) :
    ∃ cs, Joined ts cs := by
  induction ts with
  | nil => exact ⟨[], .nil⟩
  | cons t ts ih =>
    obtain ⟨⟨quote, ht⟩, hts⟩ := List.forall_mem_cons.1 h
    obtain ⟨rest, hrest⟩ := ih hts
    cases ts with
    | nil => exact ⟨_, .last ht⟩
    | cons next ts =>
      exact ⟨_, .cons ht (List.cons_ne_nil ' ' []) (List.forall_mem_singleton.2 rfl) hrest⟩

/-- Scanning loses nothing and undoes writing.  A text is scanned into tokens exactly when it is, in
order, runs of blanks around their lexemes, in which the content of a string is kept as it is; any
other text is refused at one of its characters.  Tokens that have a source form can be joined by
blanks, and however that is done, they are what the text is scanned into. -/
theorem scanning_loses_nothing :
    (∀ (s : String) (ts : List Token), scan s = .ok ts ↔ Covers s.toList ts []) ∧
    (∀ (s : String) (e : SyntaxError), scan s = .error e → Refused s.toList e) ∧
    (∀ ts : List Token, (∀ t ∈ ts, ∃ quote, t.HasSource quote) → ∃ cs, Joined ts cs) ∧
    (∀ (ts : List Token) (cs : List Char), Joined ts cs → scan (String.ofList cs) = .ok ts) := by
  refine ⟨fun s ts => scan_eq_ok_iff, fun s e => refused_of_scan, fun ts => exists_joined, ?_⟩
  intro ts cs hjoined
  rw [scan_eq_ok_iff, String.toList_ofList]
  exact hjoined.covers

/-- A string with one kind of quote in it is written in the other kind. -/
theorem joined_comparison_is_scanned :
    scan ".name  == 'a\"b'" = .ok [.selector "name", .operator .equal, .text "a\"b"] := by
  have hname : IsIdentifier ['n', 'a', 'm', 'e'] := .intro rfl (List.all_eq_true.1 rfl)
  have hselector : (Token.selector "name").HasSource '"' := hname
  have hoperator : (Token.operator .equal).HasSource '"' := trivial
  have htext : (Token.text "a\"b").HasSource '\x27' := ⟨.inr rfl, by decide⟩
  have hjoined : Joined [.selector "name", .operator .equal, .text "a\"b"]
      ".name  == 'a\"b'".toList :=
    .cons hselector (List.cons_ne_nil ' ' [' ']) (by decide)
      (.cons hoperator (List.cons_ne_nil ' ' []) (by decide) (.last htext))
  have hscan := scanning_loses_nothing.2.2.2 _ _ hjoined
  rwa [String.ofList_toList] at hscan

end SimilarityStore.Predicate
