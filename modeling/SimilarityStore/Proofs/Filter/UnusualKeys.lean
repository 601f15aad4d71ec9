import SimilarityStore.Proofs.Filter.Compilation
import SimilarityStore.Proofs.Predicate.ScanPrefix

/-
  Keys that are no names.  A filter's text holds its keys as they are, so a key can go on with the
  language of filter texts.  A key that is inert cannot: behind its leading name, if it has one,
  stands nothing that an operand goes on with, and without one it starts no token.  A text with an
  inert key that is no name is refused (`Expr.isWritable_of_read`): either it is not scanned, or a
  token stands behind the key's attribute that no phrase takes.
-/

namespace SimilarityStore.Filter

open SimilarityStore.Numeric SimilarityStore.Predicate SimilarityStore.Text
open Predicate.Grammar

/-! ## Inert keys -/

/-- Whether a filter text can go on behind an attribute with a character. -/
def goesOn (d : Char) : Bool :=
  isBlank d || d = ')' || d = '=' || d = '!' || d = '<' || d = '>' || d = '&' || d = '|'

/-- Whether a key cannot be taken for more than an attribute: it does not start with a digit, and if
it starts with a name, a filter text cannot go on with what stands directly behind that name. -/
def isInert (key : String) : Bool :=
  match key.toList with
  | [] => true
  | c :: cs => !c.isDigit && !(startsName c && (cs.dropWhile continuesName).head?.any goesOn)

/-! ## Stray tokens -/

/-- A token stands at the front that nothing goes on with, and that does not close a phrase. -/
def Stuck (ts : List Token) : Prop :=
  EndsDisjunction ts ∧ ∃ t rest, ts = t :: rest ∧ t ≠ .closeParen

/-- If anything is read, what is left is stuck. -/
def LeavesStuck (r : Option (Term × List Token)) : Prop := ∀ p ∈ r, Stuck p.2

theorem LeavesStuck.bind_andMore {r : Option (Term × List Token)} (h : LeavesStuck r)
    (g : Term → Term) : LeavesStuck (r.bind fun p => andMore (g p.1) p.2) := by
  intro p hp
  obtain ⟨q, hq, hmore⟩ := Option.bind_eq_some_iff.1 hp
  rw [andMore_of_ends (h q hq).1.1] at hmore
  obtain rfl := Option.some.inj hmore
  exact h q hq

theorem LeavesStuck.bind_orMore {r : Option (Term × List Token)} (h : LeavesStuck r)
    (g : Term → Term) : LeavesStuck (r.bind fun p => orMore (g p.1) p.2) := by
  intro p hp
  obtain ⟨q, hq, hmore⟩ := Option.bind_eq_some_iff.1 hp
  rw [orMore_of_ends (h q hq).1] at hmore
  obtain rfl := Option.some.inj hmore
  exact h q hq

theorem leavesStuck_andPhrase {ts : List Token} (h : LeavesStuck (unaryPhrase ts)) :
    LeavesStuck (andPhrase ts) := by
  rw [andPhrase_eq]
  exact h.bind_andMore id

theorem leavesStuck_orPhrase {ts : List Token} (h : LeavesStuck (andPhrase ts)) :
    LeavesStuck (orPhrase ts) := by
  rw [orPhrase_eq]
  exact h.bind_orMore id

/-- Behind an opening parenthesis nothing can be read: the closing one would have to be found. -/
theorem leavesStuck_parens {ts : List Token} (h : LeavesStuck (orPhrase ts)) :
    LeavesStuck (unaryPhrase (.openParen :: ts)) := by
  have hprimary : primaryPhrase (.openParen :: ts) = none := by
    rw [primaryPhrase_openParen]
    cases hor : orPhrase ts with
    | none => rfl
    | some p =>
      obtain ⟨-, t, rest, hleft, ht⟩ := h p hor
      rw [Option.bind_some, hleft]
      cases t with
      | closeParen => exact absurd rfl ht
      | _ => rfl
  have hunary : unaryPhrase (.openParen :: ts) = none := by
    rw [unaryPhrase_cons, if_neg (by simp [Token.negates]), comparisonPhrase_eq, hprimary]
    rfl
  rw [hunary]
  intro p hp
  cases hp

/-- The right-hand side of a conjunction is stuck, whatever its left-hand side is. -/
theorem leavesStuck_and {ls rs : List Token} {l : Term} (hl : Unary ls l)
    (hr : LeavesStuck (unaryPhrase rs)) :
    LeavesStuck (unaryPhrase (.openParen :: (ls ++ .word "and" :: rs))) := by
  have hchain : andPhrase (ls ++ .word "and" :: rs) =
      (unaryPhrase rs).bind fun p => andMore (.and l p.1) p.2 := by
    rw [(Conjunction.single hl).read rfl, andMore_cons, if_pos (by simp [Token.joinsAnd])]
  refine leavesStuck_parens (leavesStuck_orPhrase ?_)
  rw [hchain]
  exact hr.bind_andMore (.and l)

theorem leavesStuck_or {ls rs : List Token} {l : Term} (hl : Unary ls l)
    (hr : LeavesStuck (unaryPhrase rs)) :
    LeavesStuck (unaryPhrase (.openParen :: (ls ++ .word "or" :: rs))) := by
  have hor : IsOr (.word "or") := .inl rfl
  have hchain : orPhrase (ls ++ .word "or" :: rs) =
      (andPhrase rs).bind fun p => orMore (.or l p.1) p.2 := by
    rw [(Disjunction.single (.single hl)).read (endsConjunction_of_isOr hor rs), orMore_cons,
      if_pos (joinsOr_iff.2 hor)]
  refine leavesStuck_parens ?_
  rw [hchain]
  exact (leavesStuck_andPhrase hr).bind_orMore (.or l)

theorem leavesStuck_not {ts : List Token} (h : LeavesStuck (unaryPhrase ts)) :
    LeavesStuck (unaryPhrase (.word "not" :: ts)) := by
  rw [unaryPhrase_cons, if_pos (by simp [Token.negates])]
  intro p hp
  obtain ⟨q, hq, rfl⟩ := Option.map_eq_some_iff.1 hp
  exact h q hq

/-! ## Texts of leaves -/

/-- A point is refused when neither a name nor a digit stands behind it. -/
theorem scanToken_point {d : Char} (rest : List Char) (hname : startsName d = false)
    (hdigit : d.isDigit = false) (position : Nat) :
    ∃ e, scanToken position '.' (d :: rest) = .error e := by
  have hmark : mark? '.' = none := rfl
  have hselector : ((d :: rest).head?.any startsName) = false := by simpa using hname
  by_cases hd : d = '.'
  · subst hd
    have hspan : spanNumber '.' ('.' :: rest) =
        ('.' :: (spanNumber '.' rest).1, (spanNumber '.' rest).2) := rfl
    refine ⟨.badNumber (String.ofList ('.' :: '.' :: (spanNumber '.' rest).1)), ?_⟩
    simp [scanToken, hmark, hname, startsNumber, hspan, readLiteral?_points]
  · have hop : operatorAt? '.' (d :: rest) = none := by
      unfold operatorAt?
      split <;> simp_all
    have hpoint : startsName '.' = false := rfl
    refine ⟨.badCharacter '.' position, ?_⟩
    simp [scanToken, hmark, hname, startsNumber, hdigit, hd, hop, hpoint]

theorem isBlank_of_goesOn {d : Char} (h : goesOn d = false) : isBlank d = false := by
  simp only [goesOn, Bool.or_eq_false_iff] at h
  exact h.1.1.1.1.1.1.1

/-- What starts with no name and with nothing that goes on behind an operand is neither a word nor
an operator nor a closing parenthesis. -/
theorem kind_of_scanToken {position : Nat} {d : Char} {rest after : List Char} {t : Token}
    (hname : startsName d = false) (hgoes : goesOn d = false)
    (h : scanToken position d rest = .ok (t, after)) :
    (∀ w, t ≠ .word w) ∧ (∀ o, t ≠ .operator o) ∧ t ≠ .closeParen := by
  obtain ⟨lexeme, hfront, hlexeme, -⟩ := (scanToken_eq_ok_iff (isBlank_of_goesOn hgoes)).1 h
  cases hlexeme with
  | selector | text | number => simp
  | word hidentifier =>
    obtain ⟨hc, -⟩ := hidentifier
    obtain ⟨rfl, -⟩ := List.cons.inj hfront
    cases hname.symm.trans hc
  | operator o =>
    cases o <;> obtain ⟨rfl, -⟩ := List.cons.inj hfront <;> cases hgoes
  | mark hmark =>
    obtain ⟨rfl, -⟩ := List.cons.inj hfront
    cases hmark with
    | closeParen => cases hgoes
    | openParen | openBracket | closeBracket | comma => simp

/-- Such a token is stray behind an operand. -/
theorem stuck_of_scanToken {position : Nat} {d : Char} {rest after : List Char} {t : Token}
    (hname : startsName d = false) (hgoes : goesOn d = false)
    (h : scanToken position d rest = .ok (t, after)) (ts : List Token) : Stuck (t :: ts) := by
  obtain ⟨hword, hoperator, hclose⟩ := kind_of_scanToken hname hgoes h
  have hsuffix : suffix? (t :: ts) = none := by
    cases t with
    | word w => exact absurd rfl (hword w)
    | operator o => exact absurd rfl (hoperator o)
    | _ => rfl
  refine ⟨⟨⟨hsuffix, ?_⟩, ?_⟩, t, ts, rfl, hclose⟩
  · simp [IsAnd, hword, hoperator]
  · simp [IsOr, hword, hoperator]

/-- An attribute with something stuck behind it is read alone. -/
theorem leavesStuck_selector (name : String) {ts : List Token} (h : Stuck ts) :
    LeavesStuck (unaryPhrase (.selector name :: ts)) := by
  have hread : unaryPhrase ([.selector name] ++ ts) = some (.selector name, ts) :=
    (Unary.plain (.operand (.selector name))).read h.1.1.1
  intro p hp
  rw [← List.singleton_append, hread] at hp
  obtain rfl := Option.some.inj hp
  exact h

/-- What is scanned from an inert key that is no name, behind its point, is stuck behind one
operand. -/
theorem leavesStuck_key {key : String} (hinert : isInert key = true) (hkey : ¬ IsName key) {f : Char}
    (hf : startsName f = false ∧ f.isDigit = false) {more : List Char} {total : Nat}
    {all : List Token} (h : scanFrom total ('.' :: (key.toList ++ f :: more)) = .ok all) :
    LeavesStuck (unaryPhrase all) := by
  obtain ⟨t, after, ts, htoken, hafter, rfl⟩ := scanFrom_token rfl h
  rw [isInert] at hinert
  cases hchars : key.toList with
  | nil =>
    rw [hchars] at htoken
    obtain ⟨e, he⟩ := scanToken_point more hf.1 hf.2 _
    rw [List.nil_append, he] at htoken
    cases htoken
  | cons c cs =>
    rw [hchars] at htoken hinert
    simp only [Bool.and_eq_true, Bool.not_eq_true'] at hinert
    obtain ⟨hdigit, hgoes⟩ := hinert
    rw [List.cons_append] at htoken
    cases hc : startsName c with
    | false =>
      obtain ⟨e, he⟩ := scanToken_point (cs ++ f :: more) hc hdigit _
      rw [he] at htoken
      cases htoken
    | true =>
      rw [hc, Bool.true_and] at hgoes
      cases hleft : cs.dropWhile continuesName with
      | nil =>
        -- Nothing is left behind the leading name, so the whole key is one.
        have hall : ∀ d ∈ cs, continuesName d = true := by
          have hsame : cs.takeWhile continuesName = cs := by
            have hsplit := List.takeWhile_append_dropWhile (p := continuesName) (l := cs)
            rwa [hleft, List.append_nil] at hsplit
          rw [← hsame]
          exact List.all_eq_true.1 List.all_takeWhile
        exact absurd (isName_iff.2 ⟨c, cs, hchars, hc, hall⟩) hkey
      | cons d left =>
        have hd : continuesName d = false := by
          have hhead := List.head?_dropWhile_not continuesName cs
          rw [hleft] at hhead
          simpa using hhead
        have hdname : startsName d = false := by
          cases hs : startsName d with
          | false => rfl
          | true => rw [continuesName_of_startsName hs] at hd; cases hd
        rw [hleft] at hgoes
        have hdgoes : goesOn d = false := by simpa using hgoes
        have hdrop : (c :: (cs ++ f :: more)).dropWhile continuesName =
            d :: (left ++ f :: more) := by
          rw [List.dropWhile_cons_of_pos (continuesName_of_startsName hc), List.dropWhile_append,
            hleft]
          rfl
        rw [scanToken_selector hc, hdrop] at htoken
        cases htoken
        obtain ⟨u, last, us, hu, -, rfl⟩ := scanFrom_token (isBlank_of_goesOn hdgoes) hafter
        exact leavesStuck_selector _ (stuck_of_scanToken hdname hdgoes hu us)

/-! ## Texts of trees -/

theorem scanFrom_openParen {total : Nat} {rest : List Char} {all : List Token}
    (h : scanFrom total ('(' :: rest) = .ok all) :
    ∃ us, all = .openParen :: us ∧ scanFrom total rest = .ok us := by
  obtain ⟨t, after, us, htoken, hus, rfl⟩ := scanFrom_token rfl h
  cases htoken
  exact ⟨us, rfl, hus⟩

/-- In front of a word between blanks, a text is scanned as it is alone. -/
theorem scanFrom_between {l w : String} {ls : List Token} (hl : Spells l.toList ls) (hw : IsName w)
    {total : Nat} {rest : List Char} {all : List Token}
    (h : scanFrom total (l.toList ++ ' ' :: (w.toList ++ ' ' :: rest)) = .ok all) :
    ∃ us, all = ls ++ .word w :: us ∧ scanFrom total rest = .ok us := by
  have hword := lexes_between hw lexes_nil
  have halone := hl _ _ (endsToken_cons _ (.inl rfl)) hword
  have hsame : l.toList ++ ' ' :: (w.toList ++ [' ']) = (l.toList ++ ' ' :: w.toList) ++ [' '] := by
    simp
  rw [hsame] at halone
  have hsplit : l.toList ++ ' ' :: (w.toList ++ ' ' :: rest) =
      (l.toList ++ ' ' :: w.toList) ++ ' ' :: rest := by simp
  rw [hsplit] at h
  obtain ⟨us, rfl, hus⟩ := scanFrom_before_blank halone h
  exact ⟨us, by simp, hus⟩

/-- What stands behind the key of a leaf's text goes on with neither a name nor a number. -/
theorem frame_starts {r : Relation} {before after : String} (h : r.frame? = some (before, after)) :
    ∃ f more, before.toList = f :: more ∧ startsName f = false ∧ f.isDigit = false := by
  cases r with
  | containing => cases h
  | _ => cases h; exact ⟨_, _, rfl, rfl, rfl⟩

/-- A filter that compiles, with inert keys of which one is no name, has a text of which at most a
first operand can be read. -/
theorem Expr.leavesStuck {e : Expr} {text : String} (h : e.compile = .ok text)
    (hinert : ∀ key ∈ e.keys, isInert key = true)
    (hquoted : ∀ operand ∈ e.operands, operand.IsUnquoted) (hw : ¬ e.IsWritable)
    {rest : List Char} {total : Nat} {all : List Token}
    (hscan : scanFrom total (text.toList ++ rest) = .ok all) : LeavesStuck (unaryPhrase all) := by
  induction e generalizing text rest all with
  | leaf r key operand =>
    obtain ⟨before, after, value, hframe, -, rfl⟩ := compile_leaf h
    obtain ⟨f, more, hbefore, hf⟩ := frame_starts hframe
    have hkey : ¬ IsName key := fun hname => hw ⟨hname, hquoted operand (List.mem_singleton_self _)⟩
    have htext : ("." ++ key ++ before ++ value ++ after).toList ++ rest =
        '.' :: (key.toList ++ f :: (more ++ (value.toList ++ (after.toList ++ rest)))) := by
      simp [String.toList_append, hbefore]
    rw [htext] at hscan
    exact leavesStuck_key (hinert key (List.mem_singleton_self _)) hkey hf hscan
  | and left right ihl ihr =>
    obtain ⟨l, hl, h⟩ := ok_of_bind h
    obtain ⟨r, hr, h⟩ := ok_of_bind h
    cases h
    simp only [keys, operands, List.forall_mem_append] at hinert hquoted
    have htext : ("(" ++ l ++ " and " ++ r ++ ")").toList ++ rest =
        '(' :: (l.toList ++ ' ' :: ("and".toList ++ ' ' :: (r.toList ++ ')' :: rest))) := by
      simp [String.toList_append]
    rw [htext] at hscan
    obtain ⟨us, rfl, hus⟩ := scanFrom_openParen hscan
    by_cases hleft : left.IsWritable
    · obtain ⟨t, ts, -, hwritten⟩ := left.written hl hleft
      obtain ⟨vs, rfl, hvs⟩ := scanFrom_between hwritten.spells isName_and hus
      have hright : ¬ right.IsWritable := fun hright => hw ⟨hleft, hright⟩
      exact leavesStuck_and hwritten.unary (ihr hr hinert.2 hquoted.2 hright hvs)
    · have hstuck := ihl hl hinert.1 hquoted.1 hleft hus
      exact leavesStuck_parens (leavesStuck_orPhrase (leavesStuck_andPhrase hstuck))
  | or left right ihl ihr =>
    obtain ⟨l, hl, h⟩ := ok_of_bind h
    obtain ⟨r, hr, h⟩ := ok_of_bind h
    cases h
    simp only [keys, operands, List.forall_mem_append] at hinert hquoted
    have htext : ("(" ++ l ++ " or " ++ r ++ ")").toList ++ rest =
        '(' :: (l.toList ++ ' ' :: ("or".toList ++ ' ' :: (r.toList ++ ')' :: rest))) := by
      simp [String.toList_append]
    rw [htext] at hscan
    obtain ⟨us, rfl, hus⟩ := scanFrom_openParen hscan
    by_cases hleft : left.IsWritable
    · obtain ⟨t, ts, -, hwritten⟩ := left.written hl hleft
      obtain ⟨vs, rfl, hvs⟩ := scanFrom_between hwritten.spells isName_or hus
      have hright : ¬ right.IsWritable := fun hright => hw ⟨hleft, hright⟩
      exact leavesStuck_or hwritten.unary (ihr hr hinert.2 hquoted.2 hright hvs)
    · have hstuck := ihl hl hinert.1 hquoted.1 hleft hus
      exact leavesStuck_parens (leavesStuck_orPhrase (leavesStuck_andPhrase hstuck))
  | not inner ih =>
    obtain ⟨i, hi, h⟩ := ok_of_bind h
    cases h
    have htext : ("(not " ++ i ++ ")").toList ++ rest =
        '(' :: ("not".toList ++ ' ' :: (i.toList ++ ')' :: rest)) := by
      simp [String.toList_append]
    rw [htext] at hscan
    obtain ⟨us, rfl, hus⟩ := scanFrom_openParen hscan
    have hnot : Lexes ("not".toList ++ [' ']) [.word "not"] :=
      spells_name isName_not _ _ (endsToken_cons [] (.inl rfl)) (lexes_blank rfl lexes_nil)
    obtain ⟨vs, rfl, hvs⟩ := scanFrom_before_blank hnot hus
    have hstuck := leavesStuck_not (ih hi hinert hquoted hw hvs)
    exact leavesStuck_parens (leavesStuck_orPhrase (leavesStuck_andPhrase hstuck))

/-- A filter that compiles, with inert keys and no double quote in its texts, has names as keys if
its text is read. -/
theorem Expr.isWritable_of_read {e : Expr} {text : String} {t : Term} (h : e.compile = .ok text)
    (hinert : ∀ key ∈ e.keys, isInert key = true)
    (hquoted : ∀ operand ∈ e.operands, operand.IsUnquoted) (hread : Term.read text = .ok t) :
    e.IsWritable := by
  refine Classical.byContradiction fun hw => ?_
  obtain ⟨all, hscan, hparse⟩ := ok_of_bind hread
  have hend : text.toList ++ [] = text.toList := List.append_nil _
  rw [scan, ← hend] at hscan
  have hunary := e.leavesStuck h hinert hquoted hw hscan
  have hstuck := leavesStuck_orPhrase (leavesStuck_andPhrase hunary)
  obtain ⟨-, u, rest, hnil, -⟩ := hstuck _ ((parse_eq_ok_iff_orPhrase all t).1 hparse)
  cases hnil

end SimilarityStore.Filter
