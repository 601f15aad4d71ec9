import SimilarityStore.Predicate.Parse

/-
  The readers of phrases without their proofs of progress: what they read from the front of a token
  list and what they leave, if they do not fail.  One equation for each kind of phrase says how it
  is read in terms of the others (`orPhrase_eq`, `orMore_cons`, …, `itemsPhrase_eq`); the proofs
  about the parser use these and do not open a reader.
-/

namespace SimilarityStore.Predicate

open SimilarityStore.Text

/-- What a reader read and what it left, if it did not fail. -/
def found {α : Type} {ts : List Token} :
    Except SyntaxError (Progress ts α) → Option (α × List Token)
  | .ok p => some (p.value, p.rest)
  | .error _ => none

@[simp] theorem found_ok {α : Type} {ts : List Token} (p : Progress ts α) :
    found (.ok p) = some (p.value, p.rest) := rfl

@[simp] theorem found_error {α : Type} {ts : List Token} (e : SyntaxError) :
    found (.error e : Except SyntaxError (Progress ts α)) = none := rfl

theorem found_shorter {α : Type} {ts rest : List Token} {a : α}
    {r : Except SyntaxError (Progress ts α)} (h : found r = some (a, rest)) :
    rest.length < ts.length := by
  cases r with
  | error e => cases h
  | ok p =>
    cases h
    exact p.shorter

/-! ## Phrases -/

/-- A chain of alternatives at the front. -/
def orPhrase (ts : List Token) : Option (Term × List Token) := found (readOr ts)

theorem length_lt_cons (t : Token) (ts : List Token) : ts.length < (t :: ts).length :=
  Nat.lt_succ_self ts.length

/-- The rest of a chain of alternatives, behind a term already read.  The token in front of the
rest only stands for what was read. -/
def orMore (left : Term) (ts : List Token) : Option (Term × List Token) :=
  found (readOrMore (⟨left, ts, length_lt_cons .comma ts⟩ : Progress (.comma :: ts) Term))

/-- A chain of conditions at the front. -/
def andPhrase (ts : List Token) : Option (Term × List Token) := found (readAnd ts)

/-- The rest of a chain of conditions, behind a term already read. -/
def andMore (left : Term) (ts : List Token) : Option (Term × List Token) :=
  found (readAndMore (⟨left, ts, length_lt_cons .comma ts⟩ : Progress (.comma :: ts) Term))

/-- A negation or a comparison at the front. -/
def unaryPhrase (ts : List Token) : Option (Term × List Token) := found (readUnary ts)

/-- A comparison at the front. -/
def comparisonPhrase (ts : List Token) : Option (Term × List Token) := found (readComparison ts)

/-- An operand at the front. -/
def primaryPhrase (ts : List Token) : Option (Term × List Token) := found (readPrimary ts)

/-- The items of a list at the front, with the bracket behind them. -/
def itemsPhrase (ts : List Token) : Option (List Term × List Token) := found (readItems ts)

/-! ## Chains -/

/-- What a chain goes on with depends on what was read and what is left only. -/
theorem found_readOrMore {us : List Token} (p : Progress us Term) :
    found (readOrMore p) = orMore p.value p.rest := by
  obtain ⟨left, ts, short⟩ := p
  induction h : ts.length using Nat.strongRecOn generalizing left ts us with
  | _ n ih =>
    unfold orMore
    cases ts with
    | nil => rw [readOrMore, readOrMore]; rfl
    | cons t rest =>
      rw [readOrMore, readOrMore]
      dsimp only
      split
      · cases readAnd rest with
        | error e => rfl
        | ok q =>
          have hl : q.rest.length < n := by
            have := q.shorter
            simp only [List.length_cons] at h
            omega
          have same {vs : List Token} (hv : q.rest.length < vs.length) :=
            ih _ hl (.or left q.value) q.rest hv rfl
          show found (readOrMore _) = found (readOrMore _)
          rw [same, same]
      · rfl

theorem orMore_nil (left : Term) : orMore left [] = some (left, []) := by
  rw [orMore, readOrMore]
  rfl

theorem orMore_cons (left : Term) (t : Token) (rest : List Token) :
    orMore left (t :: rest) =
      if t.joinsOr then (andPhrase rest).bind fun p => orMore (.or left p.1) p.2
      else some (left, t :: rest) := by
  rw [orMore, readOrMore]
  dsimp only
  split
  · rw [andPhrase]
    cases readAnd rest with
    | error e => rfl
    | ok q => exact found_readOrMore _
  · rfl

theorem orPhrase_eq (ts : List Token) :
    orPhrase ts = (andPhrase ts).bind fun p => orMore p.1 p.2 := by
  rw [orPhrase, readOr, andPhrase]
  cases readAnd ts with
  | error e => rfl
  | ok p => exact found_readOrMore p

theorem found_readAndMore {us : List Token} (p : Progress us Term) :
    found (readAndMore p) = andMore p.value p.rest := by
  obtain ⟨left, ts, short⟩ := p
  induction h : ts.length using Nat.strongRecOn generalizing left ts us with
  | _ n ih =>
    unfold andMore
    cases ts with
    | nil => rw [readAndMore, readAndMore]; rfl
    | cons t rest =>
      rw [readAndMore, readAndMore]
      dsimp only
      split
      · cases readUnary rest with
        | error e => rfl
        | ok q =>
          have hl : q.rest.length < n := by
            have := q.shorter
            simp only [List.length_cons] at h
            omega
          have same {vs : List Token} (hv : q.rest.length < vs.length) :=
            ih _ hl (.and left q.value) q.rest hv rfl
          show found (readAndMore _) = found (readAndMore _)
          rw [same, same]
      · rfl

theorem andMore_nil (left : Term) : andMore left [] = some (left, []) := by
  rw [andMore, readAndMore]
  rfl

theorem andMore_cons (left : Term) (t : Token) (rest : List Token) :
    andMore left (t :: rest) =
      if t.joinsAnd then (unaryPhrase rest).bind fun p => andMore (.and left p.1) p.2
      else some (left, t :: rest) := by
  rw [andMore, readAndMore]
  dsimp only
  split
  · rw [unaryPhrase]
    cases readUnary rest with
    | error e => rfl
    | ok q => exact found_readAndMore _
  · rfl

theorem andPhrase_eq (ts : List Token) :
    andPhrase ts = (unaryPhrase ts).bind fun p => andMore p.1 p.2 := by
  rw [andPhrase, readAnd, unaryPhrase]
  cases readUnary ts with
  | error e => rfl
  | ok p => exact found_readAndMore p

/-! ## Unary phrases and comparisons -/

theorem unaryPhrase_nil : unaryPhrase [] = comparisonPhrase [] := by
  rw [unaryPhrase, readUnary.eq_def]
  rfl

theorem unaryPhrase_cons (t : Token) (rest : List Token) :
    unaryPhrase (t :: rest) =
      if t.negates then (unaryPhrase rest).map fun p => (.not p.1, p.2)
      else comparisonPhrase (t :: rest) := by
  rw [unaryPhrase, readUnary.eq_def]
  dsimp only
  split
  · rw [unaryPhrase]
    cases readUnary rest <;> rfl
  · rfl

/-- The term of a suffix and its two operands, with the closing parenthesis that it may need. -/
def closeSuffix (s : Suffix) (left right : Term) (rest : List Token) :
    Option (Term × List Token) :=
  if s = .notIn true then
    match rest with
    | .closeParen :: after => some (s.build left right, after)
    | _ => none
  else some (s.build left right, rest)

theorem comparisonPhrase_eq (ts : List Token) :
    comparisonPhrase ts = (primaryPhrase ts).bind fun p =>
      match suffix? p.2 with
      | none => some p
      | some (s, rest) => (primaryPhrase rest).bind fun q => closeSuffix s p.1 q.1 q.2 := by
  rw [comparisonPhrase, readComparison, primaryPhrase]
  cases readPrimary ts with
  | error e => rfl
  | ok p =>
    simp only [bind, Except.bind, found_ok, Option.bind_some]
    split
    · next h => simp only [h]; rfl
    · next s rest h =>
      simp only [h, primaryPhrase, closeSuffix]
      cases readPrimary rest with
      | error e => rfl
      | ok q =>
        obtain ⟨right, left, short⟩ := q
        simp only [found_ok, Option.bind_some, Progress.widen]
        split
        · cases left with
          | nil => rfl
          | cons t after => cases t <;> rfl
        · rfl

/-! ## Operands -/

theorem primaryPhrase_nil : primaryPhrase [] = none := by
  rw [primaryPhrase, readPrimary.eq_def]
  rfl

theorem primaryPhrase_openParen (rest : List Token) :
    primaryPhrase (.openParen :: rest) = (orPhrase rest).bind fun p =>
      match p.2 with
      | .closeParen :: after => some (p.1, after)
      | _ => none := by
  rw [primaryPhrase, readPrimary.eq_def, orPhrase]
  dsimp only
  cases readOr rest with
  | error e => rfl
  | ok p =>
    obtain ⟨t, left, short⟩ := p
    cases left with
    | nil => rfl
    | cons t after => cases t <;> rfl

theorem primaryPhrase_emptyList (rest : List Token) :
    primaryPhrase (.openBracket :: .closeBracket :: rest) = some (.list [], rest) := by
  rw [primaryPhrase, readPrimary.eq_def]
  rfl

theorem primaryPhrase_openBracket {rest : List Token} (h : rest.head? ≠ some .closeBracket) :
    primaryPhrase (.openBracket :: rest) =
      (itemsPhrase rest).map fun p => (.list p.1, p.2) := by
  rw [primaryPhrase, readPrimary.eq_def, itemsPhrase]
  cases rest with
  | nil =>
    dsimp only
    cases readItems [] <;> rfl
  | cons t rest =>
    cases t with
    | closeBracket => exact absurd rfl h
    | _ =>
      dsimp only
      cases readItems _ <;> rfl

theorem primaryPhrase_token {t : Token} {rest : List Token} (hp : t ≠ .openParen)
    (hb : t ≠ .openBracket) :
    primaryPhrase (t :: rest) = t.operand?.map fun operand => (operand, rest) := by
  rw [primaryPhrase, readPrimary.eq_def]
  cases t with
  | openParen => exact absurd rfl hp
  | openBracket => exact absurd rfl hb
  | word w =>
    dsimp only
    cases Token.operand? (.word w) <;> rfl
  | _ => rfl

theorem itemsPhrase_eq (ts : List Token) :
    itemsPhrase ts = (primaryPhrase ts).bind fun p =>
      match p.2 with
      | .comma :: rest => (itemsPhrase rest).map fun q => (p.1 :: q.1, q.2)
      | .closeBracket :: rest => some ([p.1], rest)
      | _ => none := by
  rw [itemsPhrase, readItems, primaryPhrase]
  cases readPrimary ts with
  | error e => rfl
  | ok p =>
    obtain ⟨t, left, short⟩ := p
    cases left with
    | nil => rfl
    | cons t after =>
      cases t with
      | comma =>
        simp only [bind, Except.bind, found_ok, Option.bind_some, itemsPhrase]
        cases readItems after <;> rfl
      | _ => rfl

/-! ## Whole texts -/

/-- A token list is accepted when a chain of alternatives takes all of it. -/
theorem parse_eq_ok_iff_orPhrase (ts : List Token) (t : Term) :
    parse ts = .ok t ↔ orPhrase ts = some (t, []) := by
  rw [parse, orPhrase]
  cases readOr ts with
  | error e => simp [bind, Except.bind]
  | ok p =>
    obtain ⟨u, rest, short⟩ := p
    cases rest with
    | nil => simp [bind, Except.bind, pure, Except.pure]
    | cons t rest => simp [bind, Except.bind, throw, throwThe, MonadExceptOf.throw]

end SimilarityStore.Predicate
