import SimilarityStore.Predicate.Parse

/-
  The grammar of filter texts, as relations between token lists and the terms that they spell:

    disjunction := conjunction (('or' | '||') conjunction)*
    conjunction := unary (('and' | '&&') unary)*
    unary       := ('not' | '!') unary | comparison
    comparison  := primary [ operator primary | 'in' primary
                           | 'not' '(' 'in' primary ')' | 'not' 'in' primary ]
    primary     := '(' disjunction ')' | '[' ']' | '[' primary (',' primary)* ']'
                 | selector | string | number | 'true' | 'false' | 'null'

  Nothing here mentions a reader or an order in which alternatives are tried.  The two chains are
  written with the recursion on the left, which is their grouping.
-/

namespace SimilarityStore.Predicate.Grammar

/-- The word and the sign between two alternatives. -/
def IsOr (t : Token) : Prop := t = .word "or" ∨ t = .operator .or

/-- The word and the sign between two conditions that both have to hold. -/
def IsAnd (t : Token) : Prop := t = .word "and" ∨ t = .operator .and

/-- The word and the sign in front of what must not hold. -/
def IsNot (t : Token) : Prop := t = .word "not" ∨ t = .operator .not

mutual

/-- A chain of conjunctions, grouped to the left. -/
inductive Disjunction : List Token → Term → Prop where
  | single {ts : List Token} {t : Term} : Conjunction ts t → Disjunction ts t
  | join {ls rs : List Token} {sign : Token} {l r : Term} : Disjunction ls l → IsOr sign →
      Conjunction rs r → Disjunction (ls ++ sign :: rs) (.or l r)

/-- A chain of unary phrases, grouped to the left. -/
inductive Conjunction : List Token → Term → Prop where
  | single {ts : List Token} {t : Term} : Unary ts t → Conjunction ts t
  | join {ls rs : List Token} {sign : Token} {l r : Term} : Conjunction ls l → IsAnd sign →
      Unary rs r → Conjunction (ls ++ sign :: rs) (.and l r)

/-- A comparison behind any number of negations. -/
inductive Unary : List Token → Term → Prop where
  | negated {ts : List Token} {sign : Token} {t : Term} : IsNot sign → Unary ts t →
      Unary (sign :: ts) (.not t)
  | plain {ts : List Token} {t : Term} : Comparing ts t → Unary ts t

/-- One operand, or two operands and how they are related. -/
inductive Comparing : List Token → Term → Prop where
  | operand {ts : List Token} {t : Term} : Primary ts t → Comparing ts t
  | compare {ls rs : List Token} {o : Operator} {c : Comparison} {l r : Term} : Primary ls l →
      o.comparison? = some c → Primary rs r →
      Comparing (ls ++ .operator o :: rs) (.compare c l r)
  | isIn {ls rs : List Token} {l r : Term} : Primary ls l → Primary rs r →
      Comparing (ls ++ .word "in" :: rs) (.isIn l r)
  | notIn {ls rs : List Token} {l r : Term} : Primary ls l → Primary rs r →
      Comparing (ls ++ .word "not" :: .word "in" :: rs) (.notIn l r)
  | notInParens {ls rs : List Token} {l r : Term} : Primary ls l → Primary rs r →
      Comparing (ls ++ .word "not" :: .openParen :: .word "in" :: (rs ++ [.closeParen]))
        (.notIn l r)

/-- An operand. -/
inductive Primary : List Token → Term → Prop where
  | parens {ts : List Token} {t : Term} : Disjunction ts t →
      Primary (.openParen :: (ts ++ [.closeParen])) t
  | emptyList : Primary [.openBracket, .closeBracket] (.list [])
  | list {ts : List Token} {items : List Term} : Items ts items →
      Primary (.openBracket :: (ts ++ [.closeBracket])) (.list items)
  | selector (name : String) : Primary [.selector name] (.selector name)
  | text (s : String) : Primary [.text s] (.literal (.text s))
  | number (x : Float) : Primary [.number x] (.literal (.number x))
  | true : Primary [.word "true"] (.literal (.bool true))
  | false : Primary [.word "false"] (.literal (.bool false))
  | null : Primary [.word "null"] (.literal .null)

/-- At least one operand, separated by commas. -/
inductive Items : List Token → List Term → Prop where
  | last {ts : List Token} {t : Term} : Primary ts t → Items ts [t]
  | more {ts us : List Token} {t : Term} {items : List Term} : Primary ts t → Items us items →
      Items (ts ++ .comma :: us) (t :: items)

end

end SimilarityStore.Predicate.Grammar
