import SimilarityStore.Predicate.Scan
import SimilarityStore.Predicate.Term
import SimilarityStore.Text.Progress

/-
  Parsing filter texts:

    or         := and (('or' | '||') and)*
    and        := unary (('and' | '&&') unary)*
    unary      := ('not' | '!') unary | comparison
    comparison := primary [ suffix ]
    suffix     := ('==' | '!=' | '>' | '>=' | '<' | '<=') primary
                | 'in' primary | 'not' '(' 'in' primary ')' | 'not' 'in' primary
    primary    := '(' or ')' | '[' [ primary (',' primary)* ] ']'
                | selector | string | number | 'true' | 'false' | 'null'

  Chains of `or` and `and` group to the left.  Each function reads one of these phrases from the
  front of its tokens.
-/

namespace SimilarityStore.Predicate

open SimilarityStore.Text

/-- What a comparison goes on with behind its first operand. -/
inductive Suffix where
  | compare (comparison : Comparison)
  | isIn
  /-- Not a member; whether a closing parenthesis has to follow. -/
  | notIn (parenthesized : Bool)
deriving DecidableEq, Repr

/-- The term that a suffix builds from its two operands. -/
def Suffix.build : Suffix → Term → Term → Term
  | compare comparison => .compare comparison
  | isIn => .isIn
  | notIn _ => .notIn

/-- The suffix at the front of the tokens, if there is one. -/
def suffix? : List Token → Option (Suffix × List Token)
  | .operator o :: rest => o.comparison?.map fun c => (.compare c, rest)
  | .word w :: rest =>
    if w = "in" then some (.isIn, rest)
    else if w = "not" then
      match rest with
      | .openParen :: .word v :: after => if v = "in" then some (.notIn true, after) else none
      | .word v :: after => if v = "in" then some (.notIn false, after) else none
      | _ => none
    else none
  | _ => none

theorem suffix?_length {ts rest : List Token} {s : Suffix} (h : suffix? ts = some (s, rest)) :
    rest.length < ts.length := by
  unfold suffix? at h
  split at h
  · obtain ⟨c, -, hc⟩ := Option.map_eq_some_iff.1 h
    cases hc
    simp
  · split at h
    · cases h; simp
    · split at h
      · split at h
        · split at h
          · cases h; simp only [List.length_cons]; omega
          · cases h
        · split at h
          · cases h; simp only [List.length_cons]; omega
          · cases h
        · cases h
      · cases h
  · cases h

/-- Whether a token joins two operands of `or`. -/
def Token.joinsOr (t : Token) : Bool := t = .word "or" || t = .operator .or

/-- Whether a token joins two operands of `and`. -/
def Token.joinsAnd (t : Token) : Bool := t = .word "and" || t = .operator .and

/-- Whether a token negates what follows. -/
def Token.negates (t : Token) : Bool := t = .word "not" || t = .operator .not

/-- The value of a word that is a literal. -/
def wordValue? (w : String) : Option Value :=
  if w = "true" then some (.bool true)
  else if w = "false" then some (.bool false)
  else if w = "null" then some .null
  else none

/-- The operand that a token is by itself. -/
def Token.operand? : Token → Option Term
  | .selector name => some (.selector name)
  | .text s => some (.literal (.text s))
  | .number x => some (.literal (.number x))
  | .word w => (wordValue? w).map .literal
  | _ => none

/-- The error for tokens at whose front no operand stands. -/
def noOperand (ts : List Token) : SyntaxError :=
  match ts.head? with
  | some (.word w) => .badWord w
  | found => .noOperand found

mutual

/-- A chain of `or`. -/
def readOr (ts : List Token) : Except SyntaxError (Progress ts Term) := do
  let p ← readAnd ts
  have := p.shorter
  readOrMore p
termination_by 6 * ts.length + 4

/-- The rest of a chain of `or`, behind operands already read. -/
def readOrMore {ts : List Token} (p : Progress ts Term) :
    Except SyntaxError (Progress ts Term) :=
  match h : p.rest with
  | t :: rest =>
    if t.joinsOr then do
      have shorter := p.tail_shorter h
      let q ← readAnd rest
      readOrMore ⟨.or p.value q.value, q.rest, Nat.lt_trans q.shorter shorter⟩
    else return p
  | [] => return p
termination_by 6 * p.rest.length + 5
decreasing_by
  · simp only [h, List.length_cons]; omega
  · have := q.shorter; simp only [h, List.length_cons]; omega

/-- A chain of `and`. -/
def readAnd (ts : List Token) : Except SyntaxError (Progress ts Term) := do
  let p ← readUnary ts
  have := p.shorter
  readAndMore p
termination_by 6 * ts.length + 3

/-- The rest of a chain of `and`, behind operands already read. -/
def readAndMore {ts : List Token} (p : Progress ts Term) :
    Except SyntaxError (Progress ts Term) :=
  match h : p.rest with
  | t :: rest =>
    if t.joinsAnd then do
      have shorter := p.tail_shorter h
      let q ← readUnary rest
      readAndMore ⟨.and p.value q.value, q.rest, Nat.lt_trans q.shorter shorter⟩
    else return p
  | [] => return p
termination_by 6 * p.rest.length + 5
decreasing_by
  · simp only [h, List.length_cons]; omega
  · have := q.shorter; simp only [h, List.length_cons]; omega

/-- A negation, or a comparison. -/
def readUnary (ts : List Token) : Except SyntaxError (Progress ts Term) :=
  match ts with
  | t :: rest =>
    if t.negates then do
      let p ← readUnary rest
      return p.widen .not (by simp)
    else readComparison (t :: rest)
  | [] => readComparison []
termination_by 6 * ts.length + 2

/-- A primary, with a suffix if there is one. -/
def readComparison (ts : List Token) : Except SyntaxError (Progress ts Term) := do
  let left ← readPrimary ts
  match h : suffix? left.rest with
  | none => return left
  | some (suffix, rest) =>
    have short := Nat.lt_trans (suffix?_length h) left.shorter
    let right ← readPrimary rest
    let whole : Progress ts Term :=
      right.widen (suffix.build left.value ·) (Nat.le_of_lt short)
    if suffix = .notIn true then
      match h : whole.rest with
      | .closeParen :: after =>
        return ⟨whole.value, after, whole.tail_shorter h⟩
      | found => throw (.unclosedParen found.head?)
    else return whole
termination_by 6 * ts.length + 1

/-- An operand: a parenthesized expression, a list, or a single token. -/
def readPrimary (ts : List Token) : Except SyntaxError (Progress ts Term) :=
  match ts with
  | .openParen :: rest => do
    let inner ← readOr rest
    match h : inner.rest with
    | .closeParen :: after =>
      return ⟨inner.value, after, Nat.lt_succ_of_lt (inner.tail_shorter h)⟩
    | found => throw (.unclosedParen found.head?)
  | .openBracket :: .closeBracket :: rest =>
    return ⟨.list [], rest, by simp only [List.length_cons]; omega⟩
  | .openBracket :: rest => do
    let items ← readItems rest
    return items.widen .list (by simp)
  | t :: rest =>
    match t.operand? with
    | some operand => return ⟨operand, rest, by simp⟩
    | none => throw (noOperand (t :: rest))
  | [] => throw (noOperand [])
termination_by 6 * ts.length

/-- At least one item, separated by commas, up to the closing bracket. -/
def readItems (ts : List Token) : Except SyntaxError (Progress ts (List Term)) := do
  let item ← readPrimary ts
  match h : item.rest with
  | .comma :: rest =>
    have shorter := item.tail_shorter h
    let items ← readItems rest
    return items.widen (item.value :: ·) (Nat.le_of_lt shorter)
  | .closeBracket :: rest =>
    return ⟨[item.value], rest, item.tail_shorter h⟩
  | found => throw (.unclosedList found.head?)
termination_by 6 * ts.length + 1

end

/-- The term that a whole token list is. -/
def parse (ts : List Token) : Except SyntaxError Term := do
  let p ← readOr ts
  match p.rest with
  | [] => return p.value
  | t :: rest => throw (.leftOver t (ts.length - (t :: rest).length))

/-- The term of a filter text. -/
def Term.read (s : String) : Except SyntaxError Term := do
  let ts ← scan s
  parse ts

end SimilarityStore.Predicate
