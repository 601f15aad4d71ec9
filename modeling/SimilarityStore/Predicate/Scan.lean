import SimilarityStore.Numeric.Literal
import SimilarityStore.Predicate.Token
import SimilarityStore.Text.Blank

/-
  Scanning filter texts into tokens.  Blanks separate tokens.  A string runs to the next quote of
  its own kind and has no escapes; a number takes every digit, point, `e` and `E`, and a sign
  directly behind `e` or `E`, and has to be a numeral as a whole.
-/

namespace SimilarityStore.Predicate

open SimilarityStore.Numeric SimilarityStore.Text

/-- The characters that a name starts with. -/
def startsName (c : Char) : Bool := c.isAlpha || c = '_'

/-- The characters that a name goes on with. -/
def continuesName (c : Char) : Bool := c.isAlphanum || c = '_'

/-- Whether a number starts at this character, given the rest of the text. -/
def startsNumber (c : Char) (rest : List Char) : Bool :=
  c.isDigit ||
    ((c = '-' || c = '.') &&
      match rest with
      | n :: _ => n.isDigit || n = '.'
      | [] => false)

/-- Whether a number goes on with this character, given the one before it. -/
def continuesNumber (before c : Char) : Bool :=
  c.isDigit || c = '.' || c = 'e' || c = 'E' ||
    ((c = '+' || c = '-') && (before = 'e' || before = 'E'))

/-- The characters with which a number goes on, and the rest. -/
def spanNumber (before : Char) : List Char → List Char × List Char
  | [] => ([], [])
  | c :: cs =>
    if continuesNumber before c then (c :: (spanNumber c cs).1, (spanNumber c cs).2)
    else ([], c :: cs)

/-- The operator that starts with this character, and the rest. -/
def operatorAt? (c : Char) (rest : List Char) : Option (Operator × List Char) :=
  match c, rest with
  | '=', '=' :: after => some (.equal, after)
  | '!', '=' :: after => some (.notEqual, after)
  | '<', '=' :: after => some (.atMost, after)
  | '>', '=' :: after => some (.atLeast, after)
  | '&', '&' :: after => some (.and, after)
  | '|', '|' :: after => some (.or, after)
  | '<', _ => some (.less, rest)
  | '>', _ => some (.greater, rest)
  | '!', _ => some (.not, rest)
  | _, _ => none

/-- The token that is a character by itself. -/
def mark? (c : Char) : Option Token :=
  match c with
  | '(' => some .openParen
  | ')' => some .closeParen
  | '[' => some .openBracket
  | ']' => some .closeBracket
  | ',' => some .comma
  | _ => none

/-- The token that starts with the character `c` at `position`, which is no blank, and the rest. -/
def scanToken (position : Nat) (c : Char) (rest : List Char) :
    Except SyntaxError (Token × List Char) :=
  match mark? c with
  | some token => .ok (token, rest)
  | none =>
    if c = '"' || c = '\x27' then
      match rest.dropWhile (· != c) with
      | [] => .error (.openString position)
      | _ :: after => .ok (.text (String.ofList (rest.takeWhile (· != c))), after)
    else if c = '.' && (rest.head?.any startsName) then
      .ok (.selector (String.ofList (rest.takeWhile continuesName)), rest.dropWhile continuesName)
    else if startsNumber c rest then
      let number := spanNumber c rest
      match readLiteral? (c :: number.1) with
      | some x => .ok (.number x, number.2)
      | none => .error (.badNumber (String.ofList (c :: number.1)))
    else if startsName c then
      .ok (.word (String.ofList (c :: rest.takeWhile continuesName)),
        rest.dropWhile continuesName)
    else
      match operatorAt? c rest with
      | some (o, after) => .ok (.operator o, after)
      | none => .error (.badCharacter c position)

theorem spanNumber_length (before : Char) (cs : List Char) :
    (spanNumber before cs).2.length ≤ cs.length := by
  induction cs generalizing before with
  | nil => simp [spanNumber]
  | cons c cs ih =>
    rw [spanNumber]
    split
    · exact Nat.le_succ_of_le (ih c)
    · exact Nat.le_refl _

theorem operatorAt?_length {c : Char} {rest after : List Char} {o : Operator}
    (h : operatorAt? c rest = some (o, after)) : after.length ≤ rest.length := by
  unfold operatorAt? at h
  split at h <;> first | cases h; simp | cases h

/-- No token takes back what stands behind its first character. -/
theorem scanToken_length {position : Nat} {c : Char} {rest after : List Char} {token : Token}
    (h : scanToken position c rest = .ok (token, after)) : after.length ≤ rest.length := by
  unfold scanToken at h
  split at h
  · cases h; exact Nat.le_refl _
  · split at h
    · split at h
      · cases h
      · rename_i heq
        cases h
        have := (List.dropWhile_sublist (l := rest) (· != c)).length_le
        rw [heq, List.length_cons] at this
        omega
    · split at h
      · cases h; exact (List.dropWhile_sublist _).length_le
      · split at h
        · dsimp only at h
          split at h
          · cases h; exact spanNumber_length _ _
          · cases h
        · split at h
          · cases h; exact (List.dropWhile_sublist _).length_le
          · split at h
            · rename_i heq
              cases h
              exact operatorAt?_length heq
            · cases h

/-- The tokens of the end `cs` of a text with `total` characters. -/
def scanFrom (total : Nat) (cs : List Char) : Except SyntaxError (List Token) :=
  match cs with
  | [] => .ok []
  | c :: rest =>
    if isBlank c then scanFrom total rest
    else
      match h : scanToken (total - cs.length) c rest with
      | .error e => .error e
      | .ok (token, after) =>
        have : after.length < rest.length + 1 := Nat.lt_succ_of_le (scanToken_length h)
        (scanFrom total after).map (token :: ·)
termination_by cs.length

/-- The tokens of a text. -/
def scan (s : String) : Except SyntaxError (List Token) := scanFrom s.toList.length s.toList

end SimilarityStore.Predicate
