import SimilarityStore.Json.Document
import SimilarityStore.Text.Progress

/-
  Reading documents.  The grammar is JSON's without extensions: four blank characters, no trailing
  commas or text, no leading zeros, no raw control characters in strings.
-/

namespace SimilarityStore.Json

open SimilarityStore.Numeric SimilarityStore.Text

/-- The blank characters of a document. -/
def isDocumentBlank (c : Char) : Bool := c = ' ' || c = '\t' || c = '\n' || c = '\r'

/-- A text without its leading blanks. -/
def skipBlanks (cs : List Char) : List Char := cs.dropWhile isDocumentBlank

theorem skipBlanks_length (cs : List Char) : (skipBlanks cs).length ≤ cs.length :=
  (List.dropWhile_sublist _).length_le

theorem length_lt_of_skipBlanks {cs rest : List Char} {c : Char} (h : skipBlanks cs = c :: rest) :
    rest.length < cs.length := by
  have := skipBlanks_length cs
  rw [h, List.length_cons] at this
  omega

/-! ## Strings -/

/-- One element of a string: a character, or a code unit given by its number. -/
inductive Piece where
  | char (c : Char)
  | unit (n : Nat)
deriving DecidableEq, Repr

/-- The value of a hexadecimal digit. -/
def hexDigit? (c : Char) : Option Nat :=
  let n := c.toNat
  if 48 ≤ n ∧ n ≤ 57 then some (n - 48)
  else if 65 ≤ n ∧ n ≤ 70 then some (n - 55)
  else if 97 ≤ n ∧ n ≤ 102 then some (n - 87)
  else none

/-- The number that four hexadecimal digits denote. -/
def hexUnit? (a b c d : Char) : Option Nat := do
  let a ← hexDigit? a
  let b ← hexDigit? b
  let c ← hexDigit? c
  let d ← hexDigit? d
  return ((a * 16 + b) * 16 + c) * 16 + d

/-- The character that a one-letter escape stands for. -/
def shortEscape? (c : Char) : Option Char :=
  match c with
  | '"' => some '"'
  | '\\' => some '\\'
  | '/' => some '/'
  | 'b' => some '\x08'
  | 'f' => some '\x0c'
  | 'n' => some '\n'
  | 'r' => some '\r'
  | 't' => some '\t'
  | _ => none

/-- The pieces of a string up to its closing quote. -/
def readPieces (cs : List Char) : Option (Progress cs (List Piece)) :=
  match cs with
  | [] => none
  | '"' :: rest => some ⟨[], rest, by simp⟩
  | '\\' :: 'u' :: a :: b :: c :: d :: rest => do
    let n ← hexUnit? a b c d
    let p ← readPieces rest
    return p.widen (.unit n :: ·) (by simp [Nat.add_assoc])
  | '\\' :: e :: rest => do
    let c ← shortEscape? e
    let p ← readPieces rest
    return p.widen (.char c :: ·) (by simp [Nat.add_assoc])
  | c :: rest =>
    if c.toNat < 32 then none
    else (readPieces rest).map (·.widen (.char c :: ·) (by simp))

/-- Whether a code unit opens a pair. -/
def isHighUnit (n : Nat) : Bool := 0xd800 ≤ n && n < 0xdc00

/-- Whether a code unit closes a pair. -/
def isLowUnit (n : Nat) : Bool := 0xdc00 ≤ n && n < 0xe000

/-- The characters that pieces spell; none if a code unit of a pair stands alone. -/
def assemble : List Piece → Option (List Char)
  | [] => some []
  | .char c :: ps => (assemble ps).map (c :: ·)
  | .unit n :: ps =>
    if isHighUnit n then
      match ps with
      | .unit m :: rest =>
        if isLowUnit m then
          (assemble rest).map (Char.ofNat (0x10000 + (n - 0xd800) * 0x400 + (m - 0xdc00)) :: ·)
        else none
      | _ => none
    else if isLowUnit n then none
    else (assemble ps).map (Char.ofNat n :: ·)

/-- The content of a string, after its opening quote. -/
def readText (cs : List Char) : Option (Progress cs (Option String)) :=
  (readPieces cs).map (·.widen (fun ps => (assemble ps).map String.ofList) (Nat.le_refl _))

/-! ## Numbers -/

/-- The power of ten after a number's digits, with what follows. -/
def readExponent? (cs : List Char) : Option (Option Int × List Char) :=
  match cs with
  | [] => some (none, [])
  | c :: after =>
    if c = 'e' ∨ c = 'E' then
      let (negative, unsigned) :=
        match after with
        | '-' :: rest => (true, rest)
        | '+' :: rest => (false, rest)
        | rest => (false, rest)
      match spanDigits unsigned with
      | ([], _) => none
      | (ds, rest) => some (some (if negative then -(ofDigits ds : Int) else ofDigits ds), rest)
    else some (none, cs)

/-- The digits after a point, if there is a point, with what follows. -/
def readFraction? (cs : List Char) : Option (List Digit × List Char) :=
  match cs with
  | '.' :: after =>
    match spanDigits after with
    | ([], _) => none
    | (ds, rest) => some (ds, rest)
  | _ => some ([], cs)

/-- An unsigned number: no digits may follow a leading zero. -/
def readUnsigned? (negative : Bool) (cs : List Char) : Option (Numeral × List Char) := do
  let (whole, rest) := spanDigits cs
  if whole.isEmpty || (whole.head? = some 0 && whole.length ≠ 1) then none
  else
    let (fraction, rest) ← readFraction? rest
    let (exponent, rest) ← readExponent? rest
    return (⟨negative, whole, fraction, exponent⟩, rest)

/-- A number. -/
def readNumber? (cs : List Char) : Option (Numeral × List Char) :=
  match cs with
  | '-' :: rest => readUnsigned? true rest
  | _ => readUnsigned? false cs

/-- A number at the front of the input. -/
def readNumber (cs : List Char) : Option (Progress cs Document) :=
  match readNumber? cs with
  | none => none
  | some (n, rest) => if h : rest.length < cs.length then some ⟨.number n, rest, h⟩ else none

/-! ## Values -/

/-- The rest of a text that starts with a given word. -/
def dropWord? (word cs : List Char) : Option (List Char) :=
  if word.isPrefixOf cs then some (cs.drop word.length) else none

/-- One of the three named values, of which the first letter is already known. -/
def readName (cs : List Char) : Option (Progress cs Document) :=
  let named (word : String) (value : Document) : Option (Progress cs Document) :=
    match dropWord? word.toList cs with
    | some rest => if h : rest.length < cs.length then some ⟨value, rest, h⟩ else none
    | none => none
  named "null" .null <|> named "true" (.bool true) <|> named "false" (.bool false)

mutual

/-- A value, with the blanks in front of it. -/
def readValue (cs : List Char) : Option (Progress cs Document) :=
  match h : skipBlanks cs with
  | [] => none
  | c :: rest =>
    have shorter := length_lt_of_skipBlanks h
    if c = '"' then (readText rest).map (·.widen .text (Nat.le_of_lt shorter))
    else if c = '[' then (readArray rest).map (·.widen .array (Nat.le_of_lt shorter))
    else if c = '\x7b' then (readObject rest).map (·.widen .object (Nat.le_of_lt shorter))
    else
      have le : (c :: rest).length ≤ cs.length := h ▸ skipBlanks_length cs
      (readName (c :: rest) <|> readNumber (c :: rest)).map (·.widen id le)
termination_by 3 * cs.length

/-- The items of an array, after its opening bracket. -/
def readArray (cs : List Char) : Option (Progress cs (List Document)) :=
  match h : skipBlanks cs with
  | ']' :: rest => some ⟨[], rest, length_lt_of_skipBlanks h⟩
  | _ => readItems cs
termination_by 3 * cs.length + 2

/-- At least one item, separated by commas, up to the closing bracket. -/
def readItems (cs : List Char) : Option (Progress cs (List Document)) := do
  let item ← readValue cs
  match h : skipBlanks item.rest with
  | ',' :: rest =>
    have shorter := Nat.lt_trans (length_lt_of_skipBlanks h) item.shorter
    let items ← readItems rest
    return items.widen (item.value :: ·) (Nat.le_of_lt shorter)
  | ']' :: rest =>
    return ⟨[item.value], rest, Nat.lt_trans (length_lt_of_skipBlanks h) item.shorter⟩
  | _ => none
termination_by 3 * cs.length + 1

/-- The members of an object, after its opening brace. -/
def readObject (cs : List Char) : Option (Progress cs (List (Option String × Document))) :=
  match h : skipBlanks cs with
  | '\x7d' :: rest => some ⟨[], rest, length_lt_of_skipBlanks h⟩
  | _ => readMembers cs
termination_by 3 * cs.length + 2

/-- At least one member, separated by commas, up to the closing brace. -/
def readMembers (cs : List Char) : Option (Progress cs (List (Option String × Document))) := do
  match h₁ : skipBlanks cs with
  | '"' :: opened =>
    have short₁ := length_lt_of_skipBlanks h₁
    let name ← readText opened
    match h₂ : skipBlanks name.rest with
    | ':' :: after =>
      have short₂ := Nat.lt_trans (length_lt_of_skipBlanks h₂)
        (Nat.lt_trans name.shorter short₁)
      let value ← readValue after
      match h₃ : skipBlanks value.rest with
      | ',' :: rest =>
        have short₃ := Nat.lt_trans (length_lt_of_skipBlanks h₃)
          (Nat.lt_trans value.shorter short₂)
        let members ← readMembers rest
        return members.widen ((name.value, value.value) :: ·) (Nat.le_of_lt short₃)
      | '\x7d' :: rest =>
        return ⟨[(name.value, value.value)], rest, Nat.lt_trans (length_lt_of_skipBlanks h₃)
          (Nat.lt_trans value.shorter short₂)⟩
      | _ => none
    | _ => none
  | _ => none
termination_by 3 * cs.length + 1

end

/-- The document that a text holds, if it holds one and only blanks follow. -/
def Document.read? (s : String) : Option Document :=
  match readValue s.toList with
  | some p => if (skipBlanks p.rest).isEmpty then some p.value else none
  | none => none

end SimilarityStore.Json
