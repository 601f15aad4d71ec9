/-
  Decimal digits: reading and writing natural numbers digit by digit, most significant first.
  Main statement: `ofDigits_digitsOf`, the digits written for a number have that number's value.
-/

namespace SimilarityStore.Numeric

/-- A decimal digit. -/
abbrev Digit := Fin 10

/-- There are digits, and so there is a digit zero. -/
instance neZero_ten : @NeZero Nat Zero.ofOfNat0 10 := ⟨Nat.succ_ne_zero 9⟩

/-- The digit that a character shows, if it is one of `0` to `9`. -/
def Digit.ofChar? (c : Char) : Option Digit :=
  if h : 48 ≤ c.toNat ∧ c.toNat ≤ 57 then some ⟨c.toNat - 48, by omega⟩ else none

/-- The character that shows a digit. -/
def Digit.toChar (d : Digit) : Char := Char.ofNat (48 + d.val)

@[simp] theorem Digit.ofChar?_toChar (d : Digit) : Digit.ofChar? d.toChar = some d := by
  revert d; decide

/-- Extends a number by digits on the right. -/
def appendDigits (start : Nat) (ds : List Digit) : Nat :=
  ds.foldl (fun n d => 10 * n + d.val) start

/-- The number that a digit list denotes. -/
def ofDigits (ds : List Digit) : Nat := appendDigits 0 ds

/-- The digits of a number, put before digits already known. -/
def digitsBefore (n : Nat) (known : List Digit) : List Digit :=
  if n < 10 then Fin.ofNat 10 n :: known
  else digitsBefore (n / 10) (Fin.ofNat 10 n :: known)
termination_by n

/-- The digits of a number, without leading zeros; zero has the one digit `0`. -/
def digitsOf (n : Nat) : List Digit := digitsBefore n []

theorem appendDigits_digitsBefore (n : Nat) (known : List Digit) :
    appendDigits 0 (digitsBefore n known) = appendDigits n known := by
  fun_induction digitsBefore n known with
  | case1 n known h =>
    have : n % 10 = n := Nat.mod_eq_of_lt h
    simp [appendDigits, this]
  | case2 n known h ih =>
    rw [ih]
    have : 10 * (n / 10) + n % 10 = n := Nat.div_add_mod n 10
    simp [appendDigits, this]

/-- The digits written for a number have that number's value. -/
@[simp] theorem ofDigits_digitsOf (n : Nat) : ofDigits (digitsOf n) = n := by
  rw [ofDigits, digitsOf, appendDigits_digitsBefore]; rfl

/-- A number in decimal. -/
def decimalText (n : Nat) : String := String.ofList ((digitsOf n).map Digit.toChar)

/-- An integer in decimal, with a sign only when it is negative. -/
def signedText (i : Int) : String :=
  if i < 0 then "-" ++ decimalText i.natAbs else decimalText i.natAbs

/-- The digits at the front of a text, and what follows them. -/
def spanDigits : List Char → List Digit × List Char
  | [] => ([], [])
  | c :: cs =>
    match Digit.ofChar? c with
    | some d => (d :: (spanDigits cs).1, (spanDigits cs).2)
    | none => ([], c :: cs)

/-- The whole text as digits, if it holds at least one and nothing else. -/
def allDigits? (cs : List Char) : Option (List Digit) :=
  match spanDigits cs with
  | (d :: ds, []) => some (d :: ds)
  | _ => none

end SimilarityStore.Numeric
