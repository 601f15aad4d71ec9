import SimilarityStore.Json.Read
import SimilarityStore.Json.Write
import SimilarityStore.Json.Number

/-
  Document values: what a document says once its spelling is forgotten.  Numbers are values, strings
  are texts, and an object has one value for each name, sorted by name.  A document has a value when
  its numbers are in range, its strings spell texts, and at most `nestingLimit` arrays and objects
  are open at once.
-/

namespace SimilarityStore.Json

/-- How many arrays and objects may be open at once. -/
def nestingLimit : Nat := 127

/-- The value of a document. -/
inductive Value where
  | null
  | bool (b : Bool)
  | number (n : Number)
  | text (s : String)
  | array (items : List Value)
  | object (members : List (String × Value))
deriving Inhabited

/-- Puts a member into a list sorted by name; a member of the same name is replaced. -/
def insertMember {α : Type} (name : String) (value : α) : List (String × α) → List (String × α)
  | [] => [(name, value)]
  | (other, old) :: rest =>
    match compare name other with
    | .lt => (name, value) :: (other, old) :: rest
    | .eq => (name, value) :: rest
    | .gt => (other, old) :: insertMember name value rest

/-- Members sorted by name, of which the last of each name is kept. -/
def sortMembers {α : Type} (members : List (String × α)) : List (String × α) :=
  members.foldl (fun sorted (name, value) => insertMember name value sorted) []

/-- The first value of a name. -/
def lookup? {α : Type} (name : String) : List (String × α) → Option α
  | [] => none
  | (other, value) :: rest => if other = name then some value else lookup? name rest

/-- Inserting a member changes what is found under its name and nothing else. -/
theorem lookup?_insertMember {α : Type} (name other : String) (value : α)
    (members : List (String × α)) :
    lookup? name (insertMember other value members) =
      if other = name then some value else lookup? name members := by
  induction members with
  | nil => rfl
  | cons m rest ih =>
    rw [insertMember]
    split
    · rfl
    · next h =>
      obtain rfl : other = m.1 := Std.LawfulEqOrd.eq_of_compare h
      simp only [lookup?]
      split <;> rfl
    · next h =>
      have hne : m.1 ≠ other := by
        intro he
        rw [he, Std.ReflOrd.compare_self] at h
        cases h
      simp only [lookup?, ih]
      by_cases hm : m.1 = name
      · simp only [hm, if_true]
        rw [if_neg]
        rintro rfl
        exact hne hm
      · simp only [hm, if_false]

namespace Document

mutual

/-- The value of a document in which at most `depth` more arrays and objects may be open. -/
def value? (depth : Nat) : Document → Option Value
  | null => some .null
  | bool b => some (.bool b)
  | number n => (Number.ofNumeral? n).map .number
  | text s => s.map .text
  | array items => if depth = 0 then none else (itemValues? (depth - 1) items).map .array
  | object members =>
    if depth = 0 then none
    else (memberValues? (depth - 1) members).map fun ms => .object (sortMembers ms)

/-- The values of all items. -/
def itemValues? (depth : Nat) : List Document → Option (List Value)
  | [] => some []
  | item :: items => do
    let v ← value? depth item
    let vs ← itemValues? depth items
    return v :: vs

/-- The names and values of all members, as they are written. -/
def memberValues? (depth : Nat) :
    List (Option String × Document) → Option (List (String × Value))
  | [] => some []
  | (name, item) :: members => do
    let name ← name
    let v ← value? depth item
    let vs ← memberValues? depth members
    return (name, v) :: vs

end

/-- Whether a document has a value within the given depth. -/
def isSound (depth : Nat) (d : Document) : Bool := (value? depth d).isSome

end Document

namespace Value

mutual

/-- The value as a document. -/
def toDocument : Value → Document
  | null => .null
  | bool b => .bool b
  | number n => n.toDocument
  | text s => .ofString s
  | array items => .array (itemDocuments items)
  | object members => .object (memberDocuments members)

/-- All items as documents. -/
def itemDocuments : List Value → List Document
  | [] => []
  | item :: items => toDocument item :: itemDocuments items

/-- All members as documents. -/
def memberDocuments : List (String × Value) → List (Option String × Document)
  | [] => []
  | (name, value) :: members => (some name, toDocument value) :: memberDocuments members

end

/-- The value that a text holds, if it holds one. -/
def read? (s : String) : Option Value := (Document.read? s).bind (·.value? nestingLimit)

/-- The value as a text, without blanks. -/
def write (v : Value) : String := v.toDocument.write

end Value

end SimilarityStore.Json
