import SimilarityStore.Numeric.Literal
import SimilarityStore.Store.Search
import SimilarityStore.Text.Blank

/-
  Replies of a vector-set server, and what they say.  Of both protocol versions only the values that
  a reply is made of are seen.  A simple string `OK` is a value of its own and not a string.
-/

namespace SimilarityStore.Server

open SimilarityStore.Numeric SimilarityStore.Store SimilarityStore.Text

/-- A reply. -/
inductive Reply where
  | nil
  | int (i : Int64)
  | double (x : Float)
  | bool (b : Bool)
  /-- A string of bytes. -/
  | bulk (bytes : ByteArray)
  /-- A simple string other than `OK`. -/
  | simple (s : String)
  /-- The simple string `OK`. -/
  | okay
  | verbatim (format s : String)
  /-- An integer of any size, by its digits. -/
  | bigNumber (digits : ByteArray)
  | array (items : List Reply)
  | set (items : List Reply)
  | map (pairs : List (Reply × Reply))
  /-- A reply with what is said about it. -/
  | attribute (reply : Reply) (attributes : List (Reply × Reply))
  /-- Data that was not asked for. -/
  | push (kind : String) (items : List Reply)
  /-- A refusal, with the server's words. -/
  | refusal (words : String)

namespace Reply

/-- The text of a string. -/
def text? : Reply → Option String
  | bulk bytes => String.fromUTF8? bytes
  | simple s => some s
  | _ => none

/-- The value of a number, or of a string that is a number literal between blanks. -/
def number? : Reply → Option Float
  | double x => some x
  | int i => some (FloatingPoint.ofInt i.toInt)
  | reply => reply.text?.bind fun s => readLiteral? (trimList s.toList)

/-- The hit of a key and a value of a map: the value is a pair of score and attributes, or a score
alone. -/
def hitOfPair (id value : Reply) : Hit where
  id := id.text?
  payload :=
    match value with
    | nil => none
    | array parts => some ⟨parts[0]?.bind number?, parts[1]?.bind text?⟩
    | score => some ⟨score.number?, none⟩

/-- The hits of a flat list of ids, scores and attributes; the last hit may lack some of them. -/
def hitsOfItems : List Reply → List Hit
  | [] => []
  | [id] => [⟨id.text?, none⟩]
  | [id, score] => [⟨id.text?, some ⟨score.number?, none⟩⟩]
  | id :: score :: attributes :: rest =>
    ⟨id.text?, some ⟨score.number?, attributes.text?⟩⟩ :: hitsOfItems rest

/-- The hits of a reply; a reply that is neither a list nor a map has none. -/
def hits : Reply → List Hit
  | array items => hitsOfItems items
  | map pairs => pairs.map fun (id, value) => hitOfPair id value
  | _ => []

end Reply

end SimilarityStore.Server
