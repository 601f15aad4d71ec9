import SimilarityStore.Store.FeatureVector
import SimilarityStore.Text.Quoted

/-
  Entries: vectors as they are written to a set, with their ids and metadata.
-/

namespace SimilarityStore.Store

open SimilarityStore.Json SimilarityStore.Text

/-- The payload that is stored next to a vector, as it was given.  Filters see its fields when it
holds an object. -/
structure Metadata where
  raw : String
deriving DecidableEq, Repr, Inhabited

namespace Metadata

/-- The metadata that holds a record. -/
def ofRecord (record : Value) : Metadata := ⟨record.write⟩

/-- The record that the metadata hold, if they hold one. -/
def record? (m : Metadata) : Except StoreError Value :=
  match Value.read? m.raw with
  | some v => .ok v
  | none => .error .serialization

/-- The metadata's structural description. -/
def describe (m : Metadata) : String := describeCase "Metadata" [quoted m.raw]

/-- The metadata as a document. -/
def toDocument (m : Metadata) : Document := .ofString m.raw

/-- The metadata that a document stands for. -/
def ofDocument? (d : Document) : Option Metadata := d.asText?.map mk

end Metadata

/-- A vector as it is written to a set. -/
structure Entry where
  id : String
  vector : FeatureVector
  metadata : Option Metadata
deriving DecidableEq, Inhabited

namespace Entry

/-- The entry's structural description. -/
def describe (e : Entry) : String :=
  describeRecord "Entry"
    [("id", quoted e.id), ("vector", e.vector.describe),
      ("metadata", describeOption Metadata.describe e.metadata)]

/-- The entry as a document. -/
def toDocument (e : Entry) : Document :=
  .ofFields [("id", .ofString e.id), ("vector", e.vector.toDocument),
    ("metadata", .ofOption Metadata.toDocument e.metadata)]

/-- The entry that a document stands for. -/
def ofDocument? (d : Document) : Option Entry := do
  match ← d.fields? ["id", "vector", "metadata"] with
  | [id, vector, metadata] =>
    return ⟨← required? Document.asText? id, ← required? FeatureVector.ofDocument? vector,
      ← optional? Metadata.ofDocument? metadata⟩
  | _ => none

end Entry

end SimilarityStore.Store
