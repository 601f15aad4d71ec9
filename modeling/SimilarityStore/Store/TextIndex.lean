import SimilarityStore.Store.Embedder
import SimilarityStore.Store.VectorSet
import SimilarityStore.Text.Blank

/-
  Text indexes: texts stored and looked up by their embeddings.
-/

namespace SimilarityStore.Store

open SimilarityStore.Text

/-- A vector set whose vectors are embeddings of texts. -/
structure TextIndex where
  set : VectorSet
  /-- The dimension that the embedder declares. -/
  dimension : Nat
deriving DecidableEq, Repr

namespace TextIndex

/-- The embedding of a text, which must not be blank; the embedding must have the declared
dimension. -/
def embed (index : TextIndex) (text : String) : Program FeatureVector :=
  if isBlankText text then Program.fail (.invalidInput InputFault.blankText.message)
  else do
    let vector ← Program.vectorOf text
    if vector.dimension = index.dimension then return vector
    else Program.fail (.dimensionMismatch index.dimension vector.dimension)

/-- Stores a text under a new id. -/
def addText (index : TextIndex) (text : String) (metadata : Option Metadata) :
    Program String := do
  let vector ← index.embed text
  let id ← match metadata with
    | some metadata => index.set.addWithMetadata vector metadata
    | none => index.set.add vector
  Program.report (.textIndexed id)
  return id

/-- Stores a text with a record as its metadata; a record without a document is an error, whatever
the text. -/
def addRecord (index : TextIndex) (text : String) (record : Option Json.Value) :
    Program String :=
  match record with
  | none => Program.fail .serialization
  | some record => index.addText text (some (Metadata.ofRecord record))

/-- The entries nearest to the embedding of a text. -/
def searchText (index : TextIndex) (query : String) (filter : Option Filter.Expr)
    (maxResults : Nat) : Program (List Match) := do
  let vector ← index.embed query
  index.set.search (some { query := some vector, filter := filter, maxResults := maxResults })

end TextIndex

end SimilarityStore.Store
