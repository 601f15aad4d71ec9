import SimilarityStore.Store.FeatureVector

/-
  Embedders: models that turn texts into vectors, and one with prepared answers.
-/

namespace SimilarityStore.Store

open SimilarityStore.Json SimilarityStore.Numeric

/-- A model that turns texts into vectors. -/
structure Embedder where
  /-- The dimension that its vectors are declared to have. -/
  dimension : Nat
  /-- The vector of a text. -/
  embed : String → Except StoreError FeatureVector

namespace Embedder

/-- The vector of a text without a prepared one: every component is one tenth. -/
def constant (dimension : Nat) : FeatureVector :=
  ⟨List.replicate dimension (FloatingPoint.ofDecimal false 1 (-1))⟩

/-- The embedder with prepared vectors, of which the last one for a text counts. -/
def prepared (dimension : Nat) (responses : List (String × FeatureVector)) : Embedder where
  dimension := dimension
  embed text := .ok ((lookup? text responses.reverse).getD (constant dimension))

/-- The embedder that fails on some texts. -/
def failingOn (texts : List String) (e : Embedder) : Embedder where
  dimension := e.dimension
  embed text :=
    if text ∈ texts then .error (.backend "embedder" ("cannot embed " ++ text)) else e.embed text

end Embedder

end SimilarityStore.Store
