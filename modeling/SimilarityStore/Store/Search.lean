import SimilarityStore.Filter.Codec
import SimilarityStore.Store.Entry

/-
  Searches: what is asked of a store and of its backend, and what they answer.
-/

namespace SimilarityStore.Store

open SimilarityStore.Json SimilarityStore.Numeric SimilarityStore.Text

/-- One answer of a search. -/
structure Match where
  id : String
  score : Float
  vector : FeatureVector
  metadata : Option Metadata
deriving DecidableEq

namespace Match

/-- The match's structural description. -/
def describe (m : Match) : String :=
  describeRecord "Match"
    [("id", quoted m.id), ("score", NumberStyle.descriptive.spell m.score),
      ("vector", m.vector.describe), ("metadata", describeOption Metadata.describe m.metadata)]

/-- The match as a document. -/
def toDocument (m : Match) : Document :=
  .ofFields [("id", .ofString m.id), ("score", Number.ofFloat m.score),
    ("vector", m.vector.toDocument), ("metadata", .ofOption Metadata.toDocument m.metadata)]

/-- The match that a document stands for. -/
def ofDocument? (d : Document) : Option Match := do
  match ← d.fields? ["id", "score", "vector", "metadata"] with
  | [id, score, vector, metadata] =>
    return ⟨← required? Document.asText? id, ← required? Document.asFloat? score,
      ← required? FeatureVector.ofDocument? vector, ← optional? Metadata.ofDocument? metadata⟩
  | _ => none

end Match

/-- What is asked of a store. -/
structure SearchRequest where
  /-- The vector to look near; without one nothing matches. -/
  query : Option FeatureVector := none
  /-- The filter on metadata. -/
  filter : Option Filter.Expr := none
  /-- The greatest number of matches. -/
  maxResults : Nat := 10
  /-- The least score, which only counts strictly between zero and one. -/
  minScore : Float := FloatingPoint.ofInt 0

namespace SearchRequest

/-- How far from the query a match may be: a least score `s` strictly between zero and one becomes
the distance `1 - s`, and every other least score is ignored. -/
def tolerance (r : SearchRequest) : Option Float :=
  if FloatingPoint.isLess (FloatingPoint.ofInt 0) r.minScore &&
      FloatingPoint.isLess r.minScore (FloatingPoint.ofInt 1) then
    some (FloatingPoint.ofInt 1 - r.minScore)
  else none

/-- The request's structural description. -/
def describe (r : SearchRequest) : String :=
  describeRecord "SearchRequest"
    [("query_vector", describeOption FeatureVector.describe r.query),
      ("filter", describeOption Filter.Expr.describe r.filter),
      ("max_results", decimalText r.maxResults),
      ("min_score", NumberStyle.descriptive.spell r.minScore)]

/-- The request as a document. -/
def toDocument (r : SearchRequest) : Document :=
  .ofFields [("query_vector", .ofOption FeatureVector.toDocument r.query),
    ("filter", .ofOption Filter.Expr.toDocument r.filter), ("max_results", .ofInt r.maxResults),
    ("min_score", Number.ofFloat r.minScore)]

/-- The request that a document stands for. -/
def ofDocument? (d : Document) : Option SearchRequest := do
  match ← d.fields? ["query_vector", "filter", "max_results", "min_score"] with
  | [query, filter, maxResults, minScore] =>
    return ⟨← optional? FeatureVector.ofDocument? query,
      ← optional? (Filter.Expr.ofDocument? (nestingLimit - 1)) filter,
      ← required? Document.asNat? maxResults, ← required? Document.asFloat? minScore⟩
  | _ => none

end SearchRequest

/-- The parameters of a backend's similarity search. -/
structure Parameters where
  /-- The greatest number of hits. -/
  count : Nat
  /-- The greatest distance from the query, if it is bounded. -/
  tolerance : Option Float
  /-- The filter as a text. -/
  filter : Option String
deriving DecidableEq

namespace Parameters

/-- The parameters' structural description. -/
def describe (p : Parameters) : String :=
  describeRecord "SimilarityParams"
    [("count", decimalText p.count),
      ("tolerance", describeOption NumberStyle.descriptive.spell p.tolerance),
      ("filter", describeOption quoted p.filter)]

/-- The parameters as a document. -/
def toDocument (p : Parameters) : Document :=
  .ofFields [("count", .ofInt p.count), ("tolerance", .ofOption Number.ofFloat p.tolerance),
    ("filter", .ofOption .ofString p.filter)]

/-- The parameters that a document stands for. -/
def ofDocument? (d : Document) : Option Parameters := do
  match ← d.fields? ["count", "tolerance", "filter"] with
  | [count, tolerance, filter] =>
    return ⟨← required? Document.asNat? count, ← optional? Document.asFloat? tolerance,
      ← optional? Document.asText? filter⟩
  | _ => none

end Parameters

/-- The score and the attributes that come with a hit. -/
structure Payload where
  score : Option Float
  attributes : Option String
deriving DecidableEq

namespace Payload

/-- The payload's structural description. -/
def describe (p : Payload) : String :=
  describeRecord "HitPayload"
    [("score", describeOption NumberStyle.descriptive.spell p.score),
      ("attributes", describeOption quoted p.attributes)]

/-- The payload as a document. -/
def toDocument (p : Payload) : Document :=
  .ofFields [("score", .ofOption Number.ofFloat p.score),
    ("attributes", .ofOption .ofString p.attributes)]

/-- The payload that a document stands for. -/
def ofDocument? (d : Document) : Option Payload := do
  match ← d.fields? ["score", "attributes"] with
  | [score, attributes] =>
    return ⟨← optional? Document.asFloat? score, ← optional? Document.asText? attributes⟩
  | _ => none

end Payload

/-- One hit as a backend gives it.  Its parts may be missing, so that a malformed one can be dropped
without failing the search. -/
structure Hit where
  id : Option String
  payload : Option Payload
deriving DecidableEq

namespace Hit

/-- A complete hit. -/
def scored (id : String) (score : Float) (attributes : Option String) : Hit :=
  ⟨some id, some ⟨some score, attributes⟩⟩

/-- The hit's structural description. -/
def describe (h : Hit) : String :=
  describeRecord "RawHit"
    [("id", describeOption quoted h.id), ("payload", describeOption Payload.describe h.payload)]

/-- The hit as a document. -/
def toDocument (h : Hit) : Document :=
  .ofFields [("id", .ofOption .ofString h.id), ("payload", .ofOption Payload.toDocument h.payload)]

/-- The hit that a document stands for. -/
def ofDocument? (d : Document) : Option Hit := do
  match ← d.fields? ["id", "payload"] with
  | [id, payload] =>
    return ⟨← optional? Document.asText? id, ← optional? Payload.ofDocument? payload⟩
  | _ => none

end Hit

end SimilarityStore.Store
