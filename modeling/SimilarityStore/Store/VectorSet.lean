import SimilarityStore.Store.FilterText

/-
  Vector sets: the operations of a store on the set under one key.  Every operation is a direct
  round trip to the backend.  Batches attempt each item in order; an item that cannot be stored or
  is declined is reported and counted, and only an error of the backend ends the batch.
-/

namespace SimilarityStore.Store

/-- The vector set under a key. -/
structure VectorSet where
  key : String
deriving DecidableEq, Repr

/-- One element of a batch, whose parts may be missing. -/
structure BatchItem where
  /-- The place in the batch. -/
  index : Nat
  id : Option String
  vector : Option FeatureVector
  metadata : Option Metadata
deriving DecidableEq

/-- The elements of a batch: one for each vector, with the id and the metadata at its place.  Lists
that are too short miss their elements, and what is beyond the vectors does not count. -/
def batchItems (ids : List (Option String)) (vectors : List (Option FeatureVector))
    (metadata : List (Option Metadata)) : List BatchItem :=
  vectors.mapIdx fun i vector => ⟨i, (ids[i]?).join, vector, (metadata[i]?).join⟩

namespace VectorSet

/-- Adds one element of a batch and tells whether it was added.  The id of an element without one is
drawn before its vector is looked at. -/
def addItem (set : VectorSet) (item : BatchItem) : Program Bool := do
  let id ← match item.id with
    | some id => pure id
    | none => Program.freshId
  match item.vector with
  | none => do
    Program.report (.vectorMissing item.index)
    return false
  | some vector =>
    match vector.fault? with
    | some fault => do
      Program.report (.vectorInvalid item.index id fault)
      return false
    | none => do
      let added ← Program.perform (.add set.key ⟨id, vector, item.metadata⟩)
      Program.reportIf (!added)
        (.entryDeclined set.key id vector.dimension item.metadata.isSome)
      return added

/-- Adds the elements of a batch in order and counts those that were added. -/
def addItems (set : VectorSet) : List BatchItem → Program Nat
  | [] => pure 0
  | item :: rest => do
    let added ← set.addItem item
    let more ← set.addItems rest
    return added.toNat + more

/-- Adds vectors under given ids.  A missing id is drawn, and missing metadata mean none; elements
whose vector is missing or cannot be stored are skipped. -/
def addBatchWithIds (set : VectorSet) (ids : List (Option String))
    (vectors : List (Option FeatureVector)) (metadata : List (Option Metadata)) :
    Program Unit := do
  let succeeded ← set.addItems (batchItems ids vectors metadata)
  Program.report (.batchAdded set.key succeeded vectors.length)

/-- Draws a number of ids. -/
def drawIds : Nat → Program (List String)
  | 0 => pure []
  | n + 1 => do
    let id ← Program.freshId
    let ids ← drawIds n
    return id :: ids

/-- Adds vectors under new ids, which are given back in the order of the vectors whether or not the
backend added them. -/
def addBatch (set : VectorSet) (vectors : List FeatureVector) (metadata : List Metadata) :
    Program (List String) := do
  let ids ← drawIds vectors.length
  set.addBatchWithIds (ids.map some) (vectors.map some) (metadata.map some)
  return ids

/-- Adds a vector under an id, or replaces the one there. -/
def addWithId (set : VectorSet) (id : String) (vector : FeatureVector) : Program Unit :=
  set.addBatchWithIds [some id] [some vector] []

/-- Adds a vector under a new id. -/
def add (set : VectorSet) (vector : FeatureVector) : Program String := do
  let id ← Program.freshId
  set.addWithId id vector
  return id

/-- Adds a vector with metadata under a new id. -/
def addWithMetadata (set : VectorSet) (vector : FeatureVector) (metadata : Metadata) :
    Program String := do
  let ids ← set.addBatch [vector] [metadata]
  match ids with
  | id :: _ => return id
  | [] => Program.fail .emptyBatch

/-- The match of a hit, whose vector is fetched; none if the hit has no id or no score. -/
def reconstruct (set : VectorSet) (hit : Hit) : Program (Option Match) :=
  match hit with
  | ⟨some id, some ⟨some score, attributes⟩⟩ => do
    let vector ← Program.perform (.fetch set.key id)
    return some ⟨id, score, vector.getD ⟨[]⟩, attributes.map Metadata.mk⟩
  | _ => pure none

/-- The matches of hits, in their order. -/
def reconstructAll (set : VectorSet) : List Hit → Program (List Match)
  | [] => pure []
  | hit :: rest => do
    let found ← set.reconstruct hit
    let more ← set.reconstructAll rest
    return found.toList ++ more

/-- The text of a filter; a filter without one is reported and dropped. -/
def filterText (set : VectorSet) : Option Filter.Expr → Program (Option String)
  | none => pure none
  | some filter => do
    let text ← filter.render.run
    Program.reportIf text.isNone (.filterDropped set.key)
    return text

/-- A filter is dropped when its obstacle has been reported. -/
theorem filterText_some (set : VectorSet) (filter : Filter.Expr) :
    set.filterText (some filter) =
      match filter.compile with
      | .ok text => pure (some text)
      | .error obstacle => do
        Program.report (.filterObstacle obstacle)
        Program.report (.filterDropped set.key)
        return none := by
  rw [filterText, filter.render_eq]
  cases filter.compile <;> rfl

/-- The entries nearest to a query, in the backend's order.  Without a request or a query nothing
matches, a query that cannot be looked up is an error, and hits without id or score are dropped. -/
def search (set : VectorSet) (request : Option SearchRequest) : Program (List Match) :=
  match request with
  | none => pure []
  | some request =>
    match request.query with
    | none => pure []
    | some query => do
      Program.ofExcept query.validate
      let filter ← set.filterText request.filter
      let hits ← Program.perform
        (.search set.key query ⟨request.maxResults, request.tolerance, filter⟩)
      let found ← set.reconstructAll hits
      Program.report (.searched set.key hits.length found.length)
      return found

/-- Removes ids in order and counts those that were removed. -/
def removeIds (set : VectorSet) : List String → Program Nat
  | [] => pure 0
  | id :: rest => do
    let removed ← Program.perform (.remove set.key id)
    Program.reportIf (!removed) (.idNotRemoved set.key id)
    let more ← set.removeIds rest
    return removed.toNat + more

/-- Removes entries by id, going on past ids that are not there. -/
def removeBatch (set : VectorSet) (ids : List String) : Program Unit := do
  let succeeded ← set.removeIds ids
  Program.report (.batchRemoved set.key succeeded ids.length)

/-- Removes one entry. -/
def remove (set : VectorSet) (id : String) : Program Unit := set.removeBatch [id]

/-- Deletes the whole set. -/
def removeAll (set : VectorSet) : Program Unit := do
  Program.perform (.delete set.key)
  Program.report (.setDeleted set.key)

end VectorSet

end SimilarityStore.Store
