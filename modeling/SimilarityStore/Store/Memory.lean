import Std.Data.ExtTreeMap
import Std.Data.ExtTreeMap.Lemmas
import SimilarityStore.Predicate.Evaluate
import SimilarityStore.Predicate.Parse
import SimilarityStore.Store.Run

/-
  The backend in memory: vector sets by key, and in each set elements by id.  All vectors of a set
  have one dimension, and a set without elements is not there.  Scores are `(1 + cosine) / 2`.
-/

namespace SimilarityStore.Store

open SimilarityStore.Numeric SimilarityStore.Predicate
open Std (ExtTreeMap)

/-- An element of a set in memory. -/
structure Element where
  vector : FeatureVector
  attributes : Option String
deriving DecidableEq

/-- The elements of a set, by id. -/
abbrev Elements := ExtTreeMap String Element

/-- Vector sets, by key. -/
structure Memory where
  sets : ExtTreeMap String Elements

/-- A scored element of a set. -/
structure Candidate where
  id : String
  score : Float
  attributes : Option String

/-- Whether one candidate does not stand behind another: greater scores first, and of equal scores
the lesser id first.  A score that is no number counts as equal to every score. -/
def Candidate.precedes (a b : Candidate) : Bool :=
  (((FloatingPoint.order? b.score a.score).getD .eq).then (compare a.id b.id)).isLE

/-- The candidate as a hit. -/
def Candidate.toHit (c : Candidate) : Hit := .scored c.id c.score c.attributes

namespace Memory

/-- The memory without any set. -/
def empty : Memory := ⟨∅⟩

/-- The elements under a key. -/
def elements (m : Memory) (key : String) : Elements := m.sets.getD key ∅

/-- The number of elements under a key. -/
def cardinality (m : Memory) (key : String) : Nat := (m.elements key).size

/-- The dimension of a set's vectors, taken from its first element. -/
def dimensionOf? (set : Elements) : Option Nat :=
  set.toList.head?.map fun e => e.2.vector.dimension

/-- Checks a dimension against that of a set. -/
def checkDimension (set : Elements) (actual : Nat) : Except StoreError Unit :=
  match dimensionOf? set with
  | some expected =>
    if expected = actual then .ok () else .error (.dimensionMismatch expected actual)
  | none => .ok ()

/-- The memory in which a key has a set, if only an empty one. -/
def opened (m : Memory) (key : String) : Memory := ⟨m.sets.insert key (m.elements key)⟩

/-- Adds an entry, or replaces the element with its id.  The key has a set from before the dimension
is checked. -/
def add (m : Memory) (key : String) (entry : Entry) : Except StoreError Bool × Memory :=
  let opened := m.opened key
  let set := opened.elements key
  match checkDimension set entry.vector.dimension with
  | .error e => (.error e, opened)
  | .ok () =>
    let element : Element := ⟨entry.vector, entry.metadata.map Metadata.raw⟩
    (.ok true, ⟨opened.sets.insert key (set.insert entry.id element)⟩)

/-- Removes an element, and its set with the last one; tells whether it was there. -/
def remove (m : Memory) (key id : String) : Bool × Memory :=
  match m.sets[key]? with
  | none => (false, m)
  | some set =>
    let rest := set.erase id
    (set.contains id, ⟨if rest.isEmpty then m.sets.erase key else m.sets.insert key rest⟩)

/-- The vector of an element. -/
def fetch (m : Memory) (key id : String) : Option FeatureVector :=
  ((m.elements key)[id]?).map Element.vector

/-- The elements of a set with their scores. -/
def candidates (set : Elements) (query : FeatureVector) : List Candidate :=
  set.toList.map fun (id, element) => ⟨id, query.score element.vector, element.attributes⟩

/-- Whether a candidate is near enough and passes the filter. -/
def admits (tolerance : Option Float) (filter : Option Term) (c : Candidate) : Bool :=
  (tolerance.all fun t => FloatingPoint.isAtLeast c.score (FloatingPoint.ofInt 1 - t)) &&
    filter.all (·.accepts c.attributes)

/-- The term of an optional filter text. -/
def readFilter : Option String → Except StoreError (Option Term)
  | none => .ok none
  | some text =>
    match Term.read text with
    | .ok term => .ok (some term)
    | .error e => .error (.backend "memory" ("invalid filter expression: " ++ e.message))

/-- The best candidates of a set. -/
def search (m : Memory) (key : String) (query : FeatureVector) (p : Parameters) :
    Except StoreError (List Hit) := do
  let filter ← readFilter p.filter
  let set := m.elements key
  checkDimension set query.dimension
  let admitted := (candidates set query).filter (admits p.tolerance filter)
  return ((admitted.mergeSort Candidate.precedes).take p.count).map Candidate.toHit

/-- Deletes a key with all its elements. -/
def delete (m : Memory) (key : String) : Memory := ⟨m.sets.erase key⟩

/-- The answer to a call, and the memory after it. -/
def answer (c : Call) (m : Memory) : Except StoreError c.Answer × Memory :=
  match c with
  | .add key entry => m.add key entry
  | .remove key id =>
    let (removed, rest) := m.remove key id
    (.ok removed, rest)
  | .fetch key id => (.ok (m.fetch key id), m)
  | .search key query p => (m.search key query p, m)
  | .delete key => (.ok (), m.delete key)

/-- The memory as a backend, which reports no events. -/
def backend : Backend Memory where
  answer c m :=
    let (result, after) := answer c m
    (result, after, [])

end Memory

end SimilarityStore.Store
