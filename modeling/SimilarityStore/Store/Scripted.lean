import SimilarityStore.Store.Run

/-
  The scripted backend: it answers each kind of call from a queue of answers, and with a fixed
  answer when the queue is used up.  For trying out operations against any course of events.
-/

namespace SimilarityStore.Store

/-- The answers still to be given, by kind of call. -/
structure Script where
  adds : List (Except StoreError Bool) := []
  removes : List (Except StoreError Bool) := []
  fetches : List (Except StoreError (Option FeatureVector)) := []
  searches : List (Except StoreError (List Hit)) := []
  deletes : List (Except StoreError Unit) := []

namespace Script

/-- The first answer of a queue, or the fixed one, and the rest of the queue. -/
def next {α : Type} (fixed : α) : List (Except StoreError α) →
    Except StoreError α × List (Except StoreError α)
  | [] => (.ok fixed, [])
  | r :: rest => (r, rest)

/-- The answer to a call, and the script after it. -/
def answer (c : Call) (s : Script) : Except StoreError c.Answer × Script :=
  match c with
  | .add _ _ =>
    let (r, rest) := next true s.adds
    (r, { s with adds := rest })
  | .remove _ _ =>
    let (r, rest) := next true s.removes
    (r, { s with removes := rest })
  | .fetch _ _ =>
    let (r, rest) := next none s.fetches
    (r, { s with fetches := rest })
  | .search _ _ _ =>
    let (r, rest) := next [] s.searches
    (r, { s with searches := rest })
  | .delete _ =>
    let (r, rest) := next () s.deletes
    (r, { s with deletes := rest })

/-- The script as a backend, which reports no events. -/
def backend : Backend Script where
  answer c s :=
    let (result, after) := answer c s
    (result, after, [])

end Script

end SimilarityStore.Store
