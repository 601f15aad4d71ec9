import SimilarityStore.Proofs.Store.Session
import SimilarityStore.Store.VectorSet

/-
  Runs of store operations on the memory.  Operations are run one after the other, whatever each of
  them ends with.  The memory afterwards is that of the session of the calls they made
  (`VectorSet.state_perform`), so it is known from these calls and their answers alone.
-/

namespace SimilarityStore.Store

/-- An operation of a store with its arguments. -/
inductive Operation where
  | add (vector : FeatureVector)
  | addWithId (id : String) (vector : FeatureVector)
  | addWithMetadata (vector : FeatureVector) (metadata : Metadata)
  | addBatch (vectors : List FeatureVector) (metadata : List Metadata)
  | addBatchWithIds (ids : List (Option String)) (vectors : List (Option FeatureVector))
      (metadata : List (Option Metadata))
  | remove (id : String)
  | removeBatch (ids : List String)
  | removeAll
  | search (request : Option SearchRequest)

/-- The operation on a set; its result is not looked at. -/
def Operation.program (set : VectorSet) : Operation → Program Unit
  | add vector => (fun _ => ()) <$> set.add vector
  | addWithId id vector => set.addWithId id vector
  | addWithMetadata vector metadata => (fun _ => ()) <$> set.addWithMetadata vector metadata
  | addBatch vectors metadata => (fun _ => ()) <$> set.addBatch vectors metadata
  | addBatchWithIds ids vectors metadata => set.addBatchWithIds ids vectors metadata
  | remove id => set.remove id
  | removeBatch ids => set.removeBatch ids
  | removeAll => set.removeAll
  | search request => (fun _ => ()) <$> set.search request

/-- The calls of a trace. -/
def callsOf (trace : List Step) : List Call :=
  trace.filterMap fun
    | .call c => some c
    | _ => none

theorem callsOf_append (before after : List Step) :
    callsOf (before ++ after) = callsOf before ++ callsOf after := List.filterMap_append

namespace Memory

theorem session_append (before after : List Call) (m : Memory) :
    (session (before ++ after) m).2 = (session after (session before m).2).2 := by
  induction before generalizing m with
  | nil => rfl
  | cons c before ih => exact ih (answer c m).2

/-- The memory as what programs are run with. -/
def environment (embedder : String → Except StoreError FeatureVector) (ids : Nat → String) :
    Environment Memory := ⟨backend, embedder, ids⟩

variable (embedder : String → Except StoreError FeatureVector) (ids : Nat → String)

/-- The memory after a program is that of the session of its calls. -/
theorem state_run {α : Type} (p : Program α) (w : World Memory) :
    (p.run (environment embedder ids) w).world.state =
      (session (callsOf (p.run (environment embedder ids) w).trace) w.state).2 := by
  induction p generalizing w with
  | done result => rfl
  | call c next ih =>
    rw [Program.run_call, Outcome.world_after, Outcome.trace_after, callsOf_append, ih]
    rfl
  | embed text next ih => exact ih _ w
  | fresh next ih => exact ih _ ⟨w.state, w.drawn + 1⟩
  | log event next ih => exact ih w

end Memory

namespace VectorSet

variable (embedder : String → Except StoreError FeatureVector) (ids : Nat → String)
  (set : VectorSet)

/-- Runs operations one after the other, also past those that fail: the world after them, and all
steps in order. -/
def perform : List Operation → World Memory → World Memory × List Step
  | [], w => (w, [])
  | op :: ops, w =>
    let outcome := (op.program set).run (Memory.environment embedder ids) w
    let (after, steps) := perform ops outcome.world
    (after, outcome.trace ++ steps)

/-- The memory after operations is that of the session of their calls. -/
theorem state_perform (ops : List Operation) (w : World Memory) :
    (set.perform embedder ids ops w).1.state =
      (Memory.session (callsOf (set.perform embedder ids ops w).2) w.state).2 := by
  induction ops generalizing w with
  | nil => rfl
  | cons op ops ih =>
    simp only [perform]
    rw [callsOf_append, Memory.session_append, ← Memory.state_run, ih]

/-- The world after operations on a memory that was empty. -/
def worldAfter (ops : List Operation) : World Memory :=
  (set.perform embedder ids ops ⟨Memory.empty, 0⟩).1

/-- The exchanges with the memory in a run of operations. -/
def exchanges (ops : List Operation) : List Exchange :=
  (Memory.session (callsOf (set.perform embedder ids ops ⟨Memory.empty, 0⟩).2) Memory.empty).1

/-- The memory holds exactly the entries that stand after these exchanges. -/
theorem records_worldAfter (ops : List Operation) :
    Memory.Records (set.exchanges embedder ids ops) (set.worldAfter embedder ids ops).state := by
  rw [worldAfter, state_perform]
  exact Memory.records_session Memory.records_nil _

end VectorSet

end SimilarityStore.Store
