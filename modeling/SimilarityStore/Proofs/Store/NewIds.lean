import Mathlib.Data.List.Basic
import SimilarityStore.Proofs.Store.Batches

/-
  Additions under new ids.  The ids are drawn first, one for each vector (`leads_drawIds`), and the
  vectors are then added as a batch that has them at its places.  So the entry of a place goes by the
  id that is returned for it, whatever becomes of the places around it (`Batch.entries_named`).
  Main statement: `additions_offer_returned_ids`.
-/

namespace SimilarityStore.Store

open Program (Leads Accounts leads_freshId leads_pure)

/-- The ids that are drawn next. -/
def Environment.nextIds {σ : Type} (env : Environment σ) (drawn n : Nat) : List String :=
  (List.range' drawn n).map env.ids

theorem Environment.length_nextIds {σ : Type} (env : Environment σ) (drawn n : Nat) :
    (env.nextIds drawn n).length = n := by
  rw [nextIds, List.length_map, List.length_range']

/-- The outcome with another result, unless it is an error. -/
def Outcome.returning {σ α β : Type} (o : Outcome σ α) (b : β) : Outcome σ β :=
  ⟨o.result.map fun _ => b, o.world, o.trace⟩

/-- The entries of vectors under ids, in order: one for each vector that can be stored, with the id
and the metadata at its place. -/
def storable (ids : List String) (vectors : List FeatureVector) (metadata : List Metadata) :
    List Entry :=
  (List.range vectors.length).filterMap fun i => do
    let id ← ids[i]?
    let vector ← vectors[i]?
    if vector.fault?.isNone then some ⟨id, vector, metadata[i]?⟩ else none

/-! ## Batches with an id at every place -/

namespace Batch

/-- The batch of vectors under ids. -/
def named (ids : List String) (vectors : List FeatureVector) (metadata : List Metadata) : Batch :=
  ⟨ids.map some, vectors.map some, metadata.map some⟩

/-- The batch of one vector under an id. -/
def single (id : String) (vector : FeatureVector) (metadata : Option Metadata) : Batch :=
  ⟨[some id], [some vector], metadata.toList.map some⟩

theorem join_getElem?_map_some {α : Type} (xs : List α) (i : Nat) :
    ((xs.map some)[i]?).join = xs[i]? := by
  rw [List.getElem?_map]
  cases xs[i]? <;> rfl

section Named

variable (drawn : Nat → String) {ids : List String} {vectors : List FeatureVector}
  (metadata : List Metadata)

/-- A place has an entry if its vector can be stored, and the entry goes by the id there. -/
theorem resolve_named {i : Nat} {id : String} {vector : FeatureVector} (hid : ids[i]? = some id)
    (hvector : vectors[i]? = some vector) :
    ((named ids vectors metadata).resolve drawn i).toOption =
      if vector.fault?.isNone then some ⟨id, vector, metadata[i]?⟩ else none := by
  have hid' : (named ids vectors metadata).idAt drawn i = id := by
    rw [idAt, id?, named, join_getElem?_map_some, hid, Option.getD_some]
  have hvector' : (named ids vectors metadata).vector? i = some vector := by
    rw [vector?, named, join_getElem?_map_some, hvector]
  have hmetadata : (named ids vectors metadata).metadata? i = metadata[i]? := by
    rw [metadata?, named, join_getElem?_map_some]
  unfold resolve
  rw [hvector', hid', hmetadata]
  dsimp only
  cases vector.fault? with
  | none => rfl
  | some fault => rfl

theorem entries_named (h : ids.length = vectors.length) :
    (named ids vectors metadata).entries drawn 0 vectors.length =
      storable ids vectors metadata := by
  rw [entries, storable, ← List.range_eq_range']
  refine List.filterMap_congr fun i hi => ?_
  have hvectors : i < vectors.length := List.mem_range.1 hi
  have hids : i < ids.length := by omega
  rw [resolve_named drawn metadata (List.getElem?_eq_getElem hids)
    (List.getElem?_eq_getElem hvectors)]
  simp [hids, hvectors]

end Named

/-- The entry of the only place, if its vector can be stored. -/
theorem entries_single (drawn : Nat → String) (id : String) (vector : FeatureVector)
    (metadata : Option Metadata) :
    (single id vector metadata).entries drawn 0 1 =
      if vector.fault?.isNone then [⟨id, vector, metadata⟩] else [] := by
  have hone : (single id vector metadata).resolve drawn 0 =
      (named [id] [vector] metadata.toList).resolve drawn 0 := rfl
  have hmetadata : metadata.toList[0]? = metadata := by cases metadata <;> rfl
  rw [entries, List.range'_one, List.filterMap_cons, hone,
    resolve_named drawn metadata.toList rfl rfl, hmetadata]
  cases vector.fault? <;> rfl

end Batch

/-! ## What is offered and returned -/

namespace VectorSet

/-- A program adds the entries of a batch and returns something known beforehand: it draws a number
of ids, and goes on as the batch does. -/
structure Adds {σ α : Type} (env : Environment σ) (set : VectorSet) (p : Program α) (w : World σ)
    (drawn : Nat) (b : Batch) (entries : List Entry) (returned : α) (moments : List Moment) :
    Prop where
  /-- The run says and reports nothing else, and the backend itself answers. -/
  accounts : Accounts env p w moments
  /-- It is the run of the batch, with another result. -/
  core : p.run env w = ((set.addBatchWithIds b.ids b.vectors b.metadata).run env
    ⟨w.state, w.drawn + drawn⟩).returning returned
  /-- The calls are the additions of the entries, in order, and only an error leaves some out. -/
  calls : (turnsOf moments).map Turn.call <+: entries.map (.add set.key)
  /-- Without an error all of them are made, and the result is the known one. -/
  complete : ∀ a, (p.run env w).result = .ok a →
    a = returned ∧ (turnsOf moments).map Turn.call = entries.map (.add set.key)
  /-- The result is an error exactly when a call is answered with it. -/
  failed : ∀ e, (p.run env w).result = .error e ↔
    ∃ turn ∈ turnsOf moments, turn.answer = .error e

/-- Adds one vector under an id: at most one call is made, and it carries that id. -/
structure AddsOne {σ α : Type} (env : Environment σ) (set : VectorSet) (p : Program α) (w : World σ)
    (drawn : Nat) (entry : Entry) (returned : α) (moments : List Moment) : Prop where
  adds : set.Adds env p w drawn (.single entry.id entry.vector entry.metadata)
    (if entry.vector.fault?.isNone then [entry] else []) returned moments
  once : (turnsOf moments).length ≤ 1
  carried : ∀ turn ∈ turnsOf moments, turn.call = .add set.key entry

section Adds

variable {σ α : Type} {env : Environment σ} {set : VectorSet}

/-- What leads the way of a batch adds its entries. -/
theorem adds_of_leads {p : Program α} {w v : World σ} {drawn : Nat} {b : Batch}
    {entries : List Entry} {returned : α} {moments : List Moment}
    {answers : Except StoreError (List Bool)}
    (hp : Leads env p w moments (answers.map fun _ => returned) v)
    (hbatch : Leads env (set.addBatchWithIds b.ids b.vectors b.metadata) ⟨w.state, w.drawn + drawn⟩
      moments (answers.map fun _ => ()) v)
    (hcalls : Attempted (fun entry : Entry => .add set.key entry) (fun _ (added : Bool) => added)
      entries (turnsOf moments) answers) :
    set.Adds env p w drawn b entries returned moments where
  accounts := hp.accounts
  core := by
    have hresult : (answers.map fun _ => returned) =
        ((answers.map fun _ => ()).map fun _ => returned : Except StoreError α) := by
      cases answers <;> rfl
    rw [hp.run_eq, hbatch.run_eq, Outcome.returning, hresult]
  calls := hcalls.calls_prefix
  complete a ha := by
    rw [hp.result] at ha
    obtain ⟨added, hadded, hreturned⟩ := Batch.ok_of_map ha
    exact ⟨hreturned.symm, hcalls.calls_of_ok hadded⟩
  failed e := by
    rw [hp.result, ← hcalls.error_iff e]
    cases answers <;> simp [Except.map]

theorem Adds.one {p : Program α} {w : World σ} {drawn : Nat} {entry : Entry} {returned : α}
    {moments : List Moment}
    (h : set.Adds env p w drawn (.single entry.id entry.vector entry.metadata)
      (if entry.vector.fault?.isNone then [entry] else []) returned moments) :
    set.AddsOne env p w drawn entry returned moments where
  adds := h
  once := by
    have hlength := h.calls.length_le
    rw [List.length_map, List.length_map] at hlength
    refine Nat.le_trans hlength ?_
    split <;> simp
  carried turn hturn := by
    have hmem := h.calls.subset (List.mem_map_of_mem hturn)
    obtain ⟨other, hother, hcall⟩ := List.mem_map.1 hmem
    have hsame : other = entry := by
      split at hother
      · exact List.mem_singleton.1 hother
      · cases hother
    rw [← hcall, hsame]

end Adds

/-! ## The operations -/

section Operations

variable {σ : Type} (env : Environment σ) (set : VectorSet)

theorem leads_drawIds (n : Nat) (w : World σ) :
    Leads env (drawIds n) w [] (.ok (env.nextIds w.drawn n)) ⟨w.state, w.drawn + n⟩ := by
  induction n generalizing w with
  | zero => exact leads_pure []
  | succ n ih =>
    have hrest := (ih ⟨w.state, w.drawn + 1⟩).map (env.ids w.drawn :: ·)
    have hworld : w.drawn + 1 + n = w.drawn + (n + 1) := by omega
    dsimp only at hrest
    rw [hworld] at hrest
    exact leads_freshId.bind_of_silent hrest

/-- Vectors that are added under new ids go as a batch with these ids. -/
theorem exists_adds_addBatch (vectors : List FeatureVector) (metadata : List Metadata)
    (w : World σ) :
    ∃ moments, set.Adds env (set.addBatch vectors metadata) w vectors.length
      (.named (env.nextIds w.drawn vectors.length) vectors metadata)
      (storable (env.nextIds w.drawn vectors.length) vectors metadata)
      (env.nextIds w.drawn vectors.length) moments := by
  let ids := env.nextIds w.drawn vectors.length
  have hlength : ids.length = vectors.length := env.length_nextIds _ _
  obtain ⟨moments, answers, v, hbatch, hcourse⟩ :=
    leads_addBatchWithIds env set (.named ids vectors metadata) ⟨w.state, w.drawn + vectors.length⟩
  have hcalls := hcourse.attempted
  rw [show (Batch.named ids vectors metadata).vectors.length = vectors.length from
    List.length_map some, Batch.entries_named _ metadata hlength] at hcalls
  have hresult : ((answers.map fun _ => ()).map fun _ => ids : Except StoreError (List String)) =
      answers.map fun _ => ids := by
    cases answers <;> rfl
  have hadded := hbatch.map fun _ => ids
  rw [hresult] at hadded
  refine ⟨_, adds_of_leads ((leads_drawIds env vectors.length w).bind_of_silent hadded) hbatch ?_⟩
  rwa [turnsOf_append_reports]

/-- One vector under an id is offered if it can be stored. -/
theorem leads_single (id : String) (vector : FeatureVector) (metadata : Option Metadata)
    (w : World σ) :
    ∃ moments answers v,
      Leads env (set.addBatchWithIds (Batch.single id vector metadata).ids
        (Batch.single id vector metadata).vectors (Batch.single id vector metadata).metadata) w
        moments (answers.map fun _ => ()) v ∧
      Attempted (fun entry : Entry => .add set.key entry) (fun _ (added : Bool) => added)
        (if vector.fault?.isNone then [⟨id, vector, metadata⟩] else []) (turnsOf moments)
        answers := by
  obtain ⟨moments, answers, v, hbatch, hcourse⟩ :=
    leads_addBatchWithIds env set (.single id vector metadata) w
  have hcalls := hcourse.attempted
  rw [show (Batch.single id vector metadata).vectors.length = 1 from rfl,
    Batch.entries_single] at hcalls
  refine ⟨_, answers, v, hbatch, ?_⟩
  rwa [turnsOf_append_reports]

/-- Adds a vector under a new id, with metadata if there are any. -/
def addFresh (vector : FeatureVector) (metadata : Option Metadata) : Program String := do
  let id ← Program.freshId
  let b := Batch.single id vector metadata
  set.addBatchWithIds b.ids b.vectors b.metadata
  return id

/-- The batch that a vector with metadata is added in always yields the one id drawn for it. -/
theorem addFresh_some (vector : FeatureVector) (metadata : Metadata) :
    set.addFresh vector (some metadata) = set.addWithMetadata vector metadata := by
  simp only [addWithMetadata, addBatch, bind_assoc, pure_bind]
  rfl

theorem exists_addsOne_addFresh (vector : FeatureVector) (metadata : Option Metadata)
    (w : World σ) :
    ∃ moments, set.AddsOne env (set.addFresh vector metadata) w 1
      ⟨env.ids w.drawn, vector, metadata⟩ (env.ids w.drawn) moments := by
  obtain ⟨moments, answers, v, hbatch, hcalls⟩ :=
    set.leads_single env (env.ids w.drawn) vector metadata ⟨w.state, w.drawn + 1⟩
  have hresult : ((answers.map fun _ => ()).map fun _ => env.ids w.drawn :
      Except StoreError String) = answers.map fun _ => env.ids w.drawn := by
    cases answers <;> rfl
  have hadded := hbatch.map fun _ => env.ids w.drawn
  rw [hresult] at hadded
  exact ⟨moments, (adds_of_leads (leads_freshId.bind_of_silent hadded) hbatch hcalls).one⟩

theorem exists_addsOne_addWithId (id : String) (vector : FeatureVector) (w : World σ) :
    ∃ moments, set.AddsOne env (set.addWithId id vector) w 0 ⟨id, vector, none⟩ () moments := by
  obtain ⟨moments, answers, v, hbatch, hcalls⟩ := set.leads_single env id vector none w
  exact ⟨moments, (adds_of_leads hbatch hbatch hcalls).one⟩

/-- Additions under new ids, on any backend.  A list of vectors goes as the batch that has the drawn
ids at its places: those that can be stored are offered in order, each under the id and with the
metadata of its place, and the ids are returned for all of them.  A single vector is offered at most
once, under the id that is returned for it.  An error of the backend is returned as it is, and there
is no other error. -/
theorem additions_offer_returned_ids (w : World σ) :
    (∀ vectors metadata, (env.nextIds w.drawn vectors.length).length = vectors.length ∧
      ∃ moments, set.Adds env (set.addBatch vectors metadata) w vectors.length
        (.named (env.nextIds w.drawn vectors.length) vectors metadata)
        (storable (env.nextIds w.drawn vectors.length) vectors metadata)
        (env.nextIds w.drawn vectors.length) moments) ∧
    (∀ vector, ∃ moments, set.AddsOne env (set.add vector) w 1
      ⟨env.ids w.drawn, vector, none⟩ (env.ids w.drawn) moments) ∧
    (∀ vector metadata, ∃ moments, set.AddsOne env (set.addWithMetadata vector metadata) w 1
      ⟨env.ids w.drawn, vector, some metadata⟩ (env.ids w.drawn) moments) ∧
    (∀ id vector, ∃ moments, set.AddsOne env (set.addWithId id vector) w 0
      ⟨id, vector, none⟩ () moments) := by
  refine ⟨fun vectors metadata => ⟨env.length_nextIds _ _, ?_⟩, fun vector => ?_,
    fun vector metadata => ?_, fun id vector => ?_⟩
  · exact exists_adds_addBatch env set vectors metadata w
  · exact exists_addsOne_addFresh env set vector none w
  · rw [← addFresh_some]
    exact exists_addsOne_addFresh env set vector (some metadata) w
  · exact exists_addsOne_addWithId env set id vector w

end Operations

end VectorSet

end SimilarityStore.Store
