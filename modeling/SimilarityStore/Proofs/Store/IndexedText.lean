import SimilarityStore.Proofs.Store.NewIds
import SimilarityStore.Proofs.Store.StoredBatch
import SimilarityStore.Store.TextIndex

/-
  Texts that are indexed in memory.  A text whose embedding can be stored is there afterwards, under
  the id that is returned and with exactly the metadata that were given; an error leaves the memory
  as it was.  But an embedding that cannot be stored is skipped like an element of a batch: an id is
  returned and nothing is stored (`Indexes.skipped`, `unfit_embedding_is_not_stored`).  Main
  statement: `indexed_text_is_stored_or_skipped`.
-/

namespace SimilarityStore.Store

open SimilarityStore.Numeric SimilarityStore.Text
open Program (Leads leads_pure leads_freshId leads_report)

/-! ## One entry under a new id -/

section Single

variable (drawn : Nat → String) (id : String) {vector : FeatureVector} (metadata : Option Metadata)

theorem Batch.resolve_single_valid (h : vector.fault? = none) :
    (Batch.single id vector metadata).resolve drawn 0 = .ok ⟨id, vector, metadata⟩ := by
  have hvalid : (Batch.single id vector metadata).HasValid 0 vector := ⟨rfl, h⟩
  rw [resolve_of_valid hvalid]
  cases metadata <;> rfl

theorem Batch.resolve_single_invalid {fault : InputFault} (h : vector.fault? = some fault) :
    (Batch.single id vector metadata).resolve drawn 0 = .error (.vectorInvalid 0 id fault) := by
  have hvector : (Batch.single id vector metadata).vector? 0 = some vector := rfl
  simp only [resolve, hvector, h]
  rfl

end Single

namespace VectorSet

variable (set : VectorSet) (vector : FeatureVector) (metadata : Option Metadata)

/-- A vector that cannot be stored is skipped: there are only reports. -/
theorem leads_single_skipped {σ : Type} (env : Environment σ) (w : World σ) (id : String)
    {vector : FeatureVector} {fault : InputFault} (h : vector.fault? = some fault) :
    Leads env (set.addBatchWithIds (Batch.single id vector metadata).ids
        (Batch.single id vector metadata).vectors (Batch.single id vector metadata).metadata) w
      [.report (.vectorInvalid 0 id fault), .report (.batchAdded set.key 0 1)] (.ok ()) w := by
  have hresolve := Batch.resolve_single_invalid (fun n => env.ids (w.drawn + n)) id metadata h
  have hitem := leads_addItem_skipped env set _ w.drawn 0 w.state hresolve
  have hnone : Leads env (set.addItems []) w [] (.ok 0) w := leads_pure 0
  have hitems := leads_addItems_cons env set hitem hnone
  exact hitems.bind (leads_report _)

/-- A vector that cannot be stored has an id drawn for it all the same. -/
theorem leads_addFresh_skipped {σ : Type} (env : Environment σ) (w : World σ)
    {vector : FeatureVector} {fault : InputFault} (h : vector.fault? = some fault) :
    Leads env (set.addFresh vector metadata) w
      [.report (.vectorInvalid 0 (env.ids w.drawn) fault), .report (.batchAdded set.key 0 1)]
      (.ok (env.ids w.drawn)) ⟨w.state, w.drawn + 1⟩ :=
  leads_freshId.bind
    ((leads_single_skipped set metadata env _ (env.ids w.drawn) h).bind (leads_pure _))

variable (embedder : String → Except StoreError FeatureVector) (ids : Nat → String)

/-- A vector that can be stored is added to the memory, whose error is that of the operation. -/
theorem leads_addFresh_valid (w : World Memory) {vector : FeatureVector}
    (h : vector.fault? = none) :
    ∃ moments v, Leads (Memory.environment embedder ids) (set.addFresh vector metadata) w moments
        ((w.state.add set.key ⟨ids w.drawn, vector, metadata⟩).1.map fun _ => ids w.drawn) v ∧
      v.state = (w.state.add set.key ⟨ids w.drawn, vector, metadata⟩).2 := by
  let b := Batch.single (ids w.drawn) vector metadata
  let after := set.runBatch embedder ids b ⟨w.state, w.drawn + 1⟩
  have hentries : b.entries (fun n => ids (w.drawn + 1 + n)) 0 1 =
      [⟨ids w.drawn, vector, metadata⟩] :=
    Batch.entries_offered (Batch.resolve_single_valid _ (ids w.drawn) metadata h)
  have hrun := set.runBatch_eq embedder ids b ⟨w.state, w.drawn + 1⟩
  rw [show b.vectors.length = 1 from rfl, hentries, Memory.addEach_singleton, Prod.mk.injEq] at hrun
  have hbatch : Leads (Memory.environment embedder ids)
      (set.addBatchWithIds b.ids b.vectors b.metadata) ⟨w.state, w.drawn + 1⟩ _ after.result
      after.world := ⟨rfl, rfl, rfl⟩
  have hresult : after.result.map (fun _ => ids w.drawn) =
      (w.state.add set.key ⟨ids w.drawn, vector, metadata⟩).1.map fun _ => ids w.drawn := by
    rw [hrun.1]
    cases (w.state.add set.key ⟨ids w.drawn, vector, metadata⟩).1 <;> rfl
  have hmapped := hbatch.map fun _ => ids w.drawn
  rw [hresult] at hmapped
  exact ⟨_, after.world, leads_freshId.bind hmapped, hrun.2⟩

end VectorSet

/-! ## Texts -/

namespace TextIndex

/-- What the embedding of a text comes to: it must be of the declared dimension. -/
def embedding (index : TextIndex) (embedder : String → Except StoreError FeatureVector)
    (text : String) : Except StoreError FeatureVector :=
  if isBlankText text then .error (.invalidInput InputFault.blankText.message)
  else
    match embedder text with
    | .error e => .error e
    | .ok vector =>
      if vector.dimension = index.dimension then .ok vector
      else .error (.dimensionMismatch index.dimension vector.dimension)

variable (index : TextIndex)

theorem embedding_eq_ok_iff {embedder : String → Except StoreError FeatureVector} {text : String}
    {vector : FeatureVector} :
    index.embedding embedder text = .ok vector ↔
      isBlankText text = false ∧ embedder text = .ok vector ∧
        vector.dimension = index.dimension := by
  unfold embedding
  split
  · next hblank => simp [hblank]
  · next hblank =>
    split
    · next e he => simp [he]
    · next other hother =>
      simp only [hother, Except.ok.injEq, Bool.eq_false_iff.2 hblank, true_and]
      split
      · next hd =>
        rw [Except.ok.injEq, iff_self_and]
        rintro rfl
        exact hd
      · next hd =>
        refine ⟨fun h => (by cases h), ?_⟩
        rintro ⟨rfl, h⟩
        exact absurd h hd

/-- The embedder is asked for a text, unless that is blank, and nothing else happens. -/
theorem leads_embed {σ : Type} (env : Environment σ) (text : String) (w : World σ) :
    Leads env (index.embed text) w (if isBlankText text then [] else [.embed text])
      (index.embedding env.embedder text) w := by
  unfold embed embedding
  split
  · exact Program.leads_ofExcept env w _
  · have hvector : Leads env (Program.vectorOf text) w [.embed text] (env.embedder text) w :=
      ⟨rfl, rfl, rfl⟩
    cases hanswer : env.embedder text with
    | error e =>
      rw [hanswer] at hvector
      exact hvector.bind_error
    | ok vector =>
      rw [hanswer] at hvector
      have hchecked : Leads env
          (if vector.dimension = index.dimension then pure vector
            else Program.fail (.dimensionMismatch index.dimension vector.dimension)) w []
          (if vector.dimension = index.dimension then .ok vector
            else .error (.dimensionMismatch index.dimension vector.dimension)) w := by
        split
        · exact leads_pure vector
        · exact Program.leads_ofExcept env w _
      exact hvector.bind hchecked

/-- What is done with the embedding of a text. -/
def keep (metadata : Option Metadata) (vector : FeatureVector) : Program String := do
  let id ← index.set.addFresh vector metadata
  Program.report (.textIndexed id)
  return id

theorem addText_eq (text : String) (metadata : Option Metadata) :
    index.addText text metadata = index.embed text >>= index.keep metadata := by
  unfold keep
  cases metadata with
  | none => rfl
  | some metadata => simp only [VectorSet.addFresh_some]; rfl

variable (embedder : String → Except StoreError FeatureVector) (ids : Nat → String)

/-- What has become of a text that was to be stored with metadata, from a run of the operation. -/
structure Indexes (text : String) (metadata : Option Metadata) (w : World Memory)
    (after : Outcome Memory String) : Prop where
  /-- An id is returned for a text that is not blank and has an embedding of the declared dimension,
  which cannot be stored or fits the vectors that are. -/
  returned : (∃ id, after.result = .ok id) ↔
    isBlankText text = false ∧ ∃ vector, embedder text = .ok vector ∧
      vector.dimension = index.dimension ∧ (vector.fault? = none →
        Memory.checkDimension (w.state.elements index.set.key) vector.dimension = .ok ())
  /-- An embedding that can be stored is there under the id that is returned, with exactly the
  metadata, and everything else stays. -/
  stored : ∀ id vector, after.result = .ok id → embedder text = .ok vector →
    vector.fault? = none →
      (Memory.answer (.fetch index.set.key id) after.world.state).1 = .ok (some vector) ∧
      after.world.state.element? index.set.key id = some ⟨vector, metadata.map Metadata.raw⟩ ∧
      ∀ key other, ¬ (index.set.key = key ∧ id = other) →
        after.world.state.element? key other = w.state.element? key other
  /-- An embedding that cannot be stored is not, although an id is returned and the text is reported
  as indexed: only a warning tells. -/
  skipped : ∀ id vector fault, after.result = .ok id → embedder text = .ok vector →
    vector.fault? = some fault →
      after.world.state = w.state ∧ .log (.vectorInvalid 0 id fault) ∈ after.trace ∧
        .log (.textIndexed id) ∈ after.trace
  /-- An error changes nothing. -/
  refused : ∀ e, after.result = .error e → after.world.state = w.state

variable {index embedder}

/-- A text without an embedding of the declared dimension is an error that changes nothing. -/
theorem indexes_of_unembedded {text : String} {metadata : Option Metadata} {w : World Memory}
    {after : Outcome Memory String} {e : StoreError} (h : index.embedding embedder text = .error e)
    (hresult : after.result = .error e) (hworld : after.world = w) :
    index.Indexes embedder text metadata w after where
  returned := by
    constructor
    · rintro ⟨id, hid⟩
      cases hid.symm.trans hresult
    · rintro ⟨hblank, vector, hvector, hd, -⟩
      cases h.symm.trans (index.embedding_eq_ok_iff.2 ⟨hblank, hvector, hd⟩)
  stored id vector hid := by cases hid.symm.trans hresult
  skipped id vector fault hid := by cases hid.symm.trans hresult
  refused _ _ := by rw [hworld]

/-- A text whose embedding cannot be stored. -/
theorem indexes_of_invalid {text : String} {metadata : Option Metadata} {w : World Memory}
    {after : Outcome Memory String} {vector : FeatureVector} {fault : InputFault} {id : String}
    (h : index.embedding embedder text = .ok vector) (hfault : vector.fault? = some fault)
    (hresult : after.result = .ok id) (hstate : after.world.state = w.state)
    (hwarned : .log (.vectorInvalid 0 id fault) ∈ after.trace)
    (hreported : .log (.textIndexed id) ∈ after.trace) :
    index.Indexes embedder text metadata w after where
  returned := by
    obtain ⟨hblank, hvector, hd⟩ := index.embedding_eq_ok_iff.1 h
    refine ⟨fun _ => ⟨hblank, vector, hvector, hd, fun hnone => ?_⟩, fun _ => ⟨id, hresult⟩⟩
    cases hnone.symm.trans hfault
  stored other v hid hv hnone := by
    obtain rfl := Except.ok.inj ((index.embedding_eq_ok_iff.1 h).2.1.symm.trans hv)
    cases hnone.symm.trans hfault
  skipped other v f hid hv hf := by
    obtain rfl := Except.ok.inj (hresult.symm.trans hid)
    obtain rfl := Except.ok.inj ((index.embedding_eq_ok_iff.1 h).2.1.symm.trans hv)
    obtain rfl := Option.some.inj (hfault.symm.trans hf)
    exact ⟨hstate, hwarned, hreported⟩
  refused _ _ := hstate

/-- A text whose embedding can be stored is added to the memory. -/
theorem indexes_of_valid {text : String} {metadata : Option Metadata} {w : World Memory}
    {after : Outcome Memory String} {vector : FeatureVector} {id : String}
    (h : index.embedding embedder text = .ok vector) (hfault : vector.fault? = none)
    (hresult : after.result =
      (w.state.add index.set.key ⟨id, vector, metadata⟩).1.map fun _ => id)
    (hstate : after.world.state = (w.state.add index.set.key ⟨id, vector, metadata⟩).2) :
    index.Indexes embedder text metadata w after := by
  obtain ⟨hblank, hvector, hd⟩ := index.embedding_eq_ok_iff.1 h
  cases hcheck : Memory.checkDimension (w.state.elements index.set.key) vector.dimension with
  | error e =>
    rw [Memory.add_of_error hcheck] at hresult hstate
    exact {
      returned := by
        constructor
        · rintro ⟨other, hother⟩
          cases hother.symm.trans hresult
        · rintro ⟨-, v, hv, -, hfits⟩
          obtain rfl := Except.ok.inj (hvector.symm.trans hv)
          cases (hfits hfault).symm.trans hcheck
      stored := fun other v hother => by cases hother.symm.trans hresult
      skipped := fun other v fault hother => by cases hother.symm.trans hresult
      refused := fun _ _ => hstate }
  | ok u =>
    rw [Memory.add_fst, hcheck] at hresult
    have hfits : Memory.checkDimension (w.state.elements index.set.key)
        (Entry.mk id vector metadata).vector.dimension = .ok () := hcheck
    have helement := Memory.element?_add hfits
    exact {
      returned := by
        refine ⟨fun _ => ⟨hblank, vector, hvector, hd, fun _ => ?_⟩, fun _ => ⟨id, hresult⟩⟩
        exact hcheck
      stored := fun other v hother hv _ => by
        obtain rfl := Except.ok.inj (hresult.symm.trans hother)
        obtain rfl := Except.ok.inj (hvector.symm.trans hv)
        have hthere : after.world.state.element? index.set.key id =
            some ⟨vector, metadata.map Metadata.raw⟩ := by
          rw [hstate, helement, if_pos ⟨rfl, rfl⟩]
        refine ⟨?_, hthere, fun key name hne => ?_⟩
        · rw [Memory.answer_fetch, hthere]
          rfl
        · rw [hstate, helement, if_neg hne]
      skipped := fun other v fault _ hv hf => by
        obtain rfl := Except.ok.inj (hvector.symm.trans hv)
        cases hfault.symm.trans hf
      refused := fun e he => by cases he.symm.trans hresult }

variable (index embedder) in
/-- What becomes of a text, whatever the embedder does and whatever is stored. -/
theorem indexes_addText (text : String) (metadata : Option Metadata) (w : World Memory) :
    index.Indexes embedder text metadata w
      ((index.addText text metadata).run (Memory.environment embedder ids) w) := by
  have hembed := index.leads_embed (Memory.environment embedder ids) text w
  have hanswer : index.embedding (Memory.environment embedder ids).embedder text =
      index.embedding embedder text := rfl
  rw [hanswer] at hembed
  rw [addText_eq]
  cases h : index.embedding embedder text with
  | error e =>
    rw [h] at hembed
    have hrun := hembed.bind_error (f := index.keep metadata)
    exact indexes_of_unembedded h hrun.result hrun.world
  | ok vector =>
    rw [h] at hembed
    cases hfault : vector.fault? with
    | some fault =>
      have hadded := VectorSet.leads_addFresh_skipped index.set metadata
        (Memory.environment embedder ids) w hfault
      have hrun := hembed.bind (f := index.keep metadata) (hadded.closing Event.textIndexed id)
      refine indexes_of_invalid h hfault hrun.result (by rw [hrun.world]) ?_ ?_
      · rw [Program.trace_run, hrun.dialogue]
        simp [Moment.steps]
      · rw [Program.trace_run, hrun.dialogue]
        simp [Program.closing, Moment.steps]
    | none =>
      obtain ⟨moments, v, hadded, hstate⟩ :=
        VectorSet.leads_addFresh_valid index.set metadata embedder ids w hfault
      have hrun := hembed.bind (f := index.keep metadata) (hadded.closing Event.textIndexed id)
      rw [Except.map_id] at hrun
      refine indexes_of_valid h hfault hrun.result ?_
      rw [hrun.world, hstate]

variable (index embedder) in
/-- A text that is indexed in memory, with metadata, without, or with a record: if its embedding can
be stored, it is there under the id that is returned, with exactly the metadata or the record's
document; an error changes nothing.  But an embedding that cannot be stored is skipped, and an id is
returned all the same. -/
theorem indexed_text_is_stored_or_skipped (text : String) (w : World Memory) :
    (∀ metadata, index.Indexes embedder text metadata w
      ((index.addText text metadata).run (Memory.environment embedder ids) w)) ∧
    (∀ record : Json.Value, index.Indexes embedder text (some ⟨record.write⟩) w
      ((index.addRecord text (some record)).run (Memory.environment embedder ids) w)) ∧
    (((index.addRecord text none).run (Memory.environment embedder ids) w).result =
        .error .serialization ∧
      ((index.addRecord text none).run (Memory.environment embedder ids) w).world = w) := by
  refine ⟨fun metadata => ?_, fun record => ?_, rfl, rfl⟩
  · exact index.indexes_addText embedder ids text metadata w
  · exact index.indexes_addText embedder ids text (some ⟨record.write⟩) w

/-! ## Two texts -/

theorem eq_ok_of_toOption {ε α : Type} {r : Except ε α} {a : α} (h : r.toOption = some a) :
    r = .ok a := by
  cases r with
  | error e => cases h
  | ok b => rw [Option.some.inj h]

/-- The index of a model whose vectors are declared to have one component. -/
def scalarIndex : TextIndex := ⟨⟨"k"⟩, 1⟩

/-- An embedding with one component is stored under the id that is returned. -/
theorem fitting_embedding_is_stored :
    let after := (scalarIndex.addText "t" (some ⟨"m"⟩)).run
      (Memory.environment (fun _ => .ok ⟨[1]⟩) decimalText) ⟨Memory.empty, 0⟩
    after.result = .ok "0" ∧ after.world.state.element? "k" "0" = some ⟨⟨[1]⟩, some "m"⟩ := by
  have hresult : ((scalarIndex.addText "t" (some ⟨"m"⟩)).run
      (Memory.environment (fun _ => .ok ⟨[1]⟩) decimalText) ⟨Memory.empty, 0⟩).result =
        .ok "0" := eq_ok_of_toOption (by decide +kernel)
  obtain ⟨haccount, -⟩ := indexed_text_is_stored_or_skipped scalarIndex (fun _ => .ok ⟨[1]⟩)
    decimalText "t" ⟨Memory.empty, 0⟩
  have hstored := (haccount (some ⟨"m"⟩)).stored "0" ⟨[1]⟩ hresult rfl (by decide +kernel)
  exact ⟨hresult, hstored.2.1⟩

/-- An embedding whose component is no number is not stored, although an id is returned. -/
theorem unfit_embedding_is_not_stored :
    let after := (scalarIndex.addText "t" none).run
      (Memory.environment (fun _ => .ok ⟨[FloatingPoint.notANumber]⟩) decimalText)
      ⟨Memory.empty, 0⟩
    after.result = .ok "0" ∧ (Memory.answer (.fetch "k" "0") after.world.state).1 = .ok none :=
  ⟨eq_ok_of_toOption (by decide +kernel), eq_ok_of_toOption (by decide +kernel)⟩

end TextIndex

end SimilarityStore.Store
