import SimilarityStore.Proofs.Store.Footprints
import SimilarityStore.Proofs.Store.IndexedText

/-
  Operations on texts over any backend.  The embedder is asked first, once, and never for a blank
  text.  What is wrong with the text or its embedding is an error that the vector set does not hear
  of; on an embedding of the declared dimension an operation goes as that of the vector set does,
  from the same world and step by step (`TextIndex.goesOnEmbedding_bind`).  The vector set itself
  never asks the embedder (`Program.NeverAsks`).  Main statement: `texts_go_as_their_embeddings`.
-/

namespace SimilarityStore.Store

open SimilarityStore.Numeric SimilarityStore.Text

/-! ## Asking the embedder -/

/-- The texts that the embedder is asked for, in order. -/
def askedTexts (steps : List Step) : List String :=
  steps.filterMap fun
    | .embed text => some text
    | _ => none

theorem askedTexts_append (steps more : List Step) :
    askedTexts (steps ++ more) = askedTexts steps ++ askedTexts more := List.filterMap_append

theorem askedTexts_logs (events : List Event) : askedTexts (events.map .log) = [] := by
  rw [askedTexts, List.filterMap_map, List.filterMap_eq_nil_iff]
  exact fun _ _ => rfl

namespace Program

/-- No step of a program that never asks the embedder asks it, whatever backend it is run with. -/
theorem NeverAsks.askedTexts_run {σ α : Type} {p : Program α} (hp : p.NeverAsks)
    (env : Environment σ) (w : World σ) : askedTexts (p.run env w).trace = [] := by
  induction hp generalizing w with
  | done result => rfl
  | call _ _ ih =>
    rw [run_call, Outcome.trace_after, askedTexts_append, ih]
    exact (List.append_nil _).trans (askedTexts_logs _)
  | fresh _ _ ih => exact ih _ _
  | log event _ ih => exact ih w

end Program

/-! ## Operations on texts -/

/-- The outcome with an event of its result at the end, unless it failed. -/
def Outcome.closing {σ α : Type} (o : Outcome σ α) (event : α → Event) : Outcome σ α :=
  { o with trace := o.trace ++ (Program.closing event o.result).map .log }

theorem Program.run_closing {σ α : Type} (env : Environment σ) (w : World σ) (p : Program α)
    (event : α → Event) :
    (p >>= fun a => report (event a) >>= fun _ => pure a).run env w =
      (p.run env w).closing event := by
  rw [run_bind, Outcome.andThen, Outcome.closing]
  cases h : (p.run env w).result with
  | error e => rw [Program.closing, List.map_nil, List.append_nil]
  | ok a => rfl

namespace TextIndex

variable {σ α : Type} (env : Environment σ) (index : TextIndex) (text : String) (w : World σ)

/-- An operation on a text fails before it comes to the vector set, or goes as an operation on the
embedding does.  The embedder is asked once, unless the text is blank. -/
structure GoesOnEmbedding (p : Program α) (onward : FeatureVector → Outcome σ α) : Prop where
  /-- A blank text is invalid input, and nothing happens at all. -/
  blank : isBlankText text = true →
    p.run env w = ⟨.error (.invalidInput "text cannot be empty"), w, []⟩
  /-- An error of the embedder is returned. -/
  unembedded : ∀ e, isBlankText text = false → env.embedder text = .error e →
    p.run env w = ⟨.error e, w, [.embed text]⟩
  /-- An embedding of another dimension than the declared one is an error with both. -/
  misfit : ∀ vector, isBlankText text = false → env.embedder text = .ok vector →
    vector.dimension ≠ index.dimension →
    p.run env w =
      ⟨.error (.dimensionMismatch index.dimension vector.dimension), w, [.embed text]⟩
  /-- On every other embedding the result, the world and the steps that show are those of the
  operation on it. -/
  embedded : ∀ vector, isBlankText text = false → env.embedder text = .ok vector →
    vector.dimension = index.dimension → p.run env w = (onward vector).after [.embed text]
  once : askedTexts (p.run env w).trace = if isBlankText text then [] else [text]

/-- What follows the embedding of a text is not run after an error, and from the same world
otherwise. -/
theorem run_embed_bind (f : FeatureVector → Program α) :
    (index.embed text >>= f).run env w =
      ((match index.embedding env.embedder text with
        | .error e => ⟨.error e, w, []⟩
        | .ok vector => (f vector).run env w : Outcome σ α)).after
          (if isBlankText text then [] else [.embed text]) := by
  have hsteps : (if isBlankText text then [] else [Moment.embed text]).flatMap Moment.steps =
      if isBlankText text then [] else [.embed text] := by
    split <;> rfl
  rw [Program.run_bind, (index.leads_embed env text w).run_eq, hsteps, Outcome.andThen]
  cases index.embedding env.embedder text with
  | error e => simp [Outcome.after]
  | ok vector => rfl

/-- A program that goes on from the embedding of a text, without asking for another. -/
theorem goesOnEmbedding_bind {f : FeatureVector → Program α}
    {onward : FeatureVector → Outcome σ α} (hrun : ∀ vector, (f vector).run env w = onward vector)
    (hnever : ∀ vector, (f vector).NeverAsks) :
    GoesOnEmbedding env index text w (index.embed text >>= f) onward where
  blank hblank := by
    rw [run_embed_bind, embedding, if_pos hblank, if_pos hblank]
    rfl
  unembedded e hblank he := by
    rw [run_embed_bind, embedding, hblank, he]
    rfl
  misfit vector hblank hvector hd := by
    rw [run_embed_bind, embedding, hblank, hvector]
    simp [hd, Outcome.after]
  embedded vector hblank hvector hd := by
    have hembedding := index.embedding_eq_ok_iff.2 ⟨hblank, hvector, hd⟩
    rw [run_embed_bind, hembedding, hblank]
    exact congrArg (Outcome.after [.embed text]) (hrun vector)
  once := by
    rw [run_embed_bind, Outcome.trace_after, askedTexts_append]
    have hafter : askedTexts (match index.embedding env.embedder text with
        | .error e => ⟨.error e, w, []⟩
        | .ok vector => (f vector).run env w : Outcome σ α).trace = [] := by
      cases index.embedding env.embedder text with
      | error e => rfl
      | ok vector => exact (hnever vector).askedTexts_run env w
    rw [hafter, List.append_nil]
    split <;> rfl

theorem goesOnEmbedding_addText (metadata : Option Metadata) :
    GoesOnEmbedding env index text w (index.addText text metadata)
      fun vector => ((index.set.addFresh vector metadata).run env w).closing .textIndexed := by
  rw [addText_eq]
  refine goesOnEmbedding_bind env index text w (fun vector => ?_) fun vector => ?_
  · exact Program.run_closing env w (index.set.addFresh vector metadata) .textIndexed
  · exact (index.set.neverAsks_addFresh vector metadata).bind fun _ =>
      (Program.within_report _).bind fun _ => Program.within_pure _

/-- What is asked for with an embedding: a filter, a greatest number of matches, and no least
score. -/
def nearest (vector : FeatureVector) (filter : Option Filter.Expr) (maxResults : Nat) :
    SearchRequest :=
  { query := some vector, filter := filter, maxResults := maxResults }

/-- A search for an embedding is not bounded in distance. -/
theorem tolerance_nearest (vector : FeatureVector) (filter : Option Filter.Expr)
    (maxResults : Nat) : (nearest vector filter maxResults).tolerance = none := by
  have hzero : FloatingPoint.isLess (FloatingPoint.ofInt 0 : Float) (FloatingPoint.ofInt 0) =
      false := by decide +kernel
  rw [SearchRequest.tolerance, nearest, hzero]
  rfl

/-- A text is added or looked up, over any backend, as its embedding is.  A blank text, an error of
the embedder and an embedding of another dimension than the declared one are errors, in this order,
and the vector set does not hear of them; nor does it of a record without a document, whatever the
text.  Otherwise an addition goes as that of the embedding does, with the metadata or the record's
document, and the text is reported as indexed at its end; a search goes as one for the embedding
does, with the filter and the greatest number of matches that are given, and no distance is too
great. -/
theorem texts_go_as_their_embeddings :
    GoesOnEmbedding env index text w (index.addText text none)
        (fun vector => ((index.set.add vector).run env w).closing .textIndexed) ∧
      (∀ metadata, GoesOnEmbedding env index text w (index.addText text (some metadata))
        fun vector =>
          ((index.set.addWithMetadata vector metadata).run env w).closing .textIndexed) ∧
      (∀ record, GoesOnEmbedding env index text w (index.addRecord text (some record))
        fun vector =>
          ((index.set.addWithMetadata vector (.ofRecord record)).run env w).closing
            .textIndexed) ∧
      (index.addRecord text none).run env w = ⟨.error .serialization, w, []⟩ ∧
      ∀ filter maxResults,
        GoesOnEmbedding env index text w (index.searchText text filter maxResults)
          (fun vector => (index.set.search (some (nearest vector filter maxResults))).run env w) ∧
        ∀ vector, (nearest vector filter maxResults).tolerance = none := by
  refine ⟨?_, fun metadata => ?_, fun record => ?_, rfl, fun filter maxResults => ⟨?_, ?_⟩⟩
  · exact goesOnEmbedding_addText env index text w none
  · simp only [← VectorSet.addFresh_some]
    exact goesOnEmbedding_addText env index text w (some metadata)
  · simp only [← VectorSet.addFresh_some]
    exact goesOnEmbedding_addText env index text w (some (.ofRecord record))
  · exact goesOnEmbedding_bind env index text w (fun _ => rfl) fun vector =>
      (index.set.reads_search _).neverAsks
  · exact fun vector => tolerance_nearest vector filter maxResults

end TextIndex

end SimilarityStore.Store
