import SimilarityStore.Proofs.Filter.Compilation
import SimilarityStore.Proofs.Store.LiveEntries
import SimilarityStore.Proofs.Store.Ranking

/-
  Search results.  After any run of operations on the memory, a search answers with the best live
  entries that the request selects, in their ranked order.  Through all layers: the filter's text is
  read back as its term, the memory ranks what it admits, and each hit becomes a match with the
  vector that is stored for it.
-/

namespace SimilarityStore.Store

open SimilarityStore.Numeric SimilarityStore.Predicate
open SimilarityStore.Filter (memberOf?)
open Std (ExtTreeMap)

/-! ## What a request selects -/

/-- The match of an entry for a query. -/
def Entry.toMatch (query : FeatureVector) (entry : Entry) : Match :=
  ⟨entry.id, query.score entry.vector, entry.vector, entry.metadata⟩

namespace SearchRequest

/-- Whether a score reaches the least score, if that lies strictly between zero and one. -/
def IsReachedBy (r : SearchRequest) (score : Float) : Prop :=
  FloatingPoint.isLess (FloatingPoint.ofInt 0) r.minScore = true →
    FloatingPoint.isLess r.minScore (FloatingPoint.ofInt 1) = true →
      FloatingPoint.isAtLeast score (FloatingPoint.ofInt 1 - (FloatingPoint.ofInt 1 - r.minScore)) =
        true

/-- Whether the filter admits an entry; a filter that does not compile admits every entry. -/
def Admits (r : SearchRequest) (entry : Entry) : Prop :=
  ∀ filter text, r.filter = some filter → filter.compile = .ok text →
    filter.Admits (memberOf? (entry.metadata.map Metadata.raw))

/-- Every filter that compiles has names as keys and no double quote in its texts. -/
def IsWritable (r : SearchRequest) : Prop :=
  ∀ filter text, r.filter = some filter → filter.compile = .ok text → filter.IsWritable

/-- The text of the filter, if there is one that compiles. -/
def filterText? (r : SearchRequest) : Option String :=
  match r.filter with
  | none => none
  | some filter => filter.compile.toOption

/-- The parameters of the search that the memory is asked for. -/
def parameters (r : SearchRequest) : Parameters := ⟨r.maxResults, r.tolerance, r.filterText?⟩

/-- The filter's text is read, and its term passes the entries that the filter admits. -/
theorem exists_readFilter {r : SearchRequest} (hw : r.IsWritable) :
    ∃ term, Memory.readFilter r.filterText? = .ok term ∧ ∀ entry : Entry,
      (term.all fun t => t.accepts (entry.metadata.map Metadata.raw)) = true ↔
        r.Admits entry := by
  unfold filterText? Admits
  unfold IsWritable at hw
  cases hf : r.filter with
  | none => exact ⟨none, rfl, fun entry => by simp⟩
  | some filter =>
    cases hc : filter.compile with
    | error obstacle =>
      refine ⟨none, by simp [hc, Except.toOption, Memory.readFilter], fun entry => ?_⟩
      simp only [Option.all_none, true_iff]
      intro other text hother htext
      obtain rfl := Option.some.inj hother
      rw [hc] at htext
      cases htext
    | ok text =>
      obtain ⟨term, hterm, hread⟩ := filter.read_compile hc (hw filter text hf hc)
      refine ⟨some term, by simp [hc, Except.toOption, Memory.readFilter, hread], fun entry => ?_⟩
      rw [Option.all_some, filter.accepts_iff hterm]
      constructor
      · intro h other text hother htext
        obtain rfl := Option.some.inj hother
        exact h
      · intro h
        exact h filter text rfl hc

theorem tolerance_iff (r : SearchRequest) (score : Float) :
    (r.tolerance.all fun t => FloatingPoint.isAtLeast score (FloatingPoint.ofInt 1 - t)) = true ↔
      r.IsReachedBy score := by
  unfold tolerance IsReachedBy
  split
  · next h =>
    rw [Bool.and_eq_true] at h
    simp [h.1, h.2]
  · next h =>
    rw [Bool.and_eq_true, not_and] at h
    simp only [Option.all_none, true_iff]
    exact fun h0 h1 => absurd h1 (h h0)

end SearchRequest

/-! ## Running a search -/

namespace VectorSet

open Program (Returns returns_pure)

variable {embedder : String → Except StoreError FeatureVector} {ids : Nat → String}
  {set : VectorSet} {w : World Memory}

theorem returns_filterText (r : SearchRequest) :
    Returns (Memory.environment embedder ids) (set.filterText r.filter) w r.filterText? w := by
  unfold SearchRequest.filterText?
  cases r.filter with
  | none => exact ⟨rfl, rfl⟩
  | some filter =>
    dsimp only
    rw [filterText_some]
    cases filter.compile <;> exact ⟨rfl, rfl⟩

/-- The match of a candidate, with the vector that the memory has for its id. -/
def candidateMatch (m : Memory) (key : String) (c : Candidate) : Match :=
  ⟨c.id, c.score, (m.fetch key c.id).getD ⟨[]⟩, c.attributes.map Metadata.mk⟩

theorem returns_reconstructAll (cs : List Candidate) :
    Returns (Memory.environment embedder ids) (set.reconstructAll (cs.map Candidate.toHit)) w
      (cs.map (candidateMatch w.state set.key)) w := by
  induction cs with
  | nil => exact returns_pure []
  | cons c cs ih =>
    have head : Returns (Memory.environment embedder ids) (set.reconstruct c.toHit) w
        (some (candidateMatch w.state set.key c)) w := ⟨rfl, rfl⟩
    exact head.bind (ih.bind (returns_pure _))

/-- A search whose query can be looked up answers with the matches of the memory's hits. -/
theorem returns_search {r : SearchRequest} {query : FeatureVector} {cs : List Candidate}
    (hquery : r.query = some query) (hvalid : query.validate = .ok ())
    (hhits : w.state.search set.key query r.parameters = .ok (cs.map Candidate.toHit)) :
    Returns (Memory.environment embedder ids) (set.search (some r)) w
      (cs.map (candidateMatch w.state set.key)) w := by
  unfold search
  simp only [hquery]
  have validated : Returns (Memory.environment embedder ids) (Program.ofExcept query.validate) w
      () w := ⟨hvalid, rfl⟩
  have hits : Returns (Memory.environment embedder ids)
      (Program.perform (.search set.key query r.parameters)) w (cs.map Candidate.toHit) w :=
    ⟨hhits, rfl⟩
  exact validated.bind ((returns_filterText r).bind (hits.bind ((returns_reconstructAll cs).bind
    ⟨rfl, rfl⟩)))

/-- The candidate of an entry that the memory holds becomes the entry's match. -/
theorem candidateMatch_element {m : Memory} {key : String} {entry : Entry} (query : FeatureVector)
    (h : m.element? key entry.id = some entry.element) :
    candidateMatch m key (Memory.candidate query entry.id entry.element) = entry.toMatch query := by
  have hmetadata : (entry.metadata.map Metadata.raw).map Metadata.mk = entry.metadata := by
    cases entry.metadata <;> rfl
  simp only [candidateMatch, Memory.candidate, Memory.fetch_eq, h, Option.map_some,
    Option.getD_some, Entry.toMatch]
  rw [Entry.element, hmetadata]

/-- The memory admits the candidate of an entry when the request selects the entry. -/
theorem admits_iff {r : SearchRequest} {term : Option Term} (query : FeatureVector)
    (hterm : ∀ entry : Entry,
      (term.all fun t => t.accepts (entry.metadata.map Metadata.raw)) = true ↔ r.Admits entry)
    (entry : Entry) :
    Memory.admits r.parameters.tolerance term (Memory.candidate query entry.id entry.element) =
        true ↔
      r.Admits entry ∧ r.IsReachedBy (query.score entry.vector) := by
  simp only [Memory.admits, Memory.candidate, Entry.element, SearchRequest.parameters,
    Bool.and_eq_true, r.tolerance_iff]
  rw [hterm, and_comm]

/-- After any operations on a memory that was empty, whatever they ended with, the live entries are
those whose last addition that the memory carried out no removal follows.  A search whose query can
be looked up and fits, whose filter can be written if it compiles, and whose scores are numbers,
succeeds.  It answers with the front of the list of all live entries that the filter admits and
whose scores reach the least score, ranked by score and id. -/
theorem search_returns_best_live_entries (ops : List Operation) (r : SearchRequest)
    (query : FeatureVector) (hquery : r.query = some query) (hvalid : query.validate = .ok ())
    (hdim : ∀ entry, LiveAfter ids ops entry → entry.vector.dimension = query.dimension)
    (hwritable : r.IsWritable)
    (hscored : ∀ entry, LiveAfter ids ops entry →
      FloatingPoint.isNaN (query.score entry.vector) = false) :
    (∀ entry, LiveAfter ids ops entry ↔
        Standing (set.exchanges embedder ids ops) set.key entry) ∧
      ∃ ranked : List Match,
        ((set.search (some r)).run (Memory.environment embedder ids)
            (set.worldAfter embedder ids ops)).result = .ok (ranked.take r.maxResults) ∧
          (ranked.Pairwise fun a b => Outranks a.score a.id b.score b.id) ∧
          ∀ found, found ∈ ranked ↔ ∃ entry, LiveAfter ids ops entry ∧ r.Admits entry ∧
            r.IsReachedBy (query.score entry.vector) ∧ entry.toMatch query = found := by
  refine ⟨set.liveAfter_iff_standing embedder ids ops, ?_⟩
  have holds := set.element?_worldAfter embedder ids ops
  have fromLive (P : FeatureVector → Prop)
      (h : ∀ entry, LiveAfter ids ops entry → P entry.vector) (id : String)
      (element : Element) (helement : (set.worldAfter embedder ids ops).state.element? set.key id =
        some element) : P element.vector := by
    obtain ⟨entry, hlive, -, rfl⟩ := (holds id element).1 helement
    exact h entry hlive
  obtain ⟨term, hread, hterm⟩ := SearchRequest.exists_readFilter hwritable
  obtain ⟨ranked, hsearch, hsorted, hmem⟩ := Memory.search_ranked (p := r.parameters) hread
    (fromLive (fun v => v.dimension = query.dimension) hdim)
    (fromLive (fun v => FloatingPoint.isNaN (query.score v) = false) hscored)
  refine ⟨ranked.map (candidateMatch (set.worldAfter embedder ids ops).state set.key), ?_, ?_, ?_⟩
  · rw [← List.map_take]
    exact (returns_search hquery hvalid hsearch).1
  · rw [List.pairwise_map]
    exact hsorted
  · intro found
    rw [List.mem_map]
    constructor
    · rintro ⟨c, hc, rfl⟩
      obtain ⟨⟨id, element, helement, rfl⟩, hadmits⟩ := (hmem c).1 hc
      obtain ⟨entry, hlive, rfl, rfl⟩ := (holds id element).1 helement
      obtain ⟨hfilter, hreached⟩ := (admits_iff query hterm entry).1 hadmits
      exact ⟨entry, hlive, hfilter, hreached, (candidateMatch_element query helement).symm⟩
    · rintro ⟨entry, hlive, hfilter, hreached, rfl⟩
      have helement := (holds entry.id entry.element).2 ⟨entry, hlive, rfl, rfl⟩
      have hadmits := (admits_iff query hterm entry).2 ⟨hfilter, hreached⟩
      exact ⟨_, (hmem _).2 ⟨⟨entry.id, entry.element, helement, rfl⟩, hadmits⟩,
        candidateMatch_element query helement⟩

/-! ## A run -/

/-- An addition, a batch that a vector of another dimension ends midway, and a removal. -/
def mixedOperations : List Operation :=
  let one : Float32 := FloatingPoint.ofInt 1
  [.addWithId "a" ⟨[one, one]⟩,
    .addBatchWithIds [some "b", some "c", some "d"]
      [some ⟨[one, one]⟩, some ⟨[one, one, one]⟩, some ⟨[one, one]⟩] [some ⟨"\x7b\"n\":1\x7d"⟩],
    .remove "a"]

/-- A query along one axis. -/
def axisQuery : FeatureVector := ⟨[FloatingPoint.ofInt 1, FloatingPoint.ofInt 0]⟩

/-- The query with a filter that compiles and a least score of one half. -/
def axisRequest : SearchRequest where
  query := some axisQuery
  filter := some (.leaf .atLeast "n" (.scalar (.int 1)))
  minScore := FloatingPoint.ofDecimal false 5 (-1)

theorem isWritable_axisRequest : axisRequest.IsWritable := by
  intro filter text hfilter _
  obtain rfl := Option.some.inj hfilter
  exact ⟨Filter.isName_of_all (c := 'n') rfl rfl rfl, trivial⟩

/-- No text has a vector. -/
def noEmbedder (_ : String) : Except StoreError FeatureVector := .error .server

/-- Ids are numbers in order. -/
def numberedIds (n : Nat) : String := decimalText n

/-- The entry of the batch in front of the vector that ends it. -/
def keptEntry : Entry :=
  ⟨"b", ⟨[FloatingPoint.ofInt 1, FloatingPoint.ofInt 1]⟩, some ⟨"\x7b\"n\":1\x7d"⟩⟩

/-- After the mixed run one entry is live, and the search finds the best of those that are. -/
theorem search_after_mixedOperations :
    (∀ entry, LiveAfter numberedIds mixedOperations entry ↔ entry = keptEntry) ∧
      ∃ ranked : List Match,
        (((VectorSet.mk "k").search (some axisRequest)).run
            (Memory.environment noEmbedder numberedIds)
            ((VectorSet.mk "k").worldAfter noEmbedder numberedIds mixedOperations)).result =
          .ok (ranked.take axisRequest.maxResults) ∧
        (ranked.Pairwise fun a b => Outranks a.score a.id b.score b.id) ∧
        ∀ found, found ∈ ranked ↔
          ∃ entry, LiveAfter numberedIds mixedOperations entry ∧ axisRequest.Admits entry ∧
            axisRequest.IsReachedBy (FeatureVector.score axisQuery entry.vector) ∧
            entry.toMatch axisQuery = found := by
  have live : liveEntries (ledger numberedIds mixedOperations).history = [keptEntry] := by
    decide +kernel
  have only (entry : Entry) : LiveAfter numberedIds mixedOperations entry ↔ entry = keptEntry := by
    rw [LiveAfter, ← mem_liveEntries, live, List.mem_singleton]
  have sound : axisQuery.fault? = none := by decide +kernel
  have valid : axisQuery.validate = .ok () := by rw [FeatureVector.validate, sound]
  have scored : FloatingPoint.isNaN (axisQuery.score keptEntry.vector) = false := by decide +kernel
  refine ⟨only, ?_⟩
  exact (search_returns_best_live_entries mixedOperations axisRequest axisQuery rfl valid
    (fun entry h => (only entry).1 h ▸ rfl) isWritable_axisRequest
    fun entry h => (only entry).1 h ▸ scored).2

end VectorSet

end SimilarityStore.Store
