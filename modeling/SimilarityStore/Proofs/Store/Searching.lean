import SimilarityStore.Proofs.Store.Dialogue
import SimilarityStore.Store.Memory
import SimilarityStore.Store.VectorSet

/-
  Searches over any backend.  Whatever the backend answers, a search makes one similarity search and
  then one fetch for each complete hit, in the order of the hits, up to the first that fails
  (`leads_reconstructAll`).  Main statement: `search_over_any_backend`.
-/

namespace SimilarityStore.Store

open SimilarityStore.Numeric
open Program (Leads Accounts closing leads_ofExcept leads_pure leads_report
  leads_perform)

/-- The candidate in a hit that has an id, a payload and a score. -/
def Hit.candidate? (hit : Hit) : Option Candidate := do
  let id ← hit.id
  let payload ← hit.payload
  let score ← payload.score
  return ⟨id, score, payload.attributes⟩

/-- The match of a candidate, with the vector that was fetched for it; without one it has no
components. -/
def Candidate.toMatch (c : Candidate) (vector : Option FeatureVector) : Match :=
  ⟨c.id, c.score, vector.getD ⟨[]⟩, c.attributes.map Metadata.mk⟩

/-- The parameters are those that a request stands for. -/
structure SearchRequest.Sets (r : SearchRequest) (p : Parameters) : Prop where
  count : p.count = r.maxResults
  /-- A least score strictly between zero and one bounds the distance, and no other does. -/
  tolerance : ∀ t, p.tolerance = some t ↔
    FloatingPoint.isLess (FloatingPoint.ofInt 0) r.minScore = true ∧
      FloatingPoint.isLess r.minScore (FloatingPoint.ofInt 1) = true ∧
        t = FloatingPoint.ofInt 1 - r.minScore
  /-- The filter is the text of the request's filter, if that has one. -/
  filter : ∀ text, p.filter = some text ↔
    ∃ filter, r.filter = some filter ∧ filter.compile = .ok text

namespace SearchRequest

/-- A request stands for its own count and tolerance, and for the text of its filter. -/
theorem sets_of_filter {r : SearchRequest} {text? : Option String}
    (h : ∀ text, text? = some text ↔ ∃ f, r.filter = some f ∧ f.compile = .ok text) :
    r.Sets ⟨r.maxResults, r.tolerance, text?⟩ where
  count := rfl
  tolerance t := by
    unfold tolerance
    split
    · next hinside =>
      rw [Bool.and_eq_true] at hinside
      rw [Option.some.injEq]
      constructor
      · rintro rfl
        exact ⟨hinside.1, hinside.2, rfl⟩
      · rintro ⟨-, -, rfl⟩
        rfl
    · next houtside =>
      rw [Bool.and_eq_true] at houtside
      constructor
      · intro hnone
        cases hnone
      · rintro ⟨hlow, hhigh, -⟩
        exact absurd ⟨hlow, hhigh⟩ houtside
  filter := h

end SearchRequest

namespace VectorSet

/-- What a search reports before it calls the backend: a filter that has no text, and that it goes
on without it. -/
def filterReports (set : VectorSet) : Option Filter.Expr → List Event
  | none => []
  | some filter =>
    match filter.compile with
    | .ok _ => []
    | .error obstacle => [.filterObstacle obstacle, .filterDropped set.key]

/-- How the search of a query goes: there is one similarity search.  Its error is the result.  After
its answer the complete hits are fetched in order, up to the first error, which is the result; if
there is none, the matches of these hits are. -/
inductive SearchCourse (set : VectorSet) (r : SearchRequest) (query : FeatureVector) :
    List Moment → Except StoreError (List Match) → Prop where
  | failed {p : Parameters} (hp : r.Sets p) (events : List Event) (e : StoreError) :
      SearchCourse set r query
        ((set.filterReports r.filter).map .report ++
          [.turn ⟨.search set.key query p, .error e, events⟩])
        (.error e)
  | found {p : Parameters} (hp : r.Sets p) (events : List Event) (hits : List Hit)
      {turns : List Turn} {result : Except StoreError (List Match)}
      (fetches : Attempted (fun c : Candidate => .fetch set.key c.id) Candidate.toMatch
        (hits.filterMap Hit.candidate?) turns result) :
      SearchCourse set r query
        ((set.filterReports r.filter).map .report ++
          .turn ⟨.search set.key query p, .ok hits, events⟩ :: (turns.map .turn ++
          (closing (fun found => .searched set.key hits.length found.length) result).map .report))
        result

/-- How a search goes, from what its request is and what the backend answers. -/
structure SearchAccount (set : VectorSet) (request : Option SearchRequest) (moments : List Moment)
    (result : Except StoreError (List Match)) : Prop where
  /-- Without a request or a query nothing matches; nothing is called or reported. -/
  unasked : (∀ r, request = some r → r.query = none) → moments = [] ∧ result = .ok []
  /-- A query that cannot be looked up is invalid input; nothing is called or reported. -/
  invalid : ∀ r query e, request = some r → r.query = some query → query.validate = .error e →
    moments = [] ∧ result = .error e ∧ ∃ fault : InputFault, e = .invalidInput fault.message
  /-- Every other query is searched for. -/
  asked : ∀ r query, request = some r → r.query = some query → query.validate = .ok () →
    set.SearchCourse r query moments result

/-! ## Parts of a search -/

section Parts

variable {σ : Type} (env : Environment σ) (set : VectorSet)

theorem leads_filterText (filter : Option Filter.Expr) (w : World σ) :
    ∃ text?, Leads env (set.filterText filter) w ((set.filterReports filter).map .report)
        (.ok text?) w ∧
      ∀ text, text? = some text ↔ ∃ f, filter = some f ∧ f.compile = .ok text := by
  cases filter with
  | none => exact ⟨none, leads_pure none, by simp⟩
  | some f =>
    rw [filterText_some, filterReports]
    cases hf : f.compile with
    | ok text => exact ⟨some text, leads_pure (some text), by simp [hf]⟩
    | error obstacle =>
      refine ⟨none, ?_, by simp [hf]⟩
      exact (leads_report _).bind ((leads_report _).bind (leads_pure none))

/-- A complete hit is fetched, and every other one is passed over. -/
theorem reconstruct_eq (hit : Hit) :
    set.reconstruct hit =
      match hit.candidate? with
      | none => pure none
      | some c => do
        let vector ← Program.perform (.fetch set.key c.id)
        return some (c.toMatch vector) := by
  obtain ⟨_ | id, _ | ⟨_ | score, attributes⟩⟩ := hit <;> rfl

/-- The complete hits are fetched in order, up to the first error. -/
theorem leads_reconstructAll (hits : List Hit) (w : World σ) :
    ∃ turns result v, Leads env (set.reconstructAll hits) w (turns.map .turn) result v ∧
      Attempted (fun c : Candidate => .fetch set.key c.id) Candidate.toMatch
        (hits.filterMap Hit.candidate?) turns result := by
  induction hits generalizing w with
  | nil => exact ⟨[], .ok [], w, leads_pure [], .done⟩
  | cons hit hits ih =>
    rw [reconstructAll, reconstruct_eq]
    cases hc : hit.candidate? with
    | none =>
      obtain ⟨turns, result, v, hrest, hattempted⟩ := ih w
      refine ⟨turns, result.map fun more => [] ++ more, v, (leads_pure none).bind (hrest.map _), ?_⟩
      · rw [List.filterMap_cons_none hc]
        cases result <;> exact hattempted
    | some c =>
      have hfetch := leads_perform env w (.fetch set.key c.id)
      rw [List.filterMap_cons_some hc]
      cases hanswer : (env.backend.answer (.fetch set.key c.id) w.state).1 with
      | error e =>
        rw [Backend.turn, hanswer] at hfetch
        exact ⟨[_], .error e, _, hfetch.bind_error.bind_error, .failed c _ e _⟩
      | ok vector =>
        rw [Backend.turn, hanswer] at hfetch
        obtain ⟨turns, result, v, hrest, hattempted⟩ :=
          ih ⟨env.backend.next (.fetch set.key c.id) w.state, w.drawn⟩
        exact ⟨_ :: turns, result.map (c.toMatch vector :: ·), v,
          (hfetch.map _).bind (hrest.map _), .answered c vector _ hattempted⟩

end Parts

/-! ## The whole search -/

section Search

variable {σ : Type} (env : Environment σ) (set : VectorSet)

/-- A search whose query can be looked up goes as its request asks. -/
theorem leads_search {r : SearchRequest} {query : FeatureVector} (hquery : r.query = some query)
    (hvalid : query.validate = .ok ()) (w : World σ) :
    ∃ moments result v, Leads env (set.search (some r)) w moments result v ∧
      set.SearchCourse r query moments result := by
  have hval : Leads env (Program.ofExcept query.validate) w [] (.ok ()) w := by
    rw [hvalid]
    exact leads_ofExcept env w _
  obtain ⟨text?, htext, hiff⟩ := leads_filterText env set r.filter w
  have hsets := SearchRequest.sets_of_filter hiff
  let c : Call := .search set.key query ⟨r.maxResults, r.tolerance, text?⟩
  have hsearch := leads_perform env w c
  unfold search
  simp only [hquery]
  cases hanswer : (env.backend.answer c w.state).1 with
  | error e =>
    rw [Backend.turn, hanswer] at hsearch
    exact ⟨_, .error e, _, hval.bind (htext.bind hsearch.bind_error), .failed hsets _ e⟩
  | ok hits =>
    rw [Backend.turn, hanswer] at hsearch
    obtain ⟨turns, result, v, hfetches, hattempted⟩ :=
      leads_reconstructAll env set hits ⟨env.backend.next c w.state, w.drawn⟩
    have hclosed := hfetches.closing
      (fun found => .searched set.key hits.length found.length) id
    rw [Except.map_id] at hclosed
    exact ⟨_, result, v, hval.bind (htext.bind (hsearch.bind hclosed)),
      .found hsets _ hits hattempted⟩

theorem validate_eq_error {v : FeatureVector} {e : StoreError} (h : v.validate = .error e) :
    ∃ fault : InputFault, e = .invalidInput fault.message := by
  unfold FeatureVector.validate at h
  split at h
  · next fault _ => exact ⟨fault, (Except.error.inj h).symm⟩
  · cases h

/-- A search that is not asked for anything is accounted for by nothing. -/
theorem searchAccount_of_unasked {request : Option SearchRequest}
    (h : ∀ r, request = some r → r.query = none) : set.SearchAccount request [] (.ok []) where
  unasked _ := ⟨rfl, rfl⟩
  invalid r query e hr hquery := by cases (h r hr).symm.trans hquery
  asked r query hr hquery := by cases (h r hr).symm.trans hquery

/-- The account of the search of a query depends on whether that can be looked up. -/
theorem searchAccount_of_query {r : SearchRequest} {query : FeatureVector}
    {moments : List Moment} {result : Except StoreError (List Match)}
    (hquery : r.query = some query)
    (hinvalid : ∀ e, query.validate = .error e → moments = [] ∧ result = .error e)
    (hvalid : query.validate = .ok () → set.SearchCourse r query moments result) :
    set.SearchAccount (some r) moments result where
  unasked hnone := by cases hquery.symm.trans (hnone r rfl)
  invalid other q e hr hq he := by
    obtain rfl := Option.some.inj hr
    obtain rfl := Option.some.inj (hquery.symm.trans hq)
    obtain ⟨hmoments, hresult⟩ := hinvalid e he
    exact ⟨hmoments, hresult, validate_eq_error he⟩
  asked other q hr hq hok := by
    obtain rfl := Option.some.inj hr
    obtain rfl := Option.some.inj (hquery.symm.trans hq)
    exact hvalid hok

/-- A query that cannot be looked up is refused before anything is called or reported. -/
theorem leads_search_invalid {r : SearchRequest} {query : FeatureVector} {e : StoreError}
    (hquery : r.query = some query) (he : query.validate = .error e) (w : World σ) :
    Leads env (set.search (some r)) w [] (.error e) w := by
  have hval := leads_ofExcept env w query.validate
  rw [he] at hval
  unfold search
  simp only [hquery, he]
  exact hval.bind_error

/-- Every search goes as its account says. -/
theorem exists_searchAccount (request : Option SearchRequest) (w : World σ) :
    ∃ moments result v, Leads env (set.search request) w moments result v ∧
      set.SearchAccount request moments result := by
  cases request with
  | none =>
    exact ⟨[], .ok [], w, leads_pure [], set.searchAccount_of_unasked fun r hr => by cases hr⟩
  | some r =>
    cases hquery : r.query with
    | none =>
      have hnothing : set.search (some r) = pure [] := by
        unfold search
        simp only [hquery]
      rw [hnothing]
      refine ⟨[], .ok [], w, leads_pure [], set.searchAccount_of_unasked fun other hr => ?_⟩
      rw [← Option.some.inj hr, hquery]
    | some query =>
      cases hvalidate : query.validate with
      | error e =>
        refine ⟨[], .error e, w, leads_search_invalid env set hquery hvalidate w,
          set.searchAccount_of_query hquery (fun e' he => ?_) fun hok => ?_⟩
        · obtain rfl := Except.error.inj (hvalidate.symm.trans he)
          exact ⟨rfl, rfl⟩
        · cases hvalidate.symm.trans hok
      | ok u =>
        obtain ⟨moments, result, v, hleads, hcourse⟩ := leads_search env set hquery hvalidate w
        refine ⟨moments, result, v, hleads,
          set.searchAccount_of_query hquery (fun e he => ?_) fun _ => hcourse⟩
        cases hvalidate.symm.trans he

/-- A search over any backend, whatever it answers: nothing happens without a request and a query,
or with a query that cannot be looked up.  Otherwise it makes one similarity search as its request
asks, and then fetches the complete hits in order, up to the first error.  It returns the first
error, or the matches of exactly these hits in their order. -/
theorem search_over_any_backend (request : Option SearchRequest) (w : World σ) :
    ∃ moments, Accounts env (set.search request) w moments ∧
      set.SearchAccount request moments ((set.search request).run env w).result := by
  obtain ⟨moments, result, v, hleads, haccount⟩ := exists_searchAccount env set request w
  refine ⟨moments, hleads.accounts, ?_⟩
  rw [hleads.result]
  exact haccount

end Search

end VectorSet

end SimilarityStore.Store
