import SimilarityStore.Proofs.Filter.UnusualKeys
import SimilarityStore.Proofs.Store.SearchResults
import SimilarityStore.Proofs.Store.Searching

/-
  Searches of the memory with a filter whose keys are any texts.  Keys stand in the filter's text as
  they are.  As long as they are inert, a text that is read means what the filter means, so a search
  either fails or answers with elements that the filter admits; a key that is not inert can make a
  search answer with an element that the filter excludes.
-/

namespace SimilarityStore.Store

open SimilarityStore.Numeric SimilarityStore.Predicate
open SimilarityStore.Filter (memberOf?)

/-- The hits of a search are the candidates of some elements that pass the filter's term. -/
theorem Memory.admitted_of_search {m : Memory} {key : String} {query : FeatureVector}
    {p : Parameters} {hits : List Hit} (h : m.search key query p = .ok hits) :
    ∃ (term : Option Term) (cs : List Candidate), readFilter p.filter = .ok term ∧
      hits = cs.map Candidate.toHit ∧
      ∀ c ∈ cs, c ∈ candidates (m.elements key) query ∧ admits p.tolerance term c = true := by
  obtain ⟨term, hread, -, rfl⟩ := search_eq_ok_iff.1 h
  refine ⟨term, _, hread, rfl, fun c hc => ?_⟩
  have hsorted := List.mem_of_mem_take hc
  rwa [List.mem_mergeSort, List.mem_filter] at hsorted

namespace VectorSet

variable (embedder : String → Except StoreError FeatureVector) (ids : Nat → String)
  {set : VectorSet} {w : World Memory}

/-- A search that the memory fails fails. -/
theorem search_of_error {r : SearchRequest} {query : FeatureVector} {e : StoreError}
    (hquery : r.query = some query) (hvalid : query.validate = .ok ())
    (hsearch : w.state.search set.key query r.parameters = .error e) :
    ((set.search (some r)).run (Memory.environment embedder ids) w).result = .error e := by
  have hval : Program.Leads (Memory.environment embedder ids) (Program.ofExcept query.validate) w []
      (.ok ()) w := by
    rw [hvalid]
    exact Program.leads_ofExcept _ w _
  obtain ⟨text?, htext, -⟩ := leads_filterText (Memory.environment embedder ids) set r.filter w
  have hsame : text? = r.filterText? :=
    Except.ok.inj (htext.result.symm.trans (returns_filterText r).1)
  have hcall := Program.leads_perform (Memory.environment embedder ids) w
    (.search set.key query r.parameters)
  have hanswer : ((Memory.environment embedder ids).backend.answer
      (.search set.key query r.parameters) w.state).1 = .error e := hsearch
  rw [hanswer] at hcall
  subst hsame
  obtain ⟨moments, v, hleads⟩ : ∃ moments v, Program.Leads (Memory.environment embedder ids)
      (set.search (some r)) w moments (.error e) v := by
    unfold search
    simp only [hquery]
    exact ⟨_, _, hval.bind (htext.bind hcall.bind_error)⟩
  exact hleads.result

/-- A search that succeeds answers with the matches of elements that pass its filter's term. -/
theorem candidates_of_search {r : SearchRequest} {query : FeatureVector} {found : List Match}
    (hquery : r.query = some query)
    (h : ((set.search (some r)).run (Memory.environment embedder ids) w).result = .ok found) :
    ∃ (term : Option Term) (cs : List Candidate),
      Memory.readFilter r.filterText? = .ok term ∧
      (∀ c ∈ cs, c ∈ Memory.candidates (w.state.elements set.key) query ∧
        Memory.admits r.parameters.tolerance term c = true) ∧
      found = cs.map (candidateMatch w.state set.key) := by
  have hvalid : query.validate = .ok () := by
    cases hvalidate : query.validate with
    | ok u => rfl
    | error e =>
      have hfailed := leads_search_invalid (Memory.environment embedder ids) set hquery hvalidate w
      cases hfailed.result.symm.trans h
  cases hsearch : w.state.search set.key query r.parameters with
  | error e =>
    have hfailed := search_of_error embedder ids hquery hvalid hsearch
    cases hfailed.symm.trans h
  | ok hits =>
    obtain ⟨term, cs, hread, rfl, hcs⟩ := Memory.admitted_of_search hsearch
    have hreturns : Program.Returns (Memory.environment embedder ids) (set.search (some r)) w
        (cs.map (candidateMatch w.state set.key)) w := returns_search hquery hvalid hsearch
    exact ⟨term, cs, hread, hcs, Except.ok.inj (h.symm.trans hreturns.1)⟩

/-- Every match of a search with a filter that compiles is an element that the term of the filter's
text passes. -/
theorem accepts_of_mem_search {r : SearchRequest} {filter : Filter.Expr} {text : String}
    {found : List Match} (hfilter : r.filter = some filter) (htext : filter.compile = .ok text)
    (h : ((set.search (some r)).run (Memory.environment embedder ids) w).result = .ok found) :
    ∀ m ∈ found, ∃ t element, Term.read text = .ok t ∧
      w.state.element? set.key m.id = some element ∧ t.accepts element.attributes = true ∧
      m.metadata = element.attributes.map Metadata.mk := by
  intro m hm
  cases hquery : r.query with
  | none =>
    unfold search at h
    simp only [hquery] at h
    cases h
    cases hm
  | some query =>
    obtain ⟨term, cs, hread, hcs, rfl⟩ := candidates_of_search embedder ids hquery h
    obtain ⟨c, hc, rfl⟩ := List.mem_map.1 hm
    obtain ⟨hmem, hadmits⟩ := hcs c hc
    obtain ⟨id, element, helement, rfl⟩ := Memory.mem_candidates.1 hmem
    have hfilterText : r.filterText? = some text := by
      rw [SearchRequest.filterText?, hfilter]
      simp only [htext, Except.toOption]
    rw [hfilterText, Memory.readFilter] at hread
    cases ht : Term.read text with
    | error e =>
      rw [ht] at hread
      cases hread
    | ok t =>
      rw [ht] at hread
      obtain rfl := Except.ok.inj hread
      simp only [Memory.admits, Bool.and_eq_true, Option.all_some] at hadmits
      exact ⟨t, element, rfl, helement, hadmits.2, rfl⟩

/-- A filter that compiles, with inert keys and no double quote in its texts, keeps its meaning: if
its text is read, the term passes exactly the elements that the filter admits.  So every match of a
search of the memory with the filter is an element that the filter admits. -/
theorem inert_keys_keep_meaning (filter : Filter.Expr) (text : String)
    (htext : filter.compile = .ok text) (hinert : ∀ key ∈ filter.keys, Filter.isInert key = true)
    (hquoted : ∀ operand ∈ filter.operands, operand.IsUnquoted) :
    (∀ t, Term.read text = .ok t →
        ∀ raw, t.accepts raw = true ↔ filter.Admits (memberOf? raw)) ∧
      ∀ (set : VectorSet) (w : World Memory) (r : SearchRequest) (found : List Match),
        r.filter = some filter →
        ((set.search (some r)).run (Memory.environment embedder ids) w).result = .ok found →
        ∀ m ∈ found, ∃ element, w.state.element? set.key m.id = some element ∧
          filter.Admits (memberOf? element.attributes) := by
  have hmeaning : ∀ t, Term.read text = .ok t →
      ∀ raw, t.accepts raw = true ↔ filter.Admits (memberOf? raw) := by
    intro t hread raw
    have hwritable := Filter.Expr.isWritable_of_read htext hinert hquoted hread
    obtain ⟨u, hterm, hu⟩ := filter.read_compile htext hwritable
    obtain rfl := Except.ok.inj (hread.symm.trans hu)
    exact filter.accepts_iff hterm raw
  refine ⟨hmeaning, fun set w r found hfilter hfound m hm => ?_⟩
  obtain ⟨t, element, hread, helement, haccepts, -⟩ :=
    accepts_of_mem_search embedder ids hfilter htext hfound m hm
  exact ⟨element, helement, (hmeaning t hread _).1 haccepts⟩

/-- The owner is the reader. -/
def ownerFilter : Filter.Expr := .leaf .equal "owner" (.scalar (.text "me"))

/-- The text of the filter by owner is read, and means what the filter means. -/
theorem ownerFilter_keeps_meaning :
    (∀ key ∈ ownerFilter.keys, Filter.isInert key = true) ∧
      ∃ t, Term.read ".owner==\"me\"" = .ok t ∧
        ∀ raw, t.accepts raw = true ↔ ownerFilter.Admits (memberOf? raw) := by
  have hinert : ∀ key ∈ ownerFilter.keys, Filter.isInert key = true := by decide
  have hquoted : ∀ operand ∈ ownerFilter.operands, operand.IsUnquoted := by
    simp [ownerFilter, Filter.Expr.operands, Filter.Operand.IsUnquoted, Filter.Scalar.IsUnquoted]
  obtain ⟨hmeaning, -⟩ := inert_keys_keep_meaning (fun _ => .error .server) (fun _ => "")
    ownerFilter ".owner==\"me\"" rfl hinert hquoted
  have hread : (Term.read ".owner==\"me\"").toOption.isSome = true := by decide +kernel
  cases ht : Term.read ".owner==\"me\"" with
  | error e =>
    rw [ht] at hread
    cases hread
  | ok t => exact ⟨hinert, t, rfl, hmeaning t ht⟩

/-- A key that holds an alternative: behind a name and a blank, a word and another attribute. -/
def alternativeKey : Filter.Expr := .leaf .equal "public or .owner" (.scalar (.text "me"))

/-- A key with a blank in it changes what a filter means: its text is read, and passes attributes
that have no member of that name. -/
theorem alternativeKey_changes_meaning :
    alternativeKey.compile = .ok ".public or .owner==\"me\"" ∧
      (∀ operand ∈ alternativeKey.operands, operand.IsUnquoted) ∧
      (∃ t, Term.read ".public or .owner==\"me\"" = .ok t ∧
        t.accepts (some "\x7b\"owner\":\"you\",\"public\":true\x7d") = true) ∧
      ¬ alternativeKey.Admits
        (memberOf? (some "\x7b\"owner\":\"you\",\"public\":true\x7d")) := by
  have hquoted : ∀ operand ∈ alternativeKey.operands, operand.IsUnquoted := by
    simp [alternativeKey, Filter.Expr.operands, Filter.Operand.IsUnquoted,
      Filter.Scalar.IsUnquoted]
  have hpassed : ((Term.read ".public or .owner==\"me\"").toOption.any fun t =>
      t.accepts (some "\x7b\"owner\":\"you\",\"public\":true\x7d")) = true := by
    decide +kernel
  have hexcluded : ¬ alternativeKey.Admits
      (memberOf? (some "\x7b\"owner\":\"you\",\"public\":true\x7d")) := by
    decide +kernel
  refine ⟨rfl, hquoted, ?_, hexcluded⟩
  cases ht : Term.read ".public or .owner==\"me\"" with
  | error e =>
    rw [ht] at hpassed
    cases hpassed
  | ok t =>
    rw [ht] at hpassed
    exact ⟨t, rfl, hpassed⟩

end VectorSet

end SimilarityStore.Store
