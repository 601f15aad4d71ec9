import SimilarityStore.Proofs.Store.Dimensions
import SimilarityStore.Proofs.Store.Ranking
import SimilarityStore.Proofs.Text.ByteOrder

/-
  What a similarity search of the memory answers, in each case: the filter cannot be read, nothing
  is stored under the key, the query has another dimension, or it has the dimension that is stored.
  In the last case the answer is the front of the one ranking of what the search admits
  (`WellFormed.searchAnswers`), and it is the same in whatever order the elements come.
-/

namespace SimilarityStore.Store

open SimilarityStore.Numeric SimilarityStore.Predicate SimilarityStore.Text

namespace Memory

/-- All elements that a search admits, in strict order: greater scores first, and of equal scores
the id with the lesser bytes. -/
structure Ranking (contents : String → Option Element) (query : FeatureVector)
    (tolerance : Option Float) (filter : Option Term) (ranked : List Candidate) : Prop where
  ordered : ranked.Pairwise fun a b =>
    FloatingPoint.order? a.score b.score = some .gt ∨
      (FloatingPoint.order? a.score b.score = some .eq ∧ bytes a.id < bytes b.id)
  members : ∀ c, c ∈ ranked ↔ ∃ id element, contents id = some element ∧
    c = ⟨id, query.score element.vector, element.attributes⟩ ∧
    (∀ t, tolerance = some t →
      FloatingPoint.isAtLeast c.score (FloatingPoint.ofInt 1 - t) = true) ∧
    (∀ term, filter = some term → term.accepts c.attributes = true)

/-- What a search is answered with. -/
structure SearchAnswers (m : Memory) (key : String) (query : FeatureVector) (p : Parameters) :
    Prop where
  /-- A filter that cannot be read is the backend's error, whatever is stored. -/
  unreadable : ∀ text e, p.filter = some text → Term.read text = .error e →
    m.search key query p = .error (.backend "memory" ("invalid filter expression: " ++ e.message))
  /-- A key has no elements, or its elements have one dimension. -/
  stored : (∀ id, m.element? key id = none) ∨ ∃ d, m.HasDimension key d
  /-- Otherwise, where nothing is stored, nothing is found. -/
  absent : ∀ filter : Option Term, p.filter.map Term.read = filter.map .ok →
    (∀ id, m.element? key id = none) → m.search key query p = .ok []
  /-- Otherwise a query of another dimension than the stored one is refused. -/
  mismatch : ∀ (filter : Option Term) (d : Nat), p.filter.map Term.read = filter.map .ok →
    m.HasDimension key d → d ≠ query.dimension →
      m.search key query p = .error (.dimensionMismatch d query.dimension)
  /-- Otherwise, if all scores are numbers, the answer is the front of the one ranking. -/
  ranked : ∀ filter : Option Term, p.filter.map Term.read = filter.map .ok →
    m.HasDimension key query.dimension →
    (∀ id element, m.element? key id = some element →
      FloatingPoint.isNaN (query.score element.vector) = false) →
    ∃ ranked : List Candidate, Ranking (m.element? key) query p.tolerance filter ranked ∧
      (∀ other, Ranking (m.element? key) query p.tolerance filter other → other = ranked) ∧
      m.search key query p =
        .ok ((ranked.take p.count).map fun c => .scored c.id c.score c.attributes)
  /-- In each case the answer is the same in whatever order the stored elements come. -/
  anyOrder :
    (m.HasDimension key query.dimension → ∀ id element, m.element? key id = some element →
      FloatingPoint.isNaN (query.score element.vector) = false) →
    ∀ listing, Lists (m.element? key) listing →
      searchListed listing query p = m.search key query p

/-! ## Filters -/

theorem readFilter_of_map {text : Option String} {filter : Option Term}
    (h : text.map Term.read = filter.map .ok) : readFilter text = .ok filter := by
  cases text with
  | none =>
    cases filter with
    | none => rfl
    | some term => cases h
  | some raw =>
    cases filter with
    | none => cases h
    | some term =>
      have hread : Term.read raw = .ok term := Option.some.inj h
      rw [readFilter, hread]

theorem readFilter_of_error {raw : String} {e : SyntaxError} (h : Term.read raw = .error e) :
    readFilter (some raw) =
      .error (.backend "memory" ("invalid filter expression: " ++ e.message)) := by
  rw [readFilter, h]

/-- A search is refused by its filter first. -/
theorem search_of_readFilter_error {m : Memory} {key : String} {query : FeatureVector}
    {p : Parameters} {e : StoreError} (h : readFilter p.filter = .error e) :
    m.search key query p = .error e := by
  rw [search, h]
  rfl

/-- A search whose filter can be read is refused by the dimension check. -/
theorem search_of_checkDimension_error {m : Memory} {key : String} {query : FeatureVector}
    {p : Parameters} {filter : Option Term} {e : StoreError}
    (hfilter : readFilter p.filter = .ok filter)
    (h : checkDimension (m.elements key) query.dimension = .error e) :
    m.search key query p = .error e := by
  rw [search, hfilter]
  simp only [bind, Except.bind, h]

theorem admits_eq_true_iff {tolerance : Option Float} {filter : Option Term} {c : Candidate} :
    admits tolerance filter c = true ↔
      (∀ t, tolerance = some t →
        FloatingPoint.isAtLeast c.score (FloatingPoint.ofInt 1 - t) = true) ∧
      (∀ term, filter = some term → term.accepts c.attributes = true) := by
  rw [admits, Bool.and_eq_true, Option.all_eq_true, Option.all_eq_true]

/-! ## Rankings -/

section Ranking

variable {contents : String → Option Element} {query : FeatureVector} {tolerance : Option Float}
  {filter : Option Term}

theorem outranks_iff_bytes (a b : Candidate) :
    Outranks a.score a.id b.score b.id ↔
      FloatingPoint.order? a.score b.score = some .gt ∨
        (FloatingPoint.order? a.score b.score = some .eq ∧ bytes a.id < bytes b.id) := by
  rw [Outranks, bytes_lt_iff]

theorem admitted_iff (c : Candidate) :
    ((∃ id element, contents id = some element ∧ candidate query id element = c) ∧
        admits tolerance filter c = true) ↔
      ∃ id element, contents id = some element ∧
        c = ⟨id, query.score element.vector, element.attributes⟩ ∧
        (∀ t, tolerance = some t →
          FloatingPoint.isAtLeast c.score (FloatingPoint.ofInt 1 - t) = true) ∧
        (∀ term, filter = some term → term.accepts c.attributes = true) := by
  rw [admits_eq_true_iff]
  constructor
  · rintro ⟨⟨id, element, helement, rfl⟩, hadmits⟩
    exact ⟨id, element, helement, rfl, hadmits⟩
  · rintro ⟨id, element, helement, rfl, hadmits⟩
    exact ⟨⟨id, element, helement, rfl⟩, hadmits⟩

theorem ranking_of_ranked {ranked : List Candidate}
    (hordered : ranked.Pairwise fun a b => Outranks a.score a.id b.score b.id)
    (hmem : ∀ c, c ∈ ranked ↔
      (∃ id element, contents id = some element ∧ candidate query id element = c) ∧
        admits tolerance filter c = true) :
    Ranking contents query tolerance filter ranked where
  ordered := hordered.imp fun {a b} h => (outranks_iff_bytes a b).1 h
  members c := (hmem c).trans (admitted_iff c)

/-- There is at most one ranking. -/
theorem Ranking.unique {xs ys : List Candidate} (hx : Ranking contents query tolerance filter xs)
    (hy : Ranking contents query tolerance filter ys) : xs = ys :=
  ranked_unique (hx.ordered.imp fun {a b} h => (outranks_iff_bytes a b).2 h)
    (hy.ordered.imp fun {a b} h => (outranks_iff_bytes a b).2 h)
    fun c => (hx.members c).trans (hy.members c).symm

end Ranking

/-! ## Answers -/

section WellFormed

variable {m : Memory} {key : String} {query : FeatureVector} {p : Parameters}

/-- Nothing is found where nothing is stored. -/
theorem search_of_absent {filter : Option Term} (hfilter : readFilter p.filter = .ok filter)
    (h : ∀ id, m.element? key id = none) : m.search key query p = .ok [] := by
  obtain ⟨ranked, hsearch, -, hmem⟩ :=
    search_ranked hfilter (forall_of_absent h) (forall_of_absent h)
  have hnil : ranked = [] := by
    refine List.eq_nil_iff_forall_not_mem.2 fun c hc => ?_
    obtain ⟨⟨id, element, helement, -⟩, -⟩ := (hmem c).1 hc
    exact forall_of_absent h (P := fun _ => False) id element helement
  rw [hsearch, hnil, List.take_nil]
  rfl

/-- A well-formed memory refuses a query of another dimension than the stored one. -/
theorem WellFormed.search_of_mismatch (h : m.WellFormed) {filter : Option Term}
    (hfilter : readFilter p.filter = .ok filter) {d : Nat} (hd : m.HasDimension key d)
    (hother : d ≠ query.dimension) :
    m.search key query p = .error (.dimensionMismatch d query.dimension) := by
  obtain ⟨hkey, hall⟩ := hd
  obtain ⟨id, element, helement⟩ := h.exists_element hkey
  obtain rfl := hall id element helement
  refine search_of_checkDimension_error hfilter ?_
  rw [(h.sound helement).checkDimension helement, if_neg hother]

/-- All scores being numbers, a search answers with the front of the one ranking. -/
theorem search_of_hasDimension {filter : Option Term} (hfilter : readFilter p.filter = .ok filter)
    (hd : m.HasDimension key query.dimension)
    (hscored : ∀ id element, m.element? key id = some element →
      FloatingPoint.isNaN (query.score element.vector) = false) :
    ∃ ranked : List Candidate, Ranking (m.element? key) query p.tolerance filter ranked ∧
      (∀ other, Ranking (m.element? key) query p.tolerance filter other → other = ranked) ∧
      m.search key query p =
        .ok ((ranked.take p.count).map fun c => .scored c.id c.score c.attributes) := by
  obtain ⟨ranked, hsearch, hordered, hmem⟩ := search_ranked hfilter hd.2 hscored
  have hranking : Ranking (m.element? key) query p.tolerance filter ranked :=
    ranking_of_ranked hordered hmem
  exact ⟨ranked, hranking, fun other hother => hother.unique hranking, hsearch⟩

/-- A search of elements that fit the query, and whose scores are numbers, does not depend on their
order. -/
theorem searchListed_of_fits {filter : Option Term} {listing : List (String × Element)}
    (hlists : Lists (m.element? key) listing) (hfilter : readFilter p.filter = .ok filter)
    (hdim : ∀ id element, m.element? key id = some element →
      element.vector.dimension = query.dimension)
    (hscored : ∀ id element, m.element? key id = some element →
      FloatingPoint.isNaN (query.score element.vector) = false) :
    searchListed listing query p = m.search key query p := by
  obtain ⟨listed, hlisted, hbefore, hin⟩ := searchListed_ranked hlists hfilter hdim hscored
  obtain ⟨ranked, hsearch, hordered, hmem⟩ := search_ranked hfilter hdim hscored
  have hsame : listed = ranked :=
    ranked_unique hbefore hordered fun c => (hin c).trans (hmem c).symm
  rw [hlisted, hsame, hsearch]

/-- No answer of a well-formed memory depends on the order of the elements. -/
theorem WellFormed.searchListed (h : m.WellFormed)
    (hscored : m.HasDimension key query.dimension → ∀ id element,
      m.element? key id = some element → FloatingPoint.isNaN (query.score element.vector) = false)
    {listing : List (String × Element)} (hlists : Lists (m.element? key) listing) :
    Memory.searchListed listing query p = m.search key query p := by
  cases hfilter : readFilter p.filter with
  | error e =>
    rw [search_of_readFilter_error hfilter, Memory.searchListed, hfilter]
    rfl
  | ok filter =>
    rcases m.absent_or_present key with hnone | ⟨id, element, helement⟩
    · exact searchListed_of_fits hlists hfilter (forall_of_absent hnone) (forall_of_absent hnone)
    · have hd := h.hasDimension helement
      by_cases hfits : element.vector.dimension = query.dimension
      · rw [hfits] at hd
        exact searchListed_of_fits hlists hfilter hd.2 (hscored hd)
      · have hrefused := hlists.checkListed_of_ne helement hd.2 hfits
        rw [h.search_of_mismatch hfilter hd hfits, Memory.searchListed, hfilter]
        simp only [bind, Except.bind, hrefused]

theorem WellFormed.searchAnswers (h : m.WellFormed) (key : String) (query : FeatureVector)
    (p : Parameters) : m.SearchAnswers key query p where
  unreadable text e htext hread := by
    refine search_of_readFilter_error ?_
    rw [htext, readFilter_of_error hread]
  stored := by
    rcases m.absent_or_present key with hnone | ⟨id, element, helement⟩
    · exact .inl hnone
    · exact .inr ⟨_, h.hasDimension helement⟩
  absent filter hread hnone := search_of_absent (readFilter_of_map hread) hnone
  mismatch filter d hread hd hother := h.search_of_mismatch (readFilter_of_map hread) hd hother
  ranked filter hread hd hscored := search_of_hasDimension (readFilter_of_map hread) hd hscored
  anyOrder hscored _ hlists := h.searchListed hscored hlists

end WellFormed

/-- After any calls, whatever they were answered with, on a memory that was empty, every search is
answered by what is stored under its key alone: with the front of the one ranking of what it admits,
or with the error that comes first. -/
theorem session_search_answers (calls : List Call) (key : String) (query : FeatureVector)
    (p : Parameters) : (session calls empty).2.SearchAnswers key query p :=
  (wellFormed_session wellFormed_empty calls).searchAnswers key query p

/-- A vector of the plane along both axes. -/
def diagonal : FeatureVector := ⟨[FloatingPoint.ofInt 1, FloatingPoint.ofInt 1]⟩

/-- A vector of the plane along one axis. -/
def axis : FeatureVector := ⟨[FloatingPoint.ofInt 1, FloatingPoint.ofInt 0]⟩

/-- Additions of two equal vectors and another one. -/
def planarCalls : List Call :=
  [.add "k" ⟨"b", diagonal, none⟩, .add "k" ⟨"a", diagonal, none⟩, .add "k" ⟨"c", axis, none⟩]

theorem elements_planarCalls : ((session planarCalls empty).2.elements "k").toList =
    [("a", ⟨diagonal, none⟩), ("b", ⟨diagonal, none⟩), ("c", ⟨axis, none⟩)] := by
  decide +kernel

/-- The one ranking of the three vectors for a query along the axis. -/
theorem ranking_planarCalls :
    Ranking ((session planarCalls empty).2.element? "k") axis none none
      [⟨"c", axis.score axis, none⟩, ⟨"a", axis.score diagonal, none⟩,
        ⟨"b", axis.score diagonal, none⟩] := by
  refine ranking_of_ranked ?_ fun c => ?_
  · decide +kernel
  · simp only [← (lists_toList _ _).mem_iff, elements_planarCalls]
    grind [candidate, admits]

/-- The two nearest of the three vectors are the one along the axis and, of the equal ones, the one
with the lesser id. -/
theorem search_after_planarCalls :
    (session planarCalls empty).2.search "k" axis ⟨2, none, none⟩ =
      .ok [.scored "c" (axis.score axis) none, .scored "a" (axis.score diagonal) none] := by
  have stored : (session planarCalls empty).2.HasDimension "k" axis.dimension := by
    refine ⟨by decide +kernel, fun id element h => ?_⟩
    simpa using forall_element?_of_all (fun v => v.dimension == axis.dimension)
      (by decide +kernel) id element h
  have scored : ∀ id element, (session planarCalls empty).2.element? "k" id = some element →
      FloatingPoint.isNaN (axis.score element.vector) = false := by
    intro id element h
    simpa using forall_element?_of_all (fun v => !FloatingPoint.isNaN (axis.score v))
      (by decide +kernel) id element h
  have answers := session_search_answers planarCalls "k" axis ⟨2, none, none⟩
  obtain ⟨ranked, -, hunique, hsearch⟩ := answers.ranked none rfl stored scored
  rw [hsearch, ← hunique _ ranking_planarCalls]
  rfl

end Memory

end SimilarityStore.Store
