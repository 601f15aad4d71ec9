import SimilarityStore.Store.Memory

/-
  The memory seen as one map: `element? key id` is the element under a key and an id.  Main
  statements: what each operation does to this map (`element?_add`, `element?_remove`,
  `element?_delete`), that removing tells whether the element was there (`remove_fst`), and what a
  search answers (`search_eq_ok_iff`).
-/

namespace SimilarityStore.Store.Memory

open Std (ExtTreeMap LawfulEqCmp)

/-- The element under a key and an id. -/
def element? (m : Memory) (key id : String) : Option Element := (m.elements key)[id]?

@[simp] theorem element?_empty (key id : String) : empty.element? key id = none := by
  simp [element?, elements, empty]

/-- Fetching gives the vector of an element. -/
theorem fetch_eq (m : Memory) (key id : String) :
    m.fetch key id = (m.element? key id).map Element.vector := rfl

theorem elements_insert (m : Memory) (key other : String) (set : Elements) :
    (⟨m.sets.insert key set⟩ : Memory).elements other =
      if key = other then set else m.elements other := by
  simp only [elements, ExtTreeMap.getD_insert, LawfulEqCmp.compare_eq_iff_eq]

theorem elements_erase (m : Memory) (key other : String) :
    (⟨m.sets.erase key⟩ : Memory).elements other =
      if key = other then ∅ else m.elements other := by
  simp only [elements, ExtTreeMap.getD_erase, LawfulEqCmp.compare_eq_iff_eq]

/-- A key that is not there has no elements. -/
theorem elements_of_none {m : Memory} {key : String} (h : m.sets[key]? = none) :
    m.elements key = ∅ := by
  rw [elements, ExtTreeMap.getD_eq_getD_getElem?, h]
  rfl

theorem elements_of_some {m : Memory} {key : String} {set : Elements}
    (h : m.sets[key]? = some set) : m.elements key = set := by
  rw [elements, ExtTreeMap.getD_eq_getD_getElem?, h]
  rfl

/-- Opening a key's set shows in no element. -/
@[simp] theorem elements_opened (m : Memory) (key other : String) :
    (m.opened key).elements other = m.elements other := by
  rw [opened, elements_insert]
  split
  · next h => rw [h]
  · rfl

/-- A key that has elements has its set already. -/
theorem opened_of_ne {m : Memory} {key : String} (h : m.elements key ≠ ∅) : m.opened key = m := by
  cases hset : m.sets[key]? with
  | none => exact absurd (elements_of_none hset) h
  | some set =>
    have same : m.sets.insert key (m.elements key) = m.sets := by
      apply ExtTreeMap.ext_getElem?
      intro other
      rw [ExtTreeMap.getElem?_insert]
      split
      · next hc => rw [elements_of_some hset, ← LawfulEqCmp.eq_of_compare hc, hset]
      · rfl
    rw [opened, same]

/-- Adding an entry whose dimension fits puts it under its key and id. -/
theorem element?_add {m : Memory} {key : String} {entry : Entry}
    (h : checkDimension (m.elements key) entry.vector.dimension = .ok ()) (other id : String) :
    (m.add key entry).2.element? other id =
      if key = other ∧ entry.id = id then
        some ⟨entry.vector, entry.metadata.map Metadata.raw⟩
      else m.element? other id := by
  simp only [add, elements_opened, h, element?, elements_insert]
  by_cases hk : key = other
  · subst hk
    simp only [if_true, true_and, ExtTreeMap.getElem?_insert, LawfulEqCmp.compare_eq_iff_eq]
  · simp only [hk, if_false, false_and]

/-- A set without elements has no dimension that could differ. -/
theorem ne_empty_of_checkDimension {set : Elements} {actual : Nat} {e : StoreError}
    (h : checkDimension set actual = .error e) : set ≠ ∅ := by
  rintro rfl
  have none : (∅ : Elements).toList = [] := ExtTreeMap.toList_eq_nil_iff.2 rfl
  rw [checkDimension, dimensionOf?, none] at h
  cases h

/-- A dimension that all elements have fits. -/
theorem checkDimension_eq_ok {m : Memory} {key : String} {actual : Nat}
    (h : ∀ id element, m.element? key id = some element → element.vector.dimension = actual) :
    checkDimension (m.elements key) actual = .ok () := by
  unfold checkDimension dimensionOf?
  cases hlist : (m.elements key).toList with
  | nil => rfl
  | cons first rest =>
    have hmem : first ∈ (m.elements key).toList := by
      rw [hlist]
      exact List.mem_cons_self
    have hfirst := h first.1 first.2 (ExtTreeMap.mem_toList_iff_getElem?_eq_some.1 hmem)
    simp [hfirst]

/-- Adding an entry whose dimension does not fit changes nothing. -/
theorem add_of_error {m : Memory} {key : String} {entry : Entry} {e : StoreError}
    (h : checkDimension (m.elements key) entry.vector.dimension = .error e) :
    m.add key entry = (.error e, m) := by
  simp only [add, opened_of_ne (ne_empty_of_checkDimension h), h]

/-- Removing changes one key, to its elements without one id. -/
theorem elements_remove (m : Memory) (key id other : String) :
    (m.remove key id).2.elements other =
      if key = other then (m.elements key).erase id else m.elements other := by
  rw [remove]
  split
  · next h =>
    split
    · next hk => subst hk; simp [elements_of_none h]
    · rfl
  · next set h =>
    rw [elements_of_some h]
    dsimp only
    split
    · next he => rw [elements_erase, ExtTreeMap.isEmpty_iff.1 he]
    · rw [elements_insert]

/-- Removing takes the element away and leaves everything else. -/
theorem element?_remove (m : Memory) (key id other name : String) :
    (m.remove key id).2.element? other name =
      if key = other ∧ id = name then none else m.element? other name := by
  rw [element?, elements_remove]
  by_cases hk : key = other
  · subst hk
    simp only [if_true, true_and, ExtTreeMap.getElem?_erase, LawfulEqCmp.compare_eq_iff_eq,
      element?]
  · simp only [hk, if_false, false_and, element?]

/-- Removing tells whether the element was there. -/
theorem remove_fst (m : Memory) (key id : String) :
    (m.remove key id).1 = (m.element? key id).isSome := by
  rw [remove]
  split
  · next h => simp [element?, elements_of_none h]
  · next set h => simp [element?, elements_of_some h]

/-- Deleting a key leaves nothing under it and everything else. -/
theorem element?_delete (m : Memory) (key other id : String) :
    (m.delete key).element? other id = if key = other then none else m.element? other id := by
  rw [element?, delete, elements_erase]
  split
  · simp
  · rfl

/-! ## Other keys -/

theorem sets_insert_of_ne (m : Memory) {key other : String} (h : key ≠ other) (set : Elements) :
    (m.sets.insert key set)[other]? = m.sets[other]? := by
  rw [ExtTreeMap.getElem?_insert, if_neg (by rwa [LawfulEqCmp.compare_eq_iff_eq])]

theorem sets_erase_of_ne (m : Memory) {key other : String} (h : key ≠ other) :
    (m.sets.erase key)[other]? = m.sets[other]? := by
  rw [ExtTreeMap.getElem?_erase, if_neg (by rwa [LawfulEqCmp.compare_eq_iff_eq])]

theorem sets_add_of_ne (m : Memory) {key other : String} (h : key ≠ other) (entry : Entry) :
    (m.add key entry).2.sets[other]? = m.sets[other]? := by
  have hopened : (m.opened key).sets[other]? = m.sets[other]? := m.sets_insert_of_ne h _
  rw [add]
  split
  · exact hopened
  · exact ((m.opened key).sets_insert_of_ne h _).trans hopened

theorem sets_remove_of_ne (m : Memory) {key other : String} (h : key ≠ other) (id : String) :
    (m.remove key id).2.sets[other]? = m.sets[other]? := by
  rw [remove]
  split
  · rfl
  · next set hset =>
    dsimp only
    split
    · exact m.sets_erase_of_ne h
    · exact m.sets_insert_of_ne h _

/-! ## Whole sets -/

/-- The elements of a set are counted by their ids. -/
theorem exists_ids (m : Memory) (key : String) :
    ∃ ids : List String, ids.Nodup ∧ (∀ id, id ∈ ids ↔ (m.element? key id).isSome) ∧
      m.cardinality key = ids.length := by
  refine ⟨(m.elements key).keys, ExtTreeMap.nodup_keys, fun id => ?_, ?_⟩
  · rw [ExtTreeMap.mem_keys, ExtTreeMap.mem_iff_isSome_getElem?, element?]
  · rw [cardinality, ExtTreeMap.length_keys]

/-! ## Searches -/

/-- The candidate that an element is for a query. -/
def candidate (query : FeatureVector) (id : String) (element : Element) : Candidate :=
  ⟨id, query.score element.vector, element.attributes⟩

/-- The candidates of a set are its elements, scored. -/
theorem mem_candidates {m : Memory} {key : String} {query : FeatureVector} {c : Candidate} :
    c ∈ candidates (m.elements key) query ↔
      ∃ id element, m.element? key id = some element ∧ candidate query id element = c := by
  simp only [candidates, List.mem_map, Prod.exists, ExtTreeMap.mem_toList_iff_getElem?_eq_some,
    element?, candidate]

/-- A search succeeds when its filter can be read and the query's dimension fits. -/
theorem search_eq_ok_iff {m : Memory} {key : String} {query : FeatureVector} {p : Parameters}
    {hits : List Hit} :
    m.search key query p = .ok hits ↔
      ∃ filter, readFilter p.filter = .ok filter ∧
        checkDimension (m.elements key) query.dimension = .ok () ∧
        ((((candidates (m.elements key) query).filter (admits p.tolerance filter)).mergeSort
          Candidate.precedes).take p.count).map Candidate.toHit = hits := by
  unfold search
  cases hf : readFilter p.filter with
  | error e => simp [bind, Except.bind]
  | ok filter =>
    cases hd : checkDimension (m.elements key) query.dimension with
    | error e => simp [bind, Except.bind, hd]
    | ok u => simp [bind, Except.bind, pure, Except.pure, hd]

/-- A set has as many candidates as elements. -/
theorem length_candidates (m : Memory) (key : String) (query : FeatureVector) :
    (candidates (m.elements key) query).length = m.cardinality key := by
  rw [candidates, List.length_map, ExtTreeMap.length_toList, cardinality]

/-- A search that may return everything answers with all candidates that it admits. -/
theorem search_of_cardinality_le {m : Memory} {key : String} {query : FeatureVector}
    {p : Parameters} {filter : Option Predicate.Term}
    (hfilter : readFilter p.filter = .ok filter)
    (hdim : ∀ id element, m.element? key id = some element →
      element.vector.dimension = query.dimension)
    (hcount : m.cardinality key ≤ p.count) :
    m.search key query p =
      .ok ((((candidates (m.elements key) query).filter (admits p.tolerance filter)).mergeSort
        Candidate.precedes).map Candidate.toHit) := by
  refine search_eq_ok_iff.2 ⟨filter, hfilter, checkDimension_eq_ok hdim, ?_⟩
  rw [← m.length_candidates key query] at hcount
  rw [List.take_of_length_le]
  rw [List.length_mergeSort]
  exact Nat.le_trans (List.length_filter_le _ _) hcount

/-- A search without a filter or a bound that may return everything shows every element. -/
theorem exists_search_all (m : Memory) {key : String} {query : FeatureVector} {count : Nat}
    (hdim : ∀ id element, m.element? key id = some element →
      element.vector.dimension = query.dimension)
    (hcount : m.cardinality key ≤ count) :
    ∃ hits, m.search key query ⟨count, none, none⟩ = .ok hits ∧
      ∀ id element, m.element? key id = some element →
        (candidate query id element).toHit ∈ hits := by
  have hfilter : readFilter none = .ok none := rfl
  refine ⟨_, search_of_cardinality_le hfilter hdim hcount, fun id element helement => ?_⟩
  refine List.mem_map_of_mem (List.mem_mergeSort.2 (List.mem_filter.2 ⟨?_, rfl⟩))
  exact mem_candidates.2 ⟨id, element, helement, rfl⟩

/-- Every hit is an element with its score and its attributes. -/
theorem mem_search {m : Memory} {key : String} {query : FeatureVector} {p : Parameters}
    {hits : List Hit} (h : m.search key query p = .ok hits) {hit : Hit} (hhit : hit ∈ hits) :
    ∃ id element, m.element? key id = some element ∧ (candidate query id element).toHit = hit := by
  obtain ⟨filter, -, -, rfl⟩ := search_eq_ok_iff.1 h
  obtain ⟨c, hc, rfl⟩ := List.mem_map.1 hhit
  have hsorted := List.mem_of_mem_take hc
  rw [List.mem_mergeSort, List.mem_filter, mem_candidates] at hsorted
  obtain ⟨⟨id, element, helement, rfl⟩, -⟩ := hsorted
  exact ⟨id, element, helement, rfl⟩

end SimilarityStore.Store.Memory
