import SimilarityStore.Proofs.Numeric.Complements
import SimilarityStore.Proofs.Store.FilteredSearch

/-
  Least scores.  A request's least score reaches the memory as a tolerance, its difference from one,
  and the memory compares scores with the difference of that from one.  Both differences are rounded
  in double precision.  So a search keeps to the multiple of `2 ^ (-53)` that is nearest to the
  least score, and to the least score itself when that is such a multiple, as from one half on all
  least scores are (`IsFraction.gap_dvd_value`).  Of the others, those below `2 ^ (-54)` let the
  score zero pass, and one that is rounded up shuts out the entry whose score it is.  Main statement:
  `search_keeps_rounded_floor`.
-/

namespace SimilarityStore.Store

open SimilarityStore.Numeric FloatingPoint

/-- The least score as the memory gets it back from the tolerance. -/
def SearchRequest.floor (r : SearchRequest) : Float := ofInt 1 - (ofInt 1 - r.minScore)

namespace VectorSet

/-- A request for a query that can be looked up and has the dimension of the stored vectors, with a
least score strictly between zero and one. -/
structure HasFloor (set : VectorSet) (m : Memory) (r : SearchRequest) (query : FeatureVector) :
    Prop where
  asked : r.query = some query
  valid : query.validate = .ok ()
  fits : ∀ id element, m.element? set.key id = some element →
    element.vector.dimension = query.dimension
  fraction : IsFraction r.minScore

section

variable (embedder : String → Except StoreError FeatureVector) (ids : Nat → String)

/-- A search keeps to a floor. -/
structure KeepsFloor (set : VectorSet) (w : World Memory) (r : SearchRequest)
    (query : FeatureVector) (floor : Float) : Prop where
  /-- The scores of all matches are numbers that reach the floor. -/
  sound : ∀ found, ((set.search (some r)).run (Memory.environment embedder ids) w).result =
    .ok found → ∀ m ∈ found, isAtLeast m.score floor = true
  /-- Without a filter, a search that may return every stored entry succeeds and returns all whose
  scores are numbers that reach the floor. -/
  complete : r.filter = none → w.state.cardinality set.key ≤ r.maxResults →
    ∃ found, ((set.search (some r)).run (Memory.environment embedder ids) w).result = .ok found ∧
      ∀ entry : Entry, w.state.element? set.key entry.id = some entry.element →
        isAtLeast (query.score entry.vector) floor = true → entry.toMatch query ∈ found

variable {embedder ids} {set : VectorSet} {w : World Memory} {r : SearchRequest}
  {query : FeatureVector}

/-- Floors at the same place are kept alike. -/
theorem KeepsFloor.congr {floor other : Float} (h : set.KeepsFloor embedder ids w r query floor)
    (hiff : ∀ score, isAtLeast score floor = true ↔ isAtLeast score other = true) :
    set.KeepsFloor embedder ids w r query other where
  sound found hfound m hm := (hiff m.score).1 (h.sound found hfound m hm)
  complete hfilter hcount := by
    obtain ⟨found, hfound, hmem⟩ := h.complete hfilter hcount
    exact ⟨found, hfound, fun entry hentry hscore => hmem entry hentry ((hiff _).2 hscore)⟩

theorem HasFloor.isReachedBy_iff (h : set.HasFloor w.state r query) (score : Float) :
    r.IsReachedBy score ↔ isAtLeast score r.floor = true := by
  unfold SearchRequest.IsReachedBy SearchRequest.floor
  rw [h.fraction.pos, h.fraction.lt_one]
  exact ⟨fun hreached => hreached rfl rfl, fun hscore _ _ => hscore⟩

variable (embedder ids) in
/-- A search keeps to the floor that the memory gets. -/
theorem HasFloor.keepsFloor (h : set.HasFloor w.state r query) :
    set.KeepsFloor embedder ids w r query r.floor where
  sound found hfound m hm := by
    obtain ⟨term, cs, -, hcs, rfl⟩ := candidates_of_search embedder ids h.asked hfound
    obtain ⟨c, hc, rfl⟩ := List.mem_map.1 hm
    obtain ⟨-, hadmits⟩ := hcs c hc
    simp only [Memory.admits, SearchRequest.parameters, Bool.and_eq_true, r.tolerance_iff,
      h.isReachedBy_iff] at hadmits
    exact hadmits.1
  complete hfilter hcount := by
    have hwritable : r.IsWritable := fun filter text hsome => by cases hfilter.symm.trans hsome
    have hadmitted (entry : Entry) : r.Admits entry := fun filter text hsome => by
      cases hfilter.symm.trans hsome
    obtain ⟨term, hread, hterm⟩ := SearchRequest.exists_readFilter hwritable
    have hsearch := Memory.search_of_cardinality_le (p := r.parameters) hread h.fits hcount
    have hreturns : Program.Returns (Memory.environment embedder ids) (set.search (some r)) w _ w :=
      returns_search h.asked h.valid hsearch
    refine ⟨_, hreturns.1, fun entry hentry hscore => ?_⟩
    rw [← candidateMatch_element query hentry]
    refine List.mem_map_of_mem ?_
    rw [List.mem_mergeSort, List.mem_filter, Memory.mem_candidates, admits_iff query hterm,
      h.isReachedBy_iff]
    exact ⟨⟨entry.id, entry.element, hentry, rfl⟩, hadmitted entry, hscore⟩

end

/-- Every search of the memory with a least score strictly between zero and one keeps to a floor,
the multiple of `2 ^ (-53)` that is nearest to the least score.  If the least score is such a
multiple, the search keeps to the least score itself. -/
theorem search_keeps_rounded_floor (embedder : String → Except StoreError FeatureVector)
    (ids : Nat → String) (set : VectorSet) (w : World Memory) (r : SearchRequest)
    (query : FeatureVector) (h : set.HasFloor w.state r query) :
    isFinite r.floor = true ∧
      value r.floor = (roundDiv (value r.minScore).natAbs gap * gap : Nat) ∧
      set.KeepsFloor embedder ids w r query r.floor ∧
      (gap ∣ (value r.minScore).natAbs →
        set.KeepsFloor embedder ids w r query r.minScore) := by
  obtain ⟨hvalue, hfinite⟩ := value_double_complement h.fraction
  rw [← SearchRequest.floor] at hvalue hfinite
  have kept := h.keepsFloor embedder ids
  refine ⟨hfinite, hvalue, kept, fun hdvd => kept.congr fun score => ?_⟩
  have hrank : rank r.floor = rank r.minScore := rank_double_complement h.fraction hdvd
  rw [isAtLeast_iff, isAtLeast_iff, hrank, isNaN_of_isFinite hfinite,
    isNaN_of_isFinite h.fraction.isFinite]

/-! ## Runs -/

/-- What can be computed of a query, a least score and the stored vectors makes a request have a
floor. -/
theorem hasFloor_of_all {set : VectorSet} {m : Memory} {r : SearchRequest} {query : FeatureVector}
    (hquery : r.query = some query) (hsound : query.fault? = none)
    (hfits : ((m.elements set.key).toList.all fun e =>
      e.2.vector.dimension == query.dimension) = true)
    (hpos : isLess (ofInt 0) r.minScore = true) (hlt : isLess r.minScore (ofInt 1) = true) :
    set.HasFloor m r query where
  asked := hquery
  valid := by rw [FeatureVector.validate, hsound]
  fits id element helement :=
    eq_of_beq (Memory.forall_element?_of_all (fun v => v.dimension == query.dimension) hfits id
      element helement)
  fraction := ⟨hpos, hlt⟩

/-- The world after operations under one key on an empty memory. -/
def worldUnderKey (ops : List Operation) : World Memory :=
  (VectorSet.mk "k").worldAfter noEmbedder numberedIds ops

/-- What a search finds after operations under one key. -/
def foundUnderKey (ops : List Operation) (r : SearchRequest) : Except StoreError (List Match) :=
  (((VectorSet.mk "k").search (some r)).run (Memory.environment noEmbedder numberedIds)
    (worldUnderKey ops)).result

/-- The query along the axis with a least score of one half. -/
def halfRequest : SearchRequest where
  query := some axisQuery
  minScore := ofDecimal false 5 (-1)

/-- After the mixed run the search from one half on finds the entry that is stored, and nothing
below one half. -/
theorem halfRequest_keeps_floor :
    (VectorSet.mk "k").HasFloor (worldUnderKey mixedOperations).state halfRequest axisQuery ∧
      ∃ found, foundUnderKey mixedOperations halfRequest = .ok found ∧
        (∃ m ∈ found, m.id = "b") ∧
        ∀ m ∈ found, isAtLeast m.score halfRequest.minScore = true := by
  have floored : (VectorSet.mk "k").HasFloor (worldUnderKey mixedOperations).state halfRequest
      axisQuery :=
    hasFloor_of_all rfl (by decide +kernel) (by decide +kernel) (by decide +kernel)
      (by decide +kernel)
  have multiple : gap ∣ (value halfRequest.minScore).natAbs :=
    floored.fraction.gap_dvd_value (by decide +kernel)
  obtain ⟨-, -, -, kept⟩ :=
    search_keeps_rounded_floor noEmbedder numberedIds _ _ halfRequest axisQuery floored
  let entry : Entry := ⟨"b", ⟨[ofInt 1, ofInt 1]⟩, some ⟨"\x7b\"n\":1\x7d"⟩⟩
  have stored : (worldUnderKey mixedOperations).state.element? "k" entry.id =
      some entry.element := by decide +kernel
  obtain ⟨found, hfound, hmem⟩ := (kept multiple).complete rfl (by decide +kernel)
  exact ⟨floored, found, hfound, ⟨_, hmem entry stored (by decide +kernel), rfl⟩,
    (kept multiple).sound found hfound⟩

/-- A request with a least score far below the gap. -/
def faintRequest : SearchRequest where
  query := some ⟨[ofInt 1]⟩
  minScore := ofDecimal false 1 (-17)

/-- A vector across the axis, slanted a little against it. -/
def slantVector : FeatureVector := ⟨[ofWord (2 ^ 31 + 97 * 2 ^ 23 + 1), ofInt 1]⟩

/-- The query along the axis, with the score of the slanted vector as least score. -/
def slantRequest : SearchRequest where
  query := some axisQuery
  minScore := axisQuery.score slantVector

/-- Searches do not keep to every least score: a match may have a lesser score, and an entry with
that score may be missing. -/
theorem least_score_not_kept :
    (¬∀ (ops : List Operation) (r : SearchRequest) (query : FeatureVector),
      (VectorSet.mk "k").HasFloor (worldUnderKey ops).state r query →
        ∀ found, foundUnderKey ops r = .ok found → ∀ m ∈ found,
          isLess m.score r.minScore = false) ∧
      ¬∀ (ops : List Operation) (r : SearchRequest) (query : FeatureVector),
        (VectorSet.mk "k").HasFloor (worldUnderKey ops).state r query →
          r.filter = none → (worldUnderKey ops).state.cardinality "k" ≤ r.maxResults →
          ∀ found, foundUnderKey ops r = .ok found → ∀ entry : Entry,
            (worldUnderKey ops).state.element? "k" entry.id = some entry.element →
            isAtLeast (query.score entry.vector) r.minScore = true →
              entry.toMatch query ∈ found := by
  constructor
  · intro h
    let entry : Entry := ⟨"a", ⟨[ofInt (-1)]⟩, none⟩
    let ops : List Operation := [.addWithId entry.id entry.vector]
    have floored : (VectorSet.mk "k").HasFloor (worldUnderKey ops).state faintRequest
        ⟨[ofInt 1]⟩ :=
      hasFloor_of_all rfl (by decide +kernel) (by decide +kernel) (by decide +kernel)
        (by decide +kernel)
    have stored : (worldUnderKey ops).state.element? "k" entry.id = some entry.element := by
      decide +kernel
    have kept := floored.keepsFloor noEmbedder numberedIds
    obtain ⟨found, hfound, hmem⟩ := kept.complete rfl (by decide +kernel)
    have hmatch := hmem entry stored (by decide +kernel)
    exact absurd (h ops faintRequest _ floored found hfound _ hmatch) (by decide +kernel)
  · intro h
    let entry : Entry := ⟨"a", slantVector, none⟩
    let ops : List Operation := [.addWithId entry.id entry.vector]
    have floored : (VectorSet.mk "k").HasFloor (worldUnderKey ops).state slantRequest axisQuery :=
      hasFloor_of_all rfl (by decide +kernel) (by decide +kernel) (by decide +kernel)
        (by decide +kernel)
    have stored : (worldUnderKey ops).state.element? "k" entry.id = some entry.element := by
      decide +kernel
    have few : (worldUnderKey ops).state.cardinality "k" ≤ slantRequest.maxResults := by
      decide +kernel
    have kept := floored.keepsFloor noEmbedder numberedIds
    obtain ⟨found, hfound, -⟩ := kept.complete rfl few
    have hmatch := h ops slantRequest axisQuery floored rfl few found hfound entry stored
      (by decide +kernel)
    exact absurd (kept.sound found hfound _ hmatch) (by decide +kernel)

end VectorSet

end SimilarityStore.Store
