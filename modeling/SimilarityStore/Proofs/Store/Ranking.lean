import SimilarityStore.Store.Memory.View

/-
  The order of hits.  As long as all scores are numbers, candidates are ranked by a linear order:
  greater scores first, and of equal scores the lesser id.  So a search answers with the front of a
  list that is determined by its members (`ranked_unique`), whatever the order in which the elements
  of the set come (`Memory.searchListed_ranked`).
-/

namespace SimilarityStore.Store

open SimilarityStore.Numeric SimilarityStore.Predicate
open Std (ExtTreeMap TransCmp OrientedCmp)

/-- A scored id stands in front of another one: its score is greater, or the scores are equal and
its id is the lesser one. -/
def Outranks (score : Float) (id : String) (otherScore : Float) (otherId : String) : Prop :=
  FloatingPoint.order? score otherScore = some .gt ∨
    (FloatingPoint.order? score otherScore = some .eq ∧ id < otherId)

instance (score : Float) (id : String) (otherScore : Float) (otherId : String) :
    Decidable (Outranks score id otherScore otherId) := inferInstanceAs (Decidable (_ ∨ _))

theorem lt_of_compare_eq_lt {a b : String} (h : compare a b = .lt) : a < b := by
  change compareOfLessAndEq a b = .lt at h
  unfold compareOfLessAndEq at h
  split at h
  · assumption
  · split at h <;> cases h

namespace Candidate

/-- Whether the score is a number. -/
def IsScored (c : Candidate) : Prop := FloatingPoint.isNaN c.score = false

/-- The linear order of scored candidates. -/
def rankOrder : Candidate → Candidate → Ordering :=
  compareLex (compareOn fun c => -FloatingPoint.rank c.score) (compareOn Candidate.id)

instance : TransCmp rankOrder := inferInstanceAs (TransCmp (compareLex _ _))

theorem compare_neg (i j : Int) : compare (-i) (-j) = compare j i := by
  rcases Int.lt_trichotomy i j with h | rfl | h
  · rw [Int.compare_eq_gt.2 (by omega), Int.compare_eq_gt.2 h]
  · rw [Int.compare_eq_eq.2 rfl, Int.compare_eq_eq.2 rfl]
  · rw [Int.compare_eq_lt.2 (by omega), Int.compare_eq_lt.2 h]

/-- On scored candidates, what sorting goes by is the linear order. -/
theorem precedes_eq {a b : Candidate} (ha : a.IsScored) (hb : b.IsScored) :
    a.precedes b = (rankOrder a b).isLE := by
  rw [precedes, FloatingPoint.order?_eq hb ha, Option.getD_some, rankOrder, compareLex, compareOn,
    compareOn, compare_neg]

/-- Of two scored candidates with different ids, the one that does not stand behind is in front. -/
theorem outranks_of_isLE {a b : Candidate} (ha : a.IsScored) (hb : b.IsScored) (hid : a.id ≠ b.id)
    (h : (rankOrder a b).isLE = true) : Outranks a.score a.id b.score b.id := by
  unfold Outranks
  rw [FloatingPoint.order?_eq ha hb]
  rw [rankOrder, compareLex, compareOn, compareOn, compare_neg] at h
  rcases Int.lt_trichotomy (FloatingPoint.rank a.score) (FloatingPoint.rank b.score) with
    hlt | heq | hgt
  · rw [Int.compare_eq_gt.2 hlt] at h
    cases h
  · rw [heq, Int.compare_eq_eq.2 rfl] at h ⊢
    cases hc : compare a.id b.id with
    | lt => exact .inr ⟨rfl, lt_of_compare_eq_lt hc⟩
    | eq => exact absurd (Std.LawfulEqOrd.eq_of_compare hc) hid
    | gt =>
      rw [hc] at h
      cases h
  · exact .inl (congrArg some (Int.compare_eq_gt.2 hgt))

end Candidate

/-- No candidate outranks one that outranks it. -/
theorem Outranks.asymm {s t : Float} {i j : String} (h : Outranks s i t j) :
    ¬ Outranks t j s i := by
  unfold Outranks FloatingPoint.order? at *
  cases hs : FloatingPoint.isNaN s <;> cases ht : FloatingPoint.isNaN t <;>
    simp only [hs, ht, Bool.or_false, Bool.or_true, Bool.or_self, if_true, reduceCtorEq, false_and,
      or_self, Bool.false_eq_true, if_false, Option.some.injEq, Int.compare_eq_gt,
      Int.compare_eq_eq] at h ⊢
  rintro (hlt | ⟨heq, hback⟩)
  · omega
  · rcases h with hgt | ⟨-, hid⟩
    · omega
    · exact absurd hback (String.lt_asymm hid)

/-- A ranked list is determined by its members. -/
theorem ranked_unique {xs ys : List Candidate}
    (hx : xs.Pairwise fun a b => Outranks a.score a.id b.score b.id)
    (hy : ys.Pairwise fun a b => Outranks a.score a.id b.score b.id)
    (hmem : ∀ c, c ∈ xs ↔ c ∈ ys) : xs = ys := by
  have nodup {zs : List Candidate}
      (hz : zs.Pairwise fun a b => Outranks a.score a.id b.score b.id) : zs.Nodup := by
    refine hz.imp fun h heq => ?_
    subst heq
    exact h.asymm h
  have hperm : xs.Perm ys := (List.perm_ext_iff_of_nodup (nodup hx) (nodup hy)).2 hmem
  exact hperm.eq_of_pairwise (fun a b _ _ hab hba => absurd hba hab.asymm) hx hy

namespace Memory

/-- Candidates of different ids whose scores are numbers are sorted into the linear order. -/
theorem pairwise_mergeSort_precedes {cs : List Candidate} (hscored : ∀ c ∈ cs, c.IsScored)
    (hids : cs.Pairwise fun a b => a.id ≠ b.id) :
    (cs.mergeSort Candidate.precedes).Pairwise fun a b =>
      Outranks a.score a.id b.score b.id := by
  -- `precedes` is no order once a score is no number, so sort by the linear order instead
  have same : cs.mergeSort Candidate.precedes =
      cs.mergeSort fun a b => (Candidate.rankOrder a b).isLE := by
    have := List.map_mergeSort (r := Candidate.precedes)
      (s := fun a b => (Candidate.rankOrder a b).isLE) (f := id) (l := cs)
      fun a ha b hb => Candidate.precedes_eq (hscored a ha) (hscored b hb)
    rwa [List.map_id, List.map_id] at this
  have trans (a b c : Candidate) : (Candidate.rankOrder a b).isLE = true →
      (Candidate.rankOrder b c).isLE = true → (Candidate.rankOrder a c).isLE = true :=
    TransCmp.isLE_trans
  have total (a b : Candidate) :
      ((Candidate.rankOrder a b).isLE || (Candidate.rankOrder b a).isLE) = true := by
    have swap : Candidate.rankOrder b a = (Candidate.rankOrder a b).swap := OrientedCmp.eq_swap
    rw [swap]
    cases Candidate.rankOrder a b <;> rfl
  have sorted := List.pairwise_mergeSort trans total cs
  have distinct : (cs.mergeSort Candidate.precedes).Pairwise fun a b => a.id ≠ b.id :=
    ((List.mergeSort_perm cs _).pairwise_iff fun h => h.symm).2 hids
  rw [same] at distinct ⊢
  refine (sorted.and distinct).imp_of_mem fun ha hb h => ?_
  exact Candidate.outranks_of_isLE (hscored _ (List.mem_mergeSort.1 ha))
    (hscored _ (List.mem_mergeSort.1 hb)) h.2 h.1

/-! ## Searches of listed elements -/

/-- A list holds the contents of a set, each element once, in any order. -/
structure Lists (contents : String → Option Element) (listing : List (String × Element)) :
    Prop where
  distinct : listing.Pairwise fun a b => a.1 ≠ b.1
  mem_iff : ∀ id element, (id, element) ∈ listing ↔ contents id = some element

/-- The dimension check of a set whose elements come in the order of a list. -/
def checkListed (listing : List (String × Element)) (actual : Nat) : Except StoreError Unit :=
  match listing.head?.map fun e => e.2.vector.dimension with
  | some expected =>
    if expected = actual then .ok () else .error (.dimensionMismatch expected actual)
  | none => .ok ()

/-- The search of a set whose elements come in the order of a list. -/
def searchListed (listing : List (String × Element)) (query : FeatureVector) (p : Parameters) :
    Except StoreError (List Hit) := do
  let filter ← readFilter p.filter
  checkListed listing query.dimension
  let admitted := (listing.map fun (id, element) => candidate query id element).filter
    (admits p.tolerance filter)
  return ((admitted.mergeSort Candidate.precedes).take p.count).map Candidate.toHit

/-- A search takes the elements in the order of their ids. -/
theorem search_eq_searchListed (m : Memory) (key : String) (query : FeatureVector)
    (p : Parameters) : m.search key query p = searchListed (m.elements key).toList query p := rfl

theorem lists_toList (m : Memory) (key : String) :
    Lists (m.element? key) (m.elements key).toList where
  distinct := by
    refine ExtTreeMap.distinct_keys_toList.imp fun h => ?_
    rwa [Std.LawfulEqCmp.compare_eq_iff_eq] at h
  mem_iff _ _ := ExtTreeMap.mem_toList_iff_getElem?_eq_some

section Lists

variable {contents : String → Option Element} {listing : List (String × Element)}
  {query : FeatureVector} {p : Parameters} {filter : Option Term}

theorem Lists.mem_candidates (h : Lists contents listing) {c : Candidate} :
    c ∈ (listing.map fun (id, element) => candidate query id element) ↔
      ∃ id element, contents id = some element ∧ candidate query id element = c := by
  simp only [List.mem_map, Prod.exists, h.mem_iff]

/-- A dimension that all elements have fits them in any order. -/
theorem Lists.checkListed (h : Lists contents listing) {actual : Nat}
    (hdim : ∀ id element, contents id = some element → element.vector.dimension = actual) :
    Memory.checkListed listing actual = .ok () := by
  unfold Memory.checkListed
  cases listing with
  | nil => rfl
  | cons first rest =>
    have hfirst := hdim first.1 first.2 ((h.mem_iff _ _).1 List.mem_cons_self)
    simp [hfirst]

/-- Another dimension than the one that all elements have is refused in any order. -/
theorem Lists.checkListed_of_ne (h : Lists contents listing) {id : String} {element : Element}
    (helement : contents id = some element) {expected actual : Nat}
    (hdim : ∀ id element, contents id = some element → element.vector.dimension = expected)
    (hother : expected ≠ actual) :
    Memory.checkListed listing actual = .error (.dimensionMismatch expected actual) := by
  unfold Memory.checkListed
  cases listing with
  | nil => exact absurd ((h.mem_iff id element).2 helement) List.not_mem_nil
  | cons first rest =>
    have hfirst := hdim first.1 first.2 ((h.mem_iff _ _).1 List.mem_cons_self)
    simp [hfirst, hother]

/-- Whatever the order of the elements, a search answers with the front of the ranked list of all
candidates that it admits. -/
theorem searchListed_ranked (h : Lists contents listing)
    (hfilter : readFilter p.filter = .ok filter)
    (hdim : ∀ id element, contents id = some element →
      element.vector.dimension = query.dimension)
    (hscored : ∀ id element, contents id = some element →
      FloatingPoint.isNaN (query.score element.vector) = false) :
    ∃ ranked : List Candidate,
      searchListed listing query p = .ok ((ranked.take p.count).map Candidate.toHit) ∧
      (ranked.Pairwise fun a b => Outranks a.score a.id b.score b.id) ∧
      ∀ c, c ∈ ranked ↔
        (∃ id element, contents id = some element ∧ candidate query id element = c) ∧
          admits p.tolerance filter c = true := by
  let scored := listing.map fun (id, element) => candidate query id element
  let admitted := scored.filter (admits p.tolerance filter)
  refine ⟨admitted.mergeSort Candidate.precedes, ?_, ?_, fun c => ?_⟩
  · rw [searchListed, hfilter]
    simp only [bind, Except.bind, h.checkListed hdim]
    rfl
  · have hids : scored.Pairwise fun a b => a.id ≠ b.id := List.pairwise_map.2 h.distinct
    refine pairwise_mergeSort_precedes (fun c hc => ?_) (hids.filter _)
    obtain ⟨id, element, helement, rfl⟩ := h.mem_candidates.1 (List.mem_filter.1 hc).1
    exact hscored id element helement
  · rw [List.mem_mergeSort, List.mem_filter, h.mem_candidates]

end Lists

/-- A search answers with the front of the ranked list of all candidates that it admits. -/
theorem search_ranked {m : Memory} {key : String} {query : FeatureVector} {p : Parameters}
    {filter : Option Term} (hfilter : readFilter p.filter = .ok filter)
    (hdim : ∀ id element, m.element? key id = some element →
      element.vector.dimension = query.dimension)
    (hscored : ∀ id element, m.element? key id = some element →
      FloatingPoint.isNaN (query.score element.vector) = false) :
    ∃ ranked : List Candidate,
      m.search key query p = .ok ((ranked.take p.count).map Candidate.toHit) ∧
      (ranked.Pairwise fun a b => Outranks a.score a.id b.score b.id) ∧
      ∀ c, c ∈ ranked ↔
        (∃ id element, m.element? key id = some element ∧ candidate query id element = c) ∧
          admits p.tolerance filter c = true := by
  rw [search_eq_searchListed]
  exact searchListed_ranked (m.lists_toList key) hfilter hdim hscored

/-- What can be computed of every element under a key is so for every element there. -/
theorem forall_element?_of_all {m : Memory} {key : String} (test : FeatureVector → Bool)
    (h : (m.elements key).toList.all (fun e => test e.2.vector) = true) :
    ∀ id element, m.element? key id = some element → test element.vector = true := by
  intro id element helement
  exact List.all_eq_true.1 h (id, element) (((m.lists_toList key).mem_iff id element).2 helement)

end Memory

end SimilarityStore.Store
