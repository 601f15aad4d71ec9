import SimilarityStore.Proofs.Numeric.Arithmetic
import SimilarityStore.Proofs.Store.SearchResults

/-
  The range of scores.  A score is `(1 + cosine) / 2` in double precision, where the cosine is
  computed in single precision.  The score's place is a monotone function of the cosine's place
  (`rank_score`, `scorePlace_le`), so a score is a number in `[0, 1]` exactly when the computed
  cosine is a number in `[-1, 1]` (`isWithin_score_iff`).  Finite components do not ensure that.
  The products and sums of great components overflow, and then the cosine is no number; and rounding
  can put it slightly above one.
-/

namespace SimilarityStore.Numeric.FloatingPoint

variable {F : Type} [FloatingPoint F]

/-- The value is a number, neither below the first bound nor above the second. -/
def IsWithin (low high x : F) : Prop := isAtLeast x low = true ∧ isAtLeast high x = true

instance (low high x : F) : Decidable (IsWithin low high x) :=
  inferInstanceAs (Decidable (_ ∧ _))

/-- Between finite bounds there are only finite values. -/
theorem isWithin_iff {low high x : F} (hlow : isFinite low = true) (hhigh : isFinite high = true) :
    IsWithin low high x ↔ isFinite x = true ∧ rank low ≤ rank x ∧ rank x ≤ rank high := by
  unfold IsWithin
  rw [isAtLeast_iff, isAtLeast_iff]
  constructor
  · rintro ⟨⟨-, -, hl⟩, -, -, hh⟩
    refine ⟨?_, hl, hh⟩
    rw [isFinite_iff] at hlow hhigh ⊢
    omega
  · rintro ⟨hx, hl, hh⟩
    exact ⟨⟨isNaN_of_isFinite hx, isNaN_of_isFinite hlow, hl⟩,
      isNaN_of_isFinite hhigh, isNaN_of_isFinite hx, hh⟩

end SimilarityStore.Numeric.FloatingPoint

namespace SimilarityStore.Store

open SimilarityStore.Numeric FloatingPoint

/-! ## Scores and cosines -/

namespace FeatureVector

/-- The place of the cosine at a place, in double precision. -/
def cosinePlace (r : Int) : Int := binary64.place (binary32.value r) (2 ^ binary32.scale)

/-- The place of one more than the cosine at a place. -/
def raisedPlace (r : Int) : Int :=
  binary64.place (value (ofInt 1 : Float) + binary64.value (cosinePlace r)) (2 ^ binary64.scale)

/-- The place of the score for the cosine at a place. -/
def scorePlace (r : Int) : Int :=
  binary64.place (binary64.value (raisedPlace r)) (value (ofInt 2 : Float)).natAbs

theorem cosinePlace_le {i j : Int} (h : i ≤ j) : cosinePlace i ≤ cosinePlace j :=
  binary64.place_le (Nat.two_pow_pos _) (binary32.value_le h)

theorem raisedPlace_le {i j : Int} (h : i ≤ j) : raisedPlace i ≤ raisedPlace j :=
  binary64.place_le (Nat.two_pow_pos _)
    (Int.add_le_add_left (binary64.value_le (cosinePlace_le h)) _)

/-- A greater cosine gives no lesser score. -/
theorem scorePlace_le {i j : Int} (h : i ≤ j) : scorePlace i ≤ scorePlace j :=
  binary64.place_le (by decide +kernel) (binary64.value_le (raisedPlace_le h))

section Score

variable {query v : FeatureVector}

/-- What is computed from a finite value through a monotone function of places is finite, if that
function stays among the finite places up to the infinities. -/
theorem isFinite_of_place {f : Int → Int} (hf : ∀ {i j}, i ≤ j → f i ≤ f j) {c : Float32}
    (h : isFinite c = true) {x : Float} (hrank : rank x = f (rank c))
    (hends : -(binary64.infinity : Int) < f (-(binary32.infinity : Int)) ∧
      f binary32.infinity < binary64.infinity) : isFinite x = true := by
  have hplace : (rank c).natAbs < binary32.infinity := isFinite_iff.1 h
  have hlow : f (-(binary32.infinity : Int)) ≤ f (rank c) := hf (by omega)
  have hhigh : f (rank c) ≤ f binary32.infinity := hf (by omega)
  refine isFinite_iff.2 ?_
  change (rank x).natAbs < binary64.infinity
  omega

theorem isFinite_converted {c : Float32} (h : isFinite c = true) :
    isFinite (convert c : Float) = true :=
  isFinite_of_place cosinePlace_le h (rank_convert h) (by decide +kernel)

theorem rank_raised {c : Float32} (h : isFinite c = true) :
    rank (ofInt 1 + convert c : Float) = raisedPlace (rank c) := by
  have hrank : rank (convert c : Float) = cosinePlace (rank c) := rank_convert h
  rw [rank_add (by decide +kernel) (isFinite_converted h), raisedPlace, ← hrank]
  rfl

theorem isFinite_raised {c : Float32} (h : isFinite c = true) :
    isFinite (ofInt 1 + convert c : Float) = true :=
  isFinite_of_place raisedPlace_le h (rank_raised h) (by decide +kernel)

/-- The place of the score for a finite cosine. -/
theorem rank_score (h : isFinite (query.cosine v) = true) :
    rank (query.score v) = scorePlace (rank (query.cosine v)) := by
  have hrank := rank_raised h
  rw [score, rank_div (isFinite_raised h) (by decide +kernel) (by decide +kernel), scorePlace,
    ← hrank]
  rfl

/-- A score is finite only if the cosine is. -/
theorem isFinite_cosine (h : isFinite (query.score v) = true) :
    isFinite (query.cosine v) = true :=
  isFinite_of_convert (isFinite_of_add (isFinite_of_div (by decide +kernel) h)).2

/-- A score is finite if the cosine is. -/
theorem isFinite_score (h : isFinite (query.cosine v) = true) :
    isFinite (query.score v) = true :=
  isFinite_of_place scorePlace_le h (rank_score h) (by decide +kernel)

/-- A score is a number from zero to one exactly when the computed cosine is a number from minus one
to one. -/
theorem isWithin_score_iff :
    IsWithin (ofInt 0) (ofInt 1) (query.score v) ↔
      IsWithin (ofInt (-1)) (ofInt 1) (query.cosine v) := by
  rw [isWithin_iff (by decide +kernel) (by decide +kernel),
    isWithin_iff (by decide +kernel) (by decide +kernel)]
  -- at the bounds of the cosine lie the bounds of the score, and beyond them what is out of range
  have hbounds : rank (ofInt 0 : Float) = scorePlace (rank (ofInt (-1) : Float32)) ∧
      scorePlace (rank (ofInt 1 : Float32)) = rank (ofInt 1 : Float) := by decide +kernel
  have hbeyond : scorePlace (rank (ofInt (-1) : Float32) - 1) < rank (ofInt 0 : Float) ∧
      rank (ofInt 1 : Float) < scorePlace (rank (ofInt 1 : Float32) + 1) := by decide +kernel
  constructor
  · rintro ⟨hscore, hlow, hhigh⟩
    have hcosine := isFinite_cosine hscore
    rw [rank_score hcosine] at hlow hhigh
    refine ⟨hcosine, ?_, ?_⟩
    · refine Int.not_lt.1 fun hless => ?_
      have := scorePlace_le (Int.le_sub_one_of_lt hless)
      omega
    · refine Int.not_lt.1 fun hmore => ?_
      have := scorePlace_le (Int.add_one_le_of_lt hmore)
      omega
  · rintro ⟨hcosine, hlow, hhigh⟩
    have := scorePlace_le hlow
    have := scorePlace_le hhigh
    rw [rank_score hcosine]
    exact ⟨isFinite_score hcosine, by omega, by omega⟩

end Score

/-- Rounding takes the score of a vector for itself above one. -/
example : ¬IsWithin (ofInt 0) (ofInt 1)
    (score ⟨[ofDecimal false 5 (-1), ofDecimal false 5 (-1)]⟩
      ⟨[ofDecimal false 5 (-1), ofDecimal false 5 (-1)]⟩) := by decide +kernel

end FeatureVector

/-! ## Searches -/

/-- Candidates as the scale of scores promises them: all scores are numbers from zero to one, the
greater ones first, and of equal scores the lesser id first. -/
structure IsOnScale (cs : List Candidate) : Prop where
  scores : ∀ c ∈ cs, IsWithin (ofInt 0) (ofInt 1) c.score
  ranked : cs.Pairwise fun a b => Outranks a.score a.id b.score b.id

namespace Memory

variable {m : Memory} {key : String} {query : FeatureVector}

/-- A search without bounds finds every element whose dimension fits. -/
theorem exists_count_search
    (hdim : ∀ id element, m.element? key id = some element →
      element.vector.dimension = query.dimension) :
    ∃ count hits, m.search key query ⟨count, none, none⟩ = .ok hits ∧
      ∀ id element, m.element? key id = some element →
        (candidate query id element).toHit ∈ hits := by
  have hread : readFilter none = .ok none := rfl
  have hsearch := search_of_cardinality_le (p := ⟨m.cardinality key, none, none⟩) hread hdim
    (Nat.le_refl _)
  refine ⟨_, _, hsearch, fun id element helement => List.mem_map_of_mem ?_⟩
  rw [List.mem_mergeSort, List.mem_filter, mem_candidates]
  exact ⟨⟨id, element, helement, rfl⟩, rfl⟩

/-- Searches that keep to the scale for every count show the scores of all stored vectors. -/
theorem isWithin_of_searches
    (hdim : ∀ id element, m.element? key id = some element →
      element.vector.dimension = query.dimension)
    (h : ∀ count, ∃ cs : List Candidate, m.search key query ⟨count, none, none⟩ =
      .ok (cs.map Candidate.toHit) ∧ IsOnScale cs)
    {id : String} {element : Element} (helement : m.element? key id = some element) :
    IsWithin (ofInt 0) (ofInt 1) (query.score element.vector) := by
  obtain ⟨count, hits, hsearch, hmem⟩ := exists_count_search hdim
  obtain ⟨cs, hanswer, hscale⟩ := h count
  obtain rfl := Except.ok.inj (hsearch.symm.trans hanswer)
  obtain ⟨c, hc, hhit⟩ := List.mem_map.1 (hmem id element helement)
  have hscore : c.score = query.score element.vector := by
    simp only [Candidate.toHit, Hit.scored, candidate, Hit.mk.injEq, Option.some.injEq,
      Payload.mk.injEq] at hhit
    exact hhit.2.1
  rw [← hscore]
  exact hscale.scores c hc

/-- Searches without filter for a query of the stored dimension succeed and keep to the scale, for
every count, exactly when the cosine of the query with every stored vector is computed as a number
from minus one to one. -/
theorem searches_on_scale_iff
    (hdim : ∀ id element, m.element? key id = some element →
      element.vector.dimension = query.dimension) :
    (∀ count, ∃ cs : List Candidate, m.search key query ⟨count, none, none⟩ =
        .ok (cs.map Candidate.toHit) ∧ IsOnScale cs) ↔
      ∀ id element, m.element? key id = some element →
        IsWithin (ofInt (-1)) (ofInt 1) (query.cosine element.vector) := by
  constructor
  · intro h id element helement
    exact FeatureVector.isWithin_score_iff.1 (isWithin_of_searches hdim h helement)
  · intro h count
    have hwithin (id : String) (element : Element) (helement : m.element? key id = some element) :
        IsWithin (ofInt 0) (ofInt 1) (query.score element.vector) :=
      FeatureVector.isWithin_score_iff.2 (h id element helement)
    have hread : readFilter none = .ok none := rfl
    obtain ⟨ranked, hsearch, hsorted, hmem⟩ := search_ranked (p := ⟨count, none, none⟩) hread hdim
      fun id element helement => (isAtLeast_iff.1 (hwithin id element helement).1).1
    refine ⟨ranked.take count, by rw [hsearch], fun c hc => ?_,
      hsorted.sublist (List.take_sublist _ _)⟩
    obtain ⟨⟨id, element, helement, rfl⟩, -⟩ := (hmem c).1 (List.mem_of_mem_take hc)
    exact hwithin id element helement

end Memory

namespace VectorSet

/-- The memory after the mixed run. -/
def mixedMemory : Memory :=
  ((VectorSet.mk "k").worldAfter noEmbedder numberedIds mixedOperations).state

/-- After the mixed run an entry is stored, and searches along the axis keep to the scale. -/
theorem axisSearches_on_scale :
    (∃ element, mixedMemory.element? "k" "b" = some element) ∧
      ∀ count, ∃ cs : List Candidate,
        mixedMemory.search "k" axisQuery ⟨count, none, none⟩ = .ok (cs.map Candidate.toHit) ∧
          IsOnScale cs := by
  have stored : mixedMemory.element? "k" "b" =
      some ⟨⟨[ofInt 1, ofInt 1]⟩, some "\x7b\"n\":1\x7d"⟩ := by decide +kernel
  have dimension : ∀ id element, mixedMemory.element? "k" id = some element →
      (element.vector.dimension == axisQuery.dimension) = true :=
    Memory.forall_element?_of_all (fun v => v.dimension == axisQuery.dimension) (by decide +kernel)
  have cosine : ∀ id element, mixedMemory.element? "k" id = some element →
      decide (IsWithin (ofInt (-1)) (ofInt 1) (axisQuery.cosine element.vector)) = true :=
    Memory.forall_element?_of_all
      (fun v => decide (IsWithin (ofInt (-1)) (ofInt 1) (axisQuery.cosine v))) (by decide +kernel)
  refine ⟨⟨_, stored⟩, (Memory.searches_on_scale_iff fun id element helement => ?_).2
    fun id element helement => ?_⟩
  · exact eq_of_beq (dimension id element helement)
  · exact of_decide_eq_true (cosine id element helement)

/-- A vector whose square overflows in single precision. -/
def greatVector : FeatureVector := ⟨[FloatingPoint.ofDecimal false 1 30]⟩

/-- Not every search for a query that can be looked up and fits keeps to the scale, whatever is
stored. -/
theorem greatVector_off_scale :
    ¬∀ (ops : List Operation) (query : FeatureVector), query.validate = .ok () →
      (∀ id element,
        ((VectorSet.mk "k").worldAfter noEmbedder numberedIds ops).state.element? "k" id =
          some element → element.vector.dimension = query.dimension) →
      ∀ count, ∃ cs : List Candidate,
        ((VectorSet.mk "k").worldAfter noEmbedder numberedIds ops).state.search "k" query
          ⟨count, none, none⟩ = .ok (cs.map Candidate.toHit) ∧ IsOnScale cs := by
  intro h
  let ops : List Operation := [.addWithId "a" greatVector]
  let m : Memory := ((VectorSet.mk "k").worldAfter noEmbedder numberedIds ops).state
  have stored : m.element? "k" "a" = some ⟨greatVector, none⟩ := by decide +kernel
  have sound : greatVector.fault? = none := by decide +kernel
  have valid : greatVector.validate = .ok () := by rw [FeatureVector.validate, sound]
  have dimension : ∀ id element, m.element? "k" id = some element →
      (element.vector.dimension == greatVector.dimension) = true :=
    Memory.forall_element?_of_all (fun v => v.dimension == greatVector.dimension)
      (by decide +kernel)
  have fits (id : String) (element : Element) (helement : m.element? "k" id = some element) :
      element.vector.dimension = greatVector.dimension :=
    eq_of_beq (dimension id element helement)
  have within := Memory.isWithin_of_searches fits (h ops greatVector valid fits) stored
  exact absurd within (by decide +kernel)

end VectorSet

end SimilarityStore.Store
