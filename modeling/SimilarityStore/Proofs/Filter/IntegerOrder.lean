import SimilarityStore.Proofs.Filter.Compilation
import SimilarityStore.Proofs.Json.RoundTrip
import SimilarityStore.Proofs.Numeric.ExactValues

/-
  Comparing attributes with integers.  The literal goes through its decimal text and the attribute
  does not, but both end as the double-precision value nearest to their integer.  So a comparison
  that is compiled and read again comes out as the ranks of these values compare (`passes?_leaf`):
  as the integers do up to `2 ^ 53`, and never the other way round beyond it.  Main statement:
  `integer_comparisons_keep_order`.
-/

namespace SimilarityStore.Filter

open SimilarityStore.Json SimilarityStore.Predicate SimilarityStore.Numeric FloatingPoint

/-- Whether an element with these attributes passes the text of a filter; none if the filter has no
text, or its text cannot be read. -/
def Expr.passes? (e : Expr) (raw : Option String) : Option Bool :=
  match e.compile with
  | .error _ => none
  | .ok text =>
    match Term.read text with
    | .error _ => none
    | .ok term => some (term.accepts raw)

theorem Expr.passes?_eq {e : Expr} {text : String} (h : e.compile = .ok text) (hw : e.IsWritable)
    (raw : Option String) : e.passes? raw = some (decide (e.Admits (memberOf? raw))) := by
  obtain ⟨t, hterm, hread⟩ := e.read_compile h hw
  have hpasses : e.passes? raw = some (t.accepts raw) := by
    simp only [passes?, h, hread]
  rw [hpasses, Option.some.injEq, Bool.eq_iff_iff, decide_eq_true_eq]
  exact e.accepts_iff hterm raw

/-- The comparison of integers that a relation stands for, if it stands for one. -/
def Relation.ofIntegers? : Relation → Option (Int → Int → Bool)
  | equal => some fun j i => decide (j = i)
  | notEqual => some fun j i => decide (j ≠ i)
  | atLeast => some fun j i => decide (i ≤ j)
  | greater => some fun j i => decide (i < j)
  | less => some fun j i => decide (j < i)
  | atMost => some fun j i => decide (j ≤ i)
  | among | notAmong | containing => none

/-- Whether a relation that compares holds of an order. -/
def Relation.holdsOf (o : Ordering) : Relation → Bool
  | equal => o == .eq
  | notEqual => o != .eq
  | atLeast => o == .gt || o == .eq
  | greater => o == .gt
  | less => o == .lt
  | atMost => o == .lt || o == .eq
  | among | notAmong | containing => false

/-- What relations say of integers is what they say of the order of these. -/
theorem Relation.holdsOf_compare {r : Relation} {compares : Int → Int → Bool}
    (h : r.ofIntegers? = some compares) (j i : Int) :
    r.holdsOf (compare j i) = compares j i := by
  rw [Bool.eq_iff_iff]
  cases r with
  | among | notAmong | containing => cases h
  | equal | notEqual | greater | less =>
    cases h
    simp only [holdsOf, bne_iff_ne, beq_iff_eq, Int.compare_eq_lt, Int.compare_eq_eq,
      Int.compare_eq_gt, ne_eq, decide_eq_true_eq]
  | atLeast | atMost =>
    cases h
    simp only [holdsOf, beq_iff_eq, Bool.or_eq_true, Int.compare_eq_lt, Int.compare_eq_eq,
      Int.compare_eq_gt, decide_eq_true_eq]
    omega

section Leaf

variable {key : String} (hkey : IsName key) {raw : Option String} (i : Int64) {j : Int}
  (hj : memberOf? raw key = some (.number (.int j)))

include hkey hj

/-- A comparison of an attribute with an integer comes out as the ranks of both compare. -/
theorem passes?_leaf {r : Relation} (hr : r.ofIntegers?.isSome = true) :
    (Expr.leaf r key (.scalar (.int i))).passes? raw =
      some (r.holdsOf (compare (rank (ofInt j : Float)) (rank (ofInt i.toInt : Float)))) := by
  have hwritable : (Expr.leaf r key (.scalar (.int i))).IsWritable := ⟨hkey, trivial⟩
  have hadmits : (Expr.leaf r key (.scalar (.int i))).Admits (memberOf? raw) ↔
      r.holdsOf (compare (rank (ofInt j : Float)) (rank (ofInt i.toInt : Float))) = true := by
    have horder : (Operand.scalar (.int i)).order? (.number (.int j)) =
        some (compare (rank (ofInt j : Float)) (rank (ofInt i.toInt : Float))) :=
      order?_eq (isNaN_ofInt j) (isNaN_ofInt i.toInt)
    simp only [Expr.Admits, hj, Option.some.injEq, exists_eq_left']
    cases r with
    | among | notAmong | containing => cases hr
    | equal | notEqual | atLeast | greater | less | atMost =>
      simp [Relation.Holds, Relation.holdsOf, horder]
  have htext : ∃ text, (Expr.leaf r key (.scalar (.int i))).compile = .ok text := by
    cases r with
    | among | notAmong | containing => cases hr
    | equal | notEqual | atLeast | greater | less | atMost => exact ⟨_, rfl⟩
  obtain ⟨text, htext⟩ := htext
  rw [Expr.passes?_eq htext hwritable, Option.some.injEq, Bool.eq_iff_iff, decide_eq_true_eq]
  exact hadmits

end Leaf

/-- How the text of a comparison with an integer treats attributes whose member is an integer. -/
structure KeepsIntegerOrder (key : String) (i j : Int64) (raw : Option String) : Prop where
  /-- Up to `2 ^ 53` it is the comparison of the integers. -/
  exact : i.toInt.natAbs ≤ 2 ^ 53 → j.toInt.natAbs ≤ 2 ^ 53 →
    ∀ r compares, Relation.ofIntegers? r = some compares →
      (Expr.leaf r key (.scalar (.int i))).passes? raw = some (compares j.toInt i.toInt)
  /-- An integer that is not greater is never taken for a greater one. -/
  below : j.toInt ≤ i.toInt →
    (Expr.leaf .atMost key (.scalar (.int i))).passes? raw = some true ∧
      (Expr.leaf .greater key (.scalar (.int i))).passes? raw = some false
  /-- An integer that is not less is never taken for a lesser one. -/
  above : i.toInt ≤ j.toInt →
    (Expr.leaf .atLeast key (.scalar (.int i))).passes? raw = some true ∧
      (Expr.leaf .less key (.scalar (.int i))).passes? raw = some false
  /-- An integer is equal to itself. -/
  same : j.toInt = i.toInt →
    (Expr.leaf .equal key (.scalar (.int i))).passes? raw = some true ∧
      (Expr.leaf .notEqual key (.scalar (.int i))).passes? raw = some false

/-- Comparisons with integers keep the order of integers.  The text of each of the six comparisons
is read and decides attributes whose member is an integer: up to `2 ^ 53` as the integers compare,
and beyond it no order is turned round and no integer differs from itself. -/
theorem integer_comparisons_keep_order {key : String} (hkey : IsName key) (i j : Int64)
    {raw : Option String} (hj : memberOf? raw key = some (.number (.int j.toInt))) :
    KeepsIntegerOrder key i j raw where
  exact hi hj53 r compares hr := by
    have hsome : r.ofIntegers?.isSome = true := by rw [hr]; rfl
    rw [passes?_leaf hkey i hj hsome, compare_rank_ofInt hj53 hi, Relation.holdsOf_compare hr]
  below h := by
    have hrank := rank_ofInt_le h
    rw [passes?_leaf hkey i hj rfl, passes?_leaf hkey i hj rfl,
      Relation.holdsOf_compare (r := .atMost) rfl, Relation.holdsOf_compare (r := .greater) rfl]
    exact ⟨congrArg some (decide_eq_true hrank),
      congrArg some (decide_eq_false (Int.not_lt.2 hrank))⟩
  above h := by
    have hrank := rank_ofInt_le h
    rw [passes?_leaf hkey i hj rfl, passes?_leaf hkey i hj rfl,
      Relation.holdsOf_compare (r := .atLeast) rfl, Relation.holdsOf_compare (r := .less) rfl]
    exact ⟨congrArg some (decide_eq_true hrank),
      congrArg some (decide_eq_false (Int.not_lt.2 hrank))⟩
  same h := by
    rw [passes?_leaf hkey i hj rfl, passes?_leaf hkey i hj rfl, h,
      Relation.holdsOf_compare (r := .equal) rfl, Relation.holdsOf_compare (r := .notEqual) rfl]
    exact ⟨congrArg some (decide_eq_true rfl), congrArg some (decide_eq_false fun hne => hne rfl)⟩

/-- The text of an object with one member, an integer, is read as having that attribute. -/
theorem memberOf?_integer (name : String) (i : Int64) :
    memberOf? (some (Document.object [(some name, .ofInt i.toInt)]).write) name =
      some (.number (.int i.toInt)) := by
  have hwritten : (Document.object [(some name, .ofInt i.toInt)]).IsWritten :=
    ⟨rfl, isWhole_ofInt i.toInt, trivial⟩
  have hnumber (depth : Nat) :
      (Document.ofInt i.toInt).value? depth = some (.number (.int i.toInt)) := by
    have hhigh : i.toInt < 2 ^ 64 := by have := i.toInt_lt; omega
    rw [Document.ofInt, Document.value?, Number.ofNumeral?_ofInt i.le_toInt hhigh, Option.map_some]
  have hvalue : (Document.object [(some name, .ofInt i.toInt)]).value? nestingLimit =
      some (.object [(name, .number (.int i.toInt))]) := by
    simp [Document.value?, Document.memberValues?, hnumber, sortMembers, insertMember, nestingLimit]
  rw [memberOf?, Option.bind_some, Value.read?, Document.read?_write hwritten, Option.bind_some,
    hvalue]
  exact if_pos rfl

/-- An element whose text holds the integer `2 ^ 53 + 1`. -/
def beyondPrecision : Option String := some "\x7b\"n\":9007199254740993\x7d"

theorem memberOf?_beyondPrecision :
    memberOf? beyondPrecision "n" = some (.number (.int (Int64.toInt 9007199254740993))) := by
  have hwrite : beyondPrecision =
      some (Document.object [(some "n", .ofInt (Int64.toInt 9007199254740993))]).write := by
    decide +kernel
  rw [hwrite]
  exact memberOf?_integer "n" 9007199254740993

/-- `2 ^ 53 + 1` has no value of its own: it is not less than `2 ^ 53`, though it may be equal. -/
theorem beyondPrecision_keeps_order :
    IsName "n" ∧
      memberOf? beyondPrecision "n" = some (.number (.int (Int64.toInt 9007199254740993))) ∧
      (Expr.leaf .atLeast "n" (.scalar (.int 9007199254740992))).passes? beyondPrecision =
        some true ∧
      (Expr.leaf .less "n" (.scalar (.int 9007199254740992))).passes? beyondPrecision =
        some false := by
  have hname : IsName "n" := isName_of_all (c := 'n') rfl rfl rfl
  have hkeeps := integer_comparisons_keep_order hname 9007199254740992 9007199254740993
    memberOf?_beyondPrecision
  exact ⟨hname, memberOf?_beyondPrecision, hkeeps.above (by decide)⟩

end SimilarityStore.Filter
