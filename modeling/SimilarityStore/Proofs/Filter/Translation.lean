import SimilarityStore.Predicate.Evaluate
import SimilarityStore.Proofs.Filter.Meaning

/-
  Filters as terms, node by node (`Expr.term?`), and what these terms say: evaluating a filter's
  term gives the filter's direct meaning (`Expr.accepts_iff`).
-/

namespace SimilarityStore.Filter

open SimilarityStore.Json SimilarityStore.Numeric SimilarityStore.Predicate

/-! ## Terms of filters -/

/-- The value that a scalar is in a term. -/
def Scalar.value : Scalar → Predicate.Value
  | null => .null
  | bool b => .bool b
  | int i => .number (FloatingPoint.ofInt i.toInt)
  | real x => .number x
  | text s => .text s

/-- The items of a set that are not null. -/
def present (items : List Scalar) : List Scalar := items.filter fun s => !s.isNull

/-- The operand as a term: a literal, or the list of the items that are not null. -/
def Operand.term : Operand → Term
  | scalar s => .literal s.value
  | set items => .list ((present items).map fun s => .literal s.value)

/-- The term that a relation builds from an attribute and an operand, if terms have the relation. -/
def Relation.build? : Relation → Option (Term → Term → Term)
  | equal => some (.compare .equal)
  | notEqual => some (.compare .notEqual)
  | atLeast => some (.compare .atLeast)
  | greater => some (.compare .greater)
  | less => some (.compare .less)
  | atMost => some (.compare .atMost)
  | among => some .isIn
  | notAmong => some .notIn
  | containing => none

/-- The filter as a term, node by node. -/
def Expr.term? : Expr → Option Term
  | leaf r key operand => r.build?.map fun build => build (.selector key) operand.term
  | and left right => do
    let l ← left.term?
    let r ← right.term?
    return .and l r
  | or left right => do
    let l ← left.term?
    let r ← right.term?
    return .or l r
  | not inner => inner.term?.map .not

/-! ## Values -/

/-- The order of values is the order of attributes and scalars. -/
theorem order?_value (v : Json.Value) (s : Scalar) :
    (Value.ofJson v).order? s.value = s.order? v := by
  cases v <;> cases s <;> simp only [Value.ofJson, Scalar.value, Value.order?, Scalar.order?]

/-- A text occurs inside another one when it is an infix of it. -/
theorem occursIn_iff (part cs : List Char) : occursIn part cs = true ↔ part <:+: cs := by
  induction cs with
  | nil => simp [occursIn]
  | cons c cs ih =>
    rw [occursIn, Bool.or_eq_true, ih, List.isPrefixOf_iff_prefix, List.infix_cons_iff]

theorem evalItems_literals (attributes : Attributes) (items : List Scalar) :
    Term.evalItems attributes (items.map fun s => .literal s.value) = items.map Scalar.value := by
  induction items with
  | nil => simp [Term.evalItems]
  | cons s items ih => simp [Term.evalItems, Term.eval, ih]

namespace Operand

/-- The value of an operand's term. -/
def value : Operand → Predicate.Value
  | scalar s => s.value
  | set items => .list ((present items).map Scalar.value)

theorem eval_term (attributes : Attributes) (operand : Operand) :
    operand.term.eval attributes = some operand.value := by
  cases operand with
  | scalar s => simp [term, Term.eval, value]
  | set items => simp [term, Term.eval, value, evalItems_literals]

theorem order?_operand (v : Json.Value) (operand : Operand) :
    (Value.ofJson v).order? operand.value = operand.order? v := by
  cases operand with
  | scalar s => exact order?_value v s
  | set items => cases v <;> simp [value, order?, Value.ofJson, Value.order?]

theorem contains_value_iff (v : Json.Value) (operand : Operand) :
    operand.value.contains (Value.ofJson v) = true ↔ operand.Includes v := by
  cases operand with
  | set items =>
    simp only [value, Value.contains, Includes, List.any_map, List.any_eq_true, present,
      List.mem_filter, Function.comp_apply, order?_value, Comparison.holds, beq_iff_eq,
      Bool.not_eq_true', and_assoc]
  | scalar s =>
    cases s with
    | text u =>
      cases v <;> simp [value, Scalar.value, Value.ofJson, Value.contains, Includes, occursIn_iff]
    | _ => simp [value, Scalar.value, Value.contains, Includes]

end Operand

/-! ## Evaluation -/

/-- A leaf's term is evaluated to whether its attribute is present and related to the operand. -/
theorem eval_leaf {r : Relation} {build : Term → Term → Term} (h : r.build? = some build)
    (attributes : Attributes) (key : String) (operand : Operand) :
    ∃ b, (build (.selector key) operand.term).eval attributes = some (.bool b) ∧
      (b = true ↔ ∃ v, lookup? key attributes = some v ∧ r.Holds v operand) := by
  cases hv : lookup? key attributes with
  | none =>
    -- every test of two values fails without the first one, `notIn` included
    refine ⟨false, ?_, by simp⟩
    cases r <;> cases h <;> simp [Term.eval, hv, testBoth]
  | some v =>
    cases r <;> cases h <;>
      refine ⟨_, by
        simp only [Term.eval, hv, Option.map_some, Operand.eval_term, testBoth]; rfl, ?_⟩ <;>
      simp [Operand.order?_operand, Comparison.holds, Relation.Holds,
        ← Operand.contains_value_iff]

/-- The term of a filter is evaluated to whether the filter admits the attributes. -/
theorem Expr.eval_term {e : Expr} {t : Term} (h : e.term? = some t) (attributes : Attributes) :
    ∃ b, t.eval attributes = some (.bool b) ∧
      (b = true ↔ e.Admits fun key => lookup? key attributes) := by
  induction e generalizing t with
  | leaf r key operand =>
    obtain ⟨build, hb, rfl⟩ := Option.map_eq_some_iff.1 h
    exact eval_leaf hb attributes key operand
  | and left right ihl ihr =>
    obtain ⟨l, hl, h⟩ := Option.bind_eq_some_iff.1 h
    obtain ⟨r, hr, h⟩ := Option.bind_eq_some_iff.1 h
    obtain rfl := Option.some.inj h
    obtain ⟨a, ha, hla⟩ := ihl hl
    obtain ⟨b, hb, hrb⟩ := ihr hr
    refine ⟨a && b, by simp [Term.eval, ha, hb, Value.isTrue], ?_⟩
    rw [Bool.and_eq_true, hla, hrb]
    rfl
  | or left right ihl ihr =>
    obtain ⟨l, hl, h⟩ := Option.bind_eq_some_iff.1 h
    obtain ⟨r, hr, h⟩ := Option.bind_eq_some_iff.1 h
    obtain rfl := Option.some.inj h
    obtain ⟨a, ha, hla⟩ := ihl hl
    obtain ⟨b, hb, hrb⟩ := ihr hr
    refine ⟨a || b, by simp [Term.eval, ha, hb, Value.isTrue], ?_⟩
    rw [Bool.or_eq_true, hla, hrb]
    rfl
  | not inner ih =>
    obtain ⟨i, hi, rfl⟩ := Option.map_eq_some_iff.1 h
    obtain ⟨a, ha, hia⟩ := ih hi
    refine ⟨!a, by simp [Term.eval, ha, Value.isTrue], ?_⟩
    rw [Bool.not_eq_true', ← Bool.not_eq_true, hia]
    rfl

theorem lookup?_attributesOf (raw : Option String) :
    (fun key => lookup? key (Term.attributesOf raw)) = memberOf? raw := by
  funext key
  unfold Term.attributesOf memberOf?
  cases raw.bind Json.Value.read? with
  | none => rfl
  | some v => cases v <;> rfl

/-- An element passes the term of a filter exactly when the filter admits its attributes. -/
theorem Expr.accepts_iff {e : Expr} {t : Term} (h : e.term? = some t) (raw : Option String) :
    t.accepts raw = true ↔ e.Admits (memberOf? raw) := by
  obtain ⟨b, hb, hadmits⟩ := e.eval_term h (Term.attributesOf raw)
  rw [lookup?_attributesOf] at hadmits
  rw [Term.accepts, hb, ← hadmits]
  rfl

end SimilarityStore.Filter
