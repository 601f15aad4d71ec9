import SimilarityStore.Store.Run
import SimilarityStore.Store.VectorSet

/-
  Filters that have no text.  A leaf has a text unless its relation has none or a number in its
  operand is not finite, and a filter has one when all its leaves do.  Otherwise compiling stops at
  the first leaf from the left that has none (`Expr.failure?_compile`), and that leaf alone is
  reported.  Main statement: `compiling_reports_first_obstacle`.
-/

namespace SimilarityStore.Filter

open SimilarityStore.Numeric SimilarityStore.Store

/-! ## Leaves and their scalars -/

/-- A leaf of a filter. -/
structure Leaf where
  relation : Relation
  key : String
  operand : Operand

/-- The filter that is a leaf. -/
def Leaf.toExpr (leaf : Leaf) : Expr := .leaf leaf.relation leaf.key leaf.operand

/-- The leaves of a filter, from left to right. -/
def Expr.leaves : Expr → List Leaf
  | leaf r key operand => [⟨r, key, operand⟩]
  | and left right => left.leaves ++ right.leaves
  | or left right => left.leaves ++ right.leaves
  | not inner => inner.leaves

/-- The scalars of an operand, from left to right, nulls included. -/
def Operand.scalars : Operand → List Scalar
  | scalar s => [s]
  | set items => items

/-- Every number of the operand is finite. -/
def Operand.IsFinite (operand : Operand) : Prop :=
  ∀ x, Scalar.real x ∈ operand.scalars → FloatingPoint.isFinite x = true

/-- The relation has a text, and so has every number of the operand. -/
def Leaf.HasText (leaf : Leaf) : Prop := leaf.relation ≠ .containing ∧ leaf.operand.IsFinite

/-! ## Where compiling stops -/

/-- What a computation failed with, if it did. -/
def failure? {ε α : Type} : Except ε α → Option ε
  | .ok _ => none
  | .error e => some e

theorem failure?_map {ε α β : Type} (r : Except ε α) (g : α → β) :
    failure? (r >>= fun a => .ok (g a)) = failure? r := by
  cases r <;> rfl

/-- Of two computations in order the first failure counts. -/
theorem failure?_both {ε α β γ : Type} (r : Except ε α) (s : Except ε β) (g : α → β → γ) :
    failure? (r >>= fun a => s >>= fun b => .ok (g a b)) = (failure? r).or (failure? s) := by
  cases r with
  | error e => rfl
  | ok a => exact failure?_map s (g a)

/-- The obstacle that a scalar is. -/
def Scalar.obstacle? : Scalar → Option Obstacle
  | real x => if FloatingPoint.isFinite x then none else some (.notFinite x)
  | _ => none

/-- The obstacle that a leaf is: its relation, or the first number of its operand that is not
finite. -/
def Leaf.obstacle? (leaf : Leaf) : Option Obstacle :=
  if leaf.relation = .containing then some (.unsupported leaf.toExpr)
  else leaf.operand.scalars.findSome? Scalar.obstacle?

theorem Scalar.failure?_compile (s : Scalar) : failure? s.compile = s.obstacle? := by
  cases s with
  | real x =>
    rw [Scalar.compile, Scalar.obstacle?]
    split
    · rfl
    · rfl
  | null | bool b | int i | text t => rfl

theorem failure?_compileAll (items : List Scalar) :
    failure? (compileAll items) = items.findSome? Scalar.obstacle? := by
  induction items with
  | nil => rfl
  | cons s items ih =>
    have hcons : failure? (compileAll (s :: items)) =
        (failure? s.compile).or (failure? (compileAll items)) := failure?_both _ _ List.cons
    rw [hcons, s.failure?_compile, ih, List.findSome?_cons]
    cases s.obstacle? <;> rfl

/-- The nulls of a set, which are left out, are no obstacles. -/
theorem findSome?_present (items : List Scalar) :
    (items.filter fun s => !s.isNull).findSome? Scalar.obstacle? =
      items.findSome? Scalar.obstacle? := by
  induction items with
  | nil => rfl
  | cons s items ih =>
    cases s with
    | null =>
      rw [List.filter_cons_of_neg (by decide), ih]
      rfl
    | bool b | int i | real x | text t =>
      rw [List.filter_cons_of_pos rfl, List.findSome?_cons, List.findSome?_cons, ih]

theorem Operand.failure?_compile (operand : Operand) :
    failure? operand.compile = operand.scalars.findSome? Scalar.obstacle? := by
  cases operand with
  | scalar s =>
    have hone : failure? (Operand.scalar s).compile = s.obstacle? := s.failure?_compile
    rw [hone, Operand.scalars, List.findSome?_cons]
    cases s.obstacle? <;> rfl
  | set items =>
    have hset : failure? (Operand.set items).compile =
        failure? (compileAll (items.filter fun s => !s.isNull)) := failure?_map _ _
    rw [hset, failure?_compileAll, findSome?_present]
    rfl

/-- Only one relation has no text. -/
theorem Relation.frame?_eq_none_iff (r : Relation) : r.frame? = none ↔ r = .containing := by
  cases r <;> simp [Relation.frame?]

theorem Leaf.failure?_compile (leaf : Leaf) : failure? leaf.toExpr.compile = leaf.obstacle? := by
  rw [Leaf.toExpr, Expr.compile, Leaf.obstacle?]
  split
  · next hframe =>
    rw [if_pos ((Relation.frame?_eq_none_iff _).1 hframe)]
    rfl
  · next before after hframe =>
    have hrelation : leaf.relation ≠ .containing := by
      intro hcontaining
      rw [(Relation.frame?_eq_none_iff _).2 hcontaining] at hframe
      cases hframe
    rw [if_neg hrelation, ← leaf.operand.failure?_compile]
    exact failure?_map _ _

/-- Compiling stops at the first leaf from the left that is an obstacle. -/
theorem Expr.failure?_compile (e : Expr) :
    failure? e.compile = e.leaves.findSome? Leaf.obstacle? := by
  induction e with
  | leaf r key operand =>
    have hleaf := Leaf.failure?_compile ⟨r, key, operand⟩
    rw [Leaf.toExpr] at hleaf
    rw [hleaf, Expr.leaves, List.findSome?_cons]
    cases Leaf.obstacle? ⟨r, key, operand⟩ <;> rfl
  | and left right ihl ihr =>
    rw [Expr.leaves, List.findSome?_append, ← ihl, ← ihr]
    exact failure?_both _ _ _
  | or left right ihl ihr =>
    rw [Expr.leaves, List.findSome?_append, ← ihl, ← ihr]
    exact failure?_both _ _ _
  | not inner ih =>
    rw [Expr.leaves, ← ih]
    exact failure?_map _ _

/-! ## What is an obstacle -/

theorem Scalar.obstacle?_of_some {s : Scalar} {o : Obstacle} (h : s.obstacle? = some o) :
    ∃ x, s = .real x ∧ FloatingPoint.isFinite x = false ∧ o = .notFinite x := by
  cases s with
  | real x =>
    rw [Scalar.obstacle?] at h
    split at h
    · cases h
    · next hx => exact ⟨x, rfl, Bool.eq_false_iff.2 hx, (Option.some.inj h).symm⟩
  | null | bool b | int i | text t => cases h

theorem Scalar.obstacle?_eq_none_iff {s : Scalar} :
    s.obstacle? = none ↔ ∀ x, s = .real x → FloatingPoint.isFinite x = true := by
  cases s with
  | real x => simp [Scalar.obstacle?]
  | null | bool b | int i | text t => simp [Scalar.obstacle?]

theorem Operand.isFinite_iff (operand : Operand) :
    operand.IsFinite ↔ operand.scalars.findSome? Scalar.obstacle? = none := by
  rw [List.findSome?_eq_none_iff]
  constructor
  · intro h s hs
    refine Scalar.obstacle?_eq_none_iff.2 fun x hx => ?_
    exact h x (hx ▸ hs)
  · intro h x hx
    exact Scalar.obstacle?_eq_none_iff.1 (h _ hx) x rfl

theorem Leaf.hasText_iff (leaf : Leaf) : leaf.HasText ↔ leaf.obstacle? = none := by
  rw [Leaf.HasText, Leaf.obstacle?, leaf.operand.isFinite_iff]
  split
  · next hcontaining => simp [hcontaining]
  · next hother => simp [hother]

/-- The event tells what is wrong with a leaf: its relation, or the first number of its operand that
is not finite. -/
structure Leaf.IsReportedBy (leaf : Leaf) (event : Event) : Prop where
  level : event.level = .warning
  unsupported : leaf.relation = .containing →
    event.message = "Filter type not supported" ∧
      event.fields = [("kind", "contains_string"), ("filter", leaf.toExpr.describe)]
  notFinite : leaf.relation ≠ .containing →
    ∃ before x after, leaf.operand.scalars = before ++ .real x :: after ∧
      (∀ y, Scalar.real y ∈ before → FloatingPoint.isFinite y = true) ∧
      FloatingPoint.isFinite x = false ∧ event.message = "Non-finite number in filter" ∧
      event.fields = [("value", NumberStyle.plain.spell x)]

theorem Leaf.isReportedBy_obstacle {leaf : Leaf} {o : Obstacle} (h : leaf.obstacle? = some o) :
    leaf.IsReportedBy (.filterObstacle o) := by
  unfold Leaf.obstacle? at h
  split at h
  · next hcontaining =>
    obtain rfl := Option.some.inj h
    refine ⟨rfl, fun _ => ⟨rfl, ?_⟩, fun hother => absurd hcontaining hother⟩
    have hkind : leaf.toExpr.kind = .leaf .containing := congrArg Kind.leaf hcontaining
    simp only [Event.fields, hkind]
    rfl
  · next hother =>
    obtain ⟨before, s, after, hscalars, hs, hbefore⟩ := List.findSome?_eq_some_iff.1 h
    obtain ⟨x, rfl, hx, rfl⟩ := Scalar.obstacle?_of_some hs
    refine ⟨rfl, fun hcontaining => absurd hcontaining hother, fun _ => ?_⟩
    refine ⟨before, x, after, hscalars, fun y hy => ?_, hx, rfl, rfl⟩
    exact Scalar.obstacle?_eq_none_iff.1 (hbefore _ hy) y rfl

/-! ## What compiling reports -/

/-- What a filter is compiled to, and what is reported on the way. -/
structure Compiles (e : Expr) (text? : Option String) (reported : List Event) : Prop where
  /-- There is a text exactly when every leaf has one. -/
  isSome_iff : text?.isSome = true ↔ ∀ leaf ∈ e.leaves, leaf.HasText
  /-- Nothing is reported with a text. -/
  silent : text?.isSome = true → reported = []
  /-- Without one there is a single report, of the first leaf that has no text. -/
  warned : text? = none → ∃ before leaf after event, e.leaves = before ++ leaf :: after ∧
    (∀ earlier ∈ before, earlier.HasText) ∧ ¬ leaf.HasText ∧ leaf.IsReportedBy event ∧
    reported = [event]

/-- What compiling a filter reports. -/
def Expr.reports (e : Expr) : List Event := (failure? e.compile).toList.map .filterObstacle

theorem Expr.compiles (e : Expr) : Compiles e e.compile.toOption e.reports := by
  have hfailure := e.failure?_compile
  unfold Expr.reports
  cases hcompile : e.compile with
  | ok text =>
    rw [hcompile] at hfailure
    have hall := List.findSome?_eq_none_iff.1 hfailure.symm
    refine ⟨?_, fun _ => rfl, fun hnone => absurd hnone (Option.some_ne_none text)⟩
    exact iff_of_true rfl fun leaf hleaf => leaf.hasText_iff.2 (hall leaf hleaf)
  | error o =>
    rw [hcompile] at hfailure
    obtain ⟨before, leaf, after, hleaves, hleaf, hbefore⟩ :=
      List.findSome?_eq_some_iff.1 hfailure.symm
    have hno : ¬ leaf.HasText := by
      rw [leaf.hasText_iff, hleaf]
      exact Option.some_ne_none o
    refine ⟨?_, fun hsome => absurd hsome Bool.false_ne_true, fun _ => ?_⟩
    · refine iff_of_false Bool.false_ne_true fun hall => hno (hall leaf ?_)
      rw [hleaves]
      exact List.mem_append_right before List.mem_cons_self
    · exact ⟨before, leaf, after, _, hleaves,
        fun earlier hearlier => earlier.hasText_iff.2 (hbefore earlier hearlier), hno,
        Leaf.isReportedBy_obstacle hleaf, rfl⟩

/-- Where a program compiles a filter, these are its reports, and nothing else happens. -/
theorem Expr.run_render {σ : Type} (e : Expr) (env : Environment σ) (w : World σ) :
    e.render.run.run env w = ⟨.ok e.compile.toOption, w, e.reports.map .log⟩ := by
  rw [e.render_eq, Expr.reports]
  cases e.compile <;> rfl

/-- A filter is compiled exactly when every leaf has a text, and nothing is reported then.
Otherwise there is a single warning, of the first leaf from the left that has none: it names the
leaf when its relation has no text, and else the first number of its operand that is not finite.
Every search with the filter makes these reports, and then tells that it goes on without it. -/
theorem compiling_reports_first_obstacle (e : Expr) :
    ∃ reported, Compiles e e.compile.toOption reported ∧
      ∀ {σ : Type} (env : Environment σ) (w : World σ),
        e.render.run.run env w = ⟨.ok e.compile.toOption, w, reported.map .log⟩ ∧
        ∀ set : VectorSet, (set.filterText (some e)).run env w = ⟨.ok e.compile.toOption, w,
          (reported ++ if e.compile.toOption.isSome then []
            else [Event.filterDropped set.key]).map .log⟩ := by
  refine ⟨e.reports, e.compiles, fun env w => ⟨e.run_render env w, fun set => ?_⟩⟩
  rw [set.filterText_some, Expr.reports]
  cases e.compile <;> rfl

end SimilarityStore.Filter
