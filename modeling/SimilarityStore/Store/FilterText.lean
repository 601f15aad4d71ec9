import SimilarityStore.Store.Program

/-
  Compiling filters inside programs.  The scalar or the leaf that has no text is reported where it
  is met, and compiling ends there.  Main statement: `Expr.render_eq`, the text is that of
  `Expr.compile`, and what is reported is the obstacle that `Expr.compile` ends with.
-/

namespace SimilarityStore.Filter

open SimilarityStore.Numeric SimilarityStore.Store

variable {α β : Type}

/-- Reports an obstacle and has no text. -/
def obstructed (obstacle : Obstacle) : OptionT Program α :=
  OptionT.mk do
    Program.report (.filterObstacle obstacle)
    return none

/-- The text of a scalar; a number without a finite value is reported. -/
def Scalar.render : Scalar → OptionT Program String
  | real x => if FloatingPoint.isFinite x then pure (real x).literal else obstructed (.notFinite x)
  | s => pure s.literal

/-- The texts of all scalars of a list, up to the first without one. -/
def renderAll : List Scalar → OptionT Program (List String)
  | [] => pure []
  | s :: rest => do
    let t ← s.render
    let ts ← renderAll rest
    return t :: ts

/-- The text of an operand: a literal, or a bracketed list of the literals that are not null. -/
def Operand.render : Operand → OptionT Program String
  | scalar s => s.render
  | set items => do
    let ts ← renderAll (items.filter fun s => !s.isNull)
    return "[" ++ String.intercalate "," ts ++ "]"

/-- The filter as a text, unless the first obstacle from the left is reported. -/
def Expr.render : Expr → OptionT Program String
  | leaf relation key operand =>
    match relation.frame? with
    | none => obstructed (.unsupported (leaf relation key operand))
    | some (before, after) => do
      let value ← operand.render
      return "." ++ key ++ before ++ value ++ after
  | and left right => do
    let l ← left.render
    let r ← right.render
    return "(" ++ l ++ " and " ++ r ++ ")"
  | or left right => do
    let l ← left.render
    let r ← right.render
    return "(" ++ l ++ " or " ++ r ++ ")"
  | not inner => do
    let i ← inner.render
    return "(not " ++ i ++ ")"

/-! ## Laws -/

/-- What was compiled, or a report of the obstacle. -/
def reporting : Except Obstacle α → OptionT Program α
  | .ok a => pure a
  | .error obstacle => obstructed obstacle

/-- Nothing is compiled behind an obstacle that is reported. -/
theorem reporting_bind (r : Except Obstacle α) (f : α → Except Obstacle β) :
    reporting (r >>= f) = reporting r >>= fun a => reporting (f a) := by
  cases r <;> rfl

theorem Scalar.render_eq (s : Scalar) : s.render = reporting s.compile := by
  cases s with
  | real x =>
    rw [render, compile]
    split <;> rfl
  | null | bool b | int i | text t => rfl

theorem renderAll_eq (items : List Scalar) : renderAll items = reporting (compileAll items) := by
  induction items with
  | nil => rfl
  | cons s rest ih =>
    simp only [renderAll, compileAll, s.render_eq, ih, reporting_bind]
    rfl

theorem Operand.render_eq (operand : Operand) : operand.render = reporting operand.compile := by
  cases operand with
  | scalar s => exact s.render_eq
  | set items =>
    simp only [render, compile, renderAll_eq, reporting_bind]
    rfl

/-- Compiling inside a program reports the obstacle that compiling ends with, and nothing else. -/
theorem Expr.render_eq (e : Expr) : e.render = reporting e.compile := by
  induction e with
  | leaf relation key operand =>
    rw [render, compile]
    cases relation.frame? with
    | none => rfl
    | some frame =>
      simp only [operand.render_eq, reporting_bind]
      rfl
  | and left right ihl ihr | or left right ihl ihr =>
    simp only [render, compile, ihl, ihr, reporting_bind]
    rfl
  | not inner ih =>
    simp only [render, compile, ih, reporting_bind]
    rfl

end SimilarityStore.Filter
