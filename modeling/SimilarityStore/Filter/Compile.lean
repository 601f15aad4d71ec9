import SimilarityStore.Filter.Expr

/-
  Compiling filters into filter texts:

    equal, name, "alice"          .name=="alice"
    greater, age, 5               .age>5
    among, age, [1, 2, 3]         .age in [1,2,3]
    notAmong, age, [1, 2]         .age not (in [1,2])
    and, or, not                  (l and r), (l or r), (not e)

  Keys and strings are written as they are.  A filter compiles when each of its leaves does; the
  first leaf from the left that does not is the obstacle that is reported.
-/

namespace SimilarityStore.Filter

open SimilarityStore.Numeric SimilarityStore.Text

/-- Why a filter has no text. -/
inductive Obstacle where
  /-- The leaf's relation has no text. -/
  | unsupported (leaf : Expr)
  /-- The operand holds a number that is infinite or not a number. -/
  | notFinite (x : Float)
deriving DecidableEq

/-- The text of a scalar. -/
def Scalar.literal : Scalar → String
  | null => "null"
  | bool b => if b then "true" else "false"
  | int i => signedText i.toInt
  | real x => NumberStyle.plain.spell x
  | text s => "\"" ++ s ++ "\""

/-- The text of a scalar, which a number without a finite value does not have. -/
def Scalar.compile : Scalar → Except Obstacle String
  | real x => if FloatingPoint.isFinite x then .ok (literal (real x)) else .error (.notFinite x)
  | s => .ok s.literal

/-- The texts of all scalars of a list. -/
def compileAll : List Scalar → Except Obstacle (List String)
  | [] => .ok []
  | s :: rest => do
    let t ← s.compile
    let ts ← compileAll rest
    return t :: ts

/-- The text of an operand: a literal, or a bracketed list of the literals that are not null. -/
def Operand.compile : Operand → Except Obstacle String
  | scalar s => s.compile
  | set items => do
    let ts ← compileAll (items.filter fun s => !s.isNull)
    return "[" ++ String.intercalate "," ts ++ "]"

/-- What stands between the key and the operand, and after the operand; none for a relation that
has no text. -/
def Relation.frame? : Relation → Option (String × String)
  | equal => some ("==", "")
  | notEqual => some ("!=", "")
  | atLeast => some (">=", "")
  | greater => some (">", "")
  | less => some ("<", "")
  | atMost => some ("<=", "")
  | among => some (" in ", "")
  | notAmong => some (" not (in ", ")")
  | containing => none

namespace Expr

/-- The filter as a text, or the first obstacle from the left. -/
def compile : Expr → Except Obstacle String
  | leaf relation key operand =>
    match relation.frame? with
    | none => .error (.unsupported (leaf relation key operand))
    | some (before, after) => do
      let value ← operand.compile
      return "." ++ key ++ before ++ value ++ after
  | and left right => do
    let l ← left.compile
    let r ← right.compile
    return "(" ++ l ++ " and " ++ r ++ ")"
  | or left right => do
    let l ← left.compile
    let r ← right.compile
    return "(" ++ l ++ " or " ++ r ++ ")"
  | not inner => do
    let i ← inner.compile
    return "(not " ++ i ++ ")"

end Expr

end SimilarityStore.Filter
