import SimilarityStore.Filter.Codec
import SimilarityStore.Proofs.Filter.Meaning
import SimilarityStore.Proofs.Json.RoundTrip

/-
  Filters as documents.  A filter's document holds the filter, node by node: the short name of each
  kind is the kind's own, and no scalar has the document of another scalar or of a set.  Main
  statement: `Expr.written_filter_is_read_back`.
-/

namespace SimilarityStore.Filter

open SimilarityStore.Json SimilarityStore.Numeric

/-! ## Numbers in filters -/

/-- The real number that a scalar is, if it is one. -/
def Scalar.reals : Scalar → List Float
  | real x => [x]
  | _ => []

/-- The real numbers in an operand. -/
def Operand.reals : Operand → List Float
  | scalar s => s.reals
  | set items => items.flatMap Scalar.reals

/-- The real numbers in a filter, from left to right. -/
def Expr.reals (e : Expr) : List Float := e.operands.flatMap Operand.reals

/-- The kind of numerals that a list of real numbers and all integers are written with. -/
structure Covers (P : Numeral → Prop) (reals : List Float) : Prop where
  int : ∀ i : Int64, P (Numeral.ofInt i.toInt)
  real : ∀ x ∈ reals, FloatingPoint.isFinite x = true ∧ P (NumberStyle.document.numeral x)

variable {P : Numeral → Prop}

theorem Covers.mono {xs ys : List Float} (h : Covers P ys) (hsub : ∀ x ∈ xs, x ∈ ys) :
    Covers P xs where
  int := h.int
  real x hx := h.real x (hsub x hx)

theorem Scalar.every_toDocument {s : Scalar} (h : Covers P s.reals) : s.toDocument.Every P := by
  cases s with
  | null | bool => trivial
  | int i => exact h.int i
  | real x =>
    obtain ⟨hfin, hx⟩ := h.real x (List.mem_singleton_self x)
    rw [Scalar.toDocument, Number.ofFloat, Number.documentOf, if_pos hfin]
    exact hx
  | text s => rfl

theorem every_items {items : List Scalar} (h : Covers P (items.flatMap Scalar.reals)) :
    Document.EveryItem P (items.map Scalar.toDocument) := by
  induction items with
  | nil => trivial
  | cons s items ih =>
    rw [List.flatMap_cons] at h
    exact ⟨s.every_toDocument (h.mono fun x hx => List.mem_append_left _ hx),
      ih (h.mono fun x hx => List.mem_append_right _ hx)⟩

theorem Operand.every_toDocument {operand : Operand} (h : Covers P operand.reals) :
    operand.toDocument.Every P := by
  cases operand with
  | scalar s => exact s.every_toDocument h
  | set items => exact every_items h

/-- Everything in the document of a filter is a text or one of its numbers. -/
theorem Expr.every_toDocument {e : Expr} (h : Covers P e.reals) : e.toDocument.Every P := by
  induction e with
  | leaf r key operand =>
    have hoperand : Covers P operand.reals := h.mono fun x hx => by
      simpa [reals, operands] using hx
    exact ⟨rfl, rfl, rfl, rfl, rfl, operand.every_toDocument hoperand, trivial⟩
  | and left right ihl ihr | or left right ihl ihr =>
    have hleft := ihl (h.mono fun x hx => by
      simp only [reals, operands, List.flatMap_append, List.mem_append] at hx ⊢
      exact .inl hx)
    have hright := ihr (h.mono fun x hx => by
      simp only [reals, operands, List.flatMap_append, List.mem_append] at hx ⊢
      exact .inr hx)
    exact ⟨rfl, rfl, rfl, hleft, rfl, hright, trivial⟩
  | not inner ih => exact ⟨rfl, rfl, rfl, ih h, trivial⟩

/-! ## Decoding -/

/-- The numbers that the documents of a list of real numbers hold are these. -/
def AreReadBack (reals : List Float) : Prop :=
  ∀ x ∈ reals, FloatingPoint.isFinite x = true ∧
    Number.realOf? (NumberStyle.document.numeral x) = some x

theorem ofNumeral?_of_readBack {x : Float} {reals : List Float} (h : AreReadBack reals)
    (hx : x ∈ reals) :
    Number.ofNumeral? (NumberStyle.document.numeral x) = some (.real x) := by
  obtain ⟨hfin, hread⟩ := h x hx
  rw [Number.ofNumeral?_document hfin, hread]
  rfl

theorem ofNumeral?_ofInt64 (i : Int64) :
    Number.ofNumeral? (Numeral.ofInt i.toInt) = some (.int i.toInt) := by
  have hlow := i.le_toInt
  have hhigh := i.toInt_lt
  exact Number.ofNumeral?_ofInt (by omega) (by omega)

/-- A scalar is decoded from its own document: an integer stays one, and so does a real number. -/
theorem Scalar.ofDocument?_toDocument {s : Scalar} (h : AreReadBack s.reals) :
    Scalar.ofDocument? s.toDocument = some s := by
  cases s with
  | null | bool | text => rfl
  | int i =>
    have hlow := i.le_toInt
    have hhigh := i.toInt_lt
    have hnumber : Scalar.ofNumber (.int i.toInt) = .int i := by
      rw [Scalar.ofNumber, if_pos ⟨by omega, by omega⟩, Int64.ofInt_toInt]
    rw [Scalar.toDocument, Document.ofInt, Scalar.ofDocument?, ofNumeral?_ofInt64, Option.map_some,
      hnumber]
  | real x =>
    have hx : x ∈ (Scalar.real x).reals := List.mem_singleton_self x
    rw [Scalar.toDocument, Number.ofFloat, Number.documentOf, if_pos (h x hx).1,
      Scalar.ofDocument?, ofNumeral?_of_readBack h hx]
    rfl

/-- No scalar is written as an array. -/
theorem Operand.ofDocument?_scalar (s : Scalar) :
    Operand.ofDocument? s.toDocument = (Scalar.ofDocument? s.toDocument).map .scalar := by
  cases s with
  | real x =>
    rw [Scalar.toDocument, Number.ofFloat, Number.documentOf]
    split <;> rfl
  | _ => rfl

theorem mapM_toDocument {items : List Scalar} (h : AreReadBack (items.flatMap Scalar.reals)) :
    (items.map Scalar.toDocument).mapM Scalar.ofDocument? = some items := by
  induction items with
  | nil => rfl
  | cons s items ih =>
    rw [List.flatMap_cons] at h
    have hs := s.ofDocument?_toDocument fun x hx => h x (List.mem_append_left _ hx)
    have hitems := ih fun x hx => h x (List.mem_append_right _ hx)
    rw [List.map_cons, List.mapM_cons, hs, hitems]
    rfl

theorem Operand.ofDocument?_toDocument {operand : Operand} (h : AreReadBack operand.reals) :
    Operand.ofDocument? operand.toDocument = some operand := by
  cases operand with
  | scalar s =>
    rw [Operand.toDocument, Operand.ofDocument?_scalar, s.ofDocument?_toDocument h]
    rfl
  | set items =>
    rw [Operand.toDocument, Operand.ofDocument?, mapM_toDocument h]
    rfl

namespace Expr

section Decode

variable {kind? : Document → Option Kind}

theorem split?_leaf (hkind : ∀ k : Kind, kind? (.ofString k.tag) = some k) (r : Relation)
    (key : String) (operand : Operand) :
    split? kind? (leaf r key operand).toDocument =
      some (.leaf r, [.ofString key, operand.toDocument]) := by
  simp [toDocument, Document.ofFields, split?, Document.field?, Document.valuesOf, required?,
    hkind, partNames]

theorem split?_and (hkind : ∀ k : Kind, kind? (.ofString k.tag) = some k) (left right : Expr) :
    split? kind? (Expr.and left right).toDocument =
      some (.and, [left.toDocument, right.toDocument]) := by
  simp [toDocument, Document.ofFields, split?, Document.field?, Document.valuesOf, required?,
    hkind, partNames]

theorem split?_or (hkind : ∀ k : Kind, kind? (.ofString k.tag) = some k) (left right : Expr) :
    split? kind? (Expr.or left right).toDocument =
      some (.or, [left.toDocument, right.toDocument]) := by
  simp [toDocument, Document.ofFields, split?, Document.field?, Document.valuesOf, required?,
    hkind, partNames]

theorem split?_not (hkind : ∀ k : Kind, kind? (.ofString k.tag) = some k) (inner : Expr) :
    split? kind? (Expr.not inner).toDocument = some (.not, [inner.toDocument]) := by
  simp [toDocument, Document.ofFields, split?, Document.field?, Document.valuesOf, required?,
    hkind, partNames]

end Decode

theorem kindByName?_tag (k : Kind) : kindByName? (.ofString k.tag) = some k := k.ofTag?_tag

theorem kindByNameOrNumber?_tag (k : Kind) : kindByNameOrNumber? (.ofString k.tag) = some k :=
  k.ofTag?_tag

theorem reals_and (left right : Expr) : (Expr.and left right).reals = left.reals ++ right.reals :=
  List.flatMap_append

theorem reals_or (left right : Expr) : (Expr.or left right).reals = left.reals ++ right.reals :=
  List.flatMap_append

theorem depth_leaf {r : Relation} {key : String} {operand : Operand} {limit : Nat}
    (h : (leaf r key operand).toDocument.depth ≤ limit) : ∃ n, limit = n + 1 :=
  Nat.exists_eq_add_of_le' (Nat.le_trans (Nat.le_add_left 1 _) h)

/-- The documents of the parts are less deep by one than that of the whole. -/
theorem depth_and {left right : Expr} {limit : Nat}
    (h : (Expr.and left right).toDocument.depth ≤ limit) :
    ∃ n, limit = n + 1 ∧ left.toDocument.depth ≤ n ∧ right.toDocument.depth ≤ n := by
  simp only [toDocument, Document.ofFields, List.map_cons, List.map_nil, Document.depth,
    Document.membersDepth, Document.ofString] at h
  exact ⟨limit - 1, by omega, by omega, by omega⟩

theorem depth_or {left right : Expr} {limit : Nat}
    (h : (Expr.or left right).toDocument.depth ≤ limit) :
    ∃ n, limit = n + 1 ∧ left.toDocument.depth ≤ n ∧ right.toDocument.depth ≤ n := depth_and h

theorem depth_not {inner : Expr} {limit : Nat} (h : (Expr.not inner).toDocument.depth ≤ limit) :
    ∃ n, limit = n + 1 ∧ inner.toDocument.depth ≤ n := by
  simp only [toDocument, Document.ofFields, List.map_cons, List.map_nil, Document.depth,
    Document.membersDepth, Document.ofString] at h
  exact ⟨limit - 1, by omega, by omega⟩

/-- A filter is decoded from its own document, at any depth that the document does not exceed. -/
theorem decode?_toDocument {e : Expr} (h : AreReadBack e.reals)
    {kind? : Document → Option Kind} (hkind : ∀ k : Kind, kind? (.ofString k.tag) = some k)
    {limit : Nat} (hdepth : e.toDocument.depth ≤ limit) :
    decode? kind? limit e.toDocument = some e := by
  induction e generalizing kind? limit with
  | leaf r key operand =>
    obtain ⟨n, rfl⟩ := depth_leaf hdepth
    have hoperand := operand.ofDocument?_toDocument fun x hx => h x (by
      simpa [reals, operands] using hx)
    rw [decode?, split?_leaf hkind]
    simp only [hoperand]
    rfl
  | and left right ihl ihr =>
    obtain ⟨n, rfl, hl, hr⟩ := depth_and hdepth
    rw [reals_and] at h
    have hleft := ihl (fun x hx => h x (List.mem_append_left _ hx)) kindByNameOrNumber?_tag hl
    have hright := ihr (fun x hx => h x (List.mem_append_right _ hx)) kindByNameOrNumber?_tag hr
    rw [decode?, split?_and hkind]
    simp only [hleft, hright]
    rfl
  | or left right ihl ihr =>
    obtain ⟨n, rfl, hl, hr⟩ := depth_or hdepth
    rw [reals_or] at h
    have hleft := ihl (fun x hx => h x (List.mem_append_left _ hx)) kindByNameOrNumber?_tag hl
    have hright := ihr (fun x hx => h x (List.mem_append_right _ hx)) kindByNameOrNumber?_tag hr
    rw [decode?, split?_or hkind]
    simp only [hleft, hright]
    rfl
  | not inner ih =>
    obtain ⟨n, rfl, hi⟩ := depth_not hdepth
    have hinner := ih h kindByNameOrNumber?_tag hi
    rw [decode?, split?_not hkind]
    simp only [hinner]
    rfl

/-- A filter whose real numbers are finite and whose document has at most `nestingLimit` arrays and
objects open at once is read back from its own text, if only its real numbers are read back from
their numerals: every kind, key, scalar and set is the one that was written. -/
theorem written_filter_is_read_back (e : Expr)
    (hfinite : ∀ x ∈ e.reals, FloatingPoint.isFinite x = true)
    (hnumerals : ∀ x ∈ e.reals, Number.realOf? (NumberStyle.document.numeral x) = some x)
    (hdepth : e.toDocument.depth ≤ nestingLimit) : Expr.read? e.write = some e := by
  have hreals : AreReadBack e.reals := fun x hx => ⟨hfinite x hx, hnumerals x hx⟩
  have hwritten : e.toDocument.IsWritten := every_toDocument
    { int := fun i => isWhole_ofInt i.toInt
      real := fun x hx => ⟨hfinite x hx, (numeral_document (hfinite x hx)).1⟩ }
  have hnumbers : e.toDocument.Every Document.StandsForNumber := every_toDocument
    { int := fun i => by rw [Document.StandsForNumber, ofNumeral?_ofInt64]; rfl
      real := fun x hx => ⟨hfinite x hx, by
        rw [Document.StandsForNumber, ofNumeral?_of_readBack hreals hx]; rfl⟩ }
  have hsound : e.toDocument.isSound nestingLimit = true :=
    Document.isSome_value? _ hnumbers hdepth
  rw [read?, write, Document.read?_write hwritten, Option.bind_some, ofDocument?, if_pos hsound]
  exact decode?_toDocument hreals kindByName?_tag hdepth

/-- A filter with a whole real number, a negative zero, nulls, a set without items, a key with a
quote in it and a relation that no filter text can say. -/
def unusualFilter : Expr :=
  .or (.and (.leaf .atLeast "a\"b" (.scalar (.real 2)))
      (.leaf .among "" (.set [.null, .int 2, .real (-0.0), .real 0.1, .text "\n", .bool false])))
    (.not (.or (.leaf .containing "c" (.set [])) (.leaf .equal "d" (.scalar .null))))

theorem unusualFilter_is_read_back :
    (∀ x ∈ unusualFilter.reals, Number.realOf? (NumberStyle.document.numeral x) = some x) ∧
      Expr.read? unusualFilter.write = some unusualFilter := by
  have hfinite : ∀ x ∈ unusualFilter.reals, FloatingPoint.isFinite x = true := by
    decide +kernel
  have hnumerals : ∀ x ∈ unusualFilter.reals,
      Number.realOf? (NumberStyle.document.numeral x) = some x := by
    decide +kernel
  have hdepth : unusualFilter.toDocument.depth ≤ nestingLimit := by decide +kernel
  exact ⟨hnumerals, written_filter_is_read_back unusualFilter hfinite hnumerals hdepth⟩

end Expr

end SimilarityStore.Filter
