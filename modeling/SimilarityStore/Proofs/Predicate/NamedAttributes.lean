import SimilarityStore.Proofs.Predicate.Comparisons

/-
  What a term can see of attributes.  Values are alike when no operation of terms tells them apart:
  they are the same, up to numbers that compare as equal, as the two zeros do.  Where two lists of
  attributes look alike under the names of its selectors, a term has no value on either side, or
  alike values (`Term.eval_alike`); the induction is on the term, and absence is one of its cases.
  Main statement: `terms_see_only_named_attributes`.
-/

namespace SimilarityStore.Numeric.FloatingPoint

variable {F : Type} [FloatingPoint F]

/-- Numbers that compare as equal compare alike with every other. -/
theorem order?_congr_left {x y : F} (h : order? x y = some .eq) (z : F) :
    order? x z = order? y z := by
  obtain ⟨hx, hy, hrank⟩ := order?_eq_some_iff.1 h
  rw [order?, order?, hx, hy, Std.LawfulEqOrd.eq_of_compare hrank]

/-- Only a zero compares as equal with a zero. -/
theorem isZero_congr {x y : F} (h : order? x y = some .eq) : isZero x = isZero y := by
  obtain ⟨-, -, hrank⟩ := order?_eq_some_iff.1 h
  rw [isZero, isZero, ← natAbs_rank x, ← natAbs_rank y, Std.LawfulEqOrd.eq_of_compare hrank]

end SimilarityStore.Numeric.FloatingPoint

namespace SimilarityStore.Predicate

open SimilarityStore.Json (lookup?)
open SimilarityStore.Numeric

/-! ## Values that are alike -/

namespace Value

/-- No operation of terms tells two values apart. -/
inductive Alike : Value → Value → Prop where
  | null : Alike null null
  | bool (b : Bool) : Alike (bool b) (bool b)
  /-- The same number, or two that compare as equal. -/
  | number {x y : Float} (h : x = y ∨ FloatingPoint.order? x y = some .eq) :
      Alike (number x) (number y)
  | text (s : String) : Alike (text s) (text s)
  | list {items others : List Value} (h : List.Forall₂ Alike items others) :
      Alike (list items) (list others)

mutual

theorem Alike.refl : ∀ v : Value, v.Alike v
  | .null => .null
  | .bool b => .bool b
  | .number _ => .number (.inl rfl)
  | .text s => .text s
  | .list items => .list (forall₂_alike_refl items)

theorem forall₂_alike_refl : ∀ items : List Value, List.Forall₂ Alike items items
  | [] => .nil
  | item :: items => .cons (Alike.refl item) (forall₂_alike_refl items)

end

theorem Alike.isTrue_eq {x y : Value} (h : x.Alike y) : x.isTrue = y.isTrue := by
  cases h with
  | null | bool _ | text _ => rfl
  | number h =>
    rcases h with rfl | heq
    · rfl
    · exact congrArg (!·) (FloatingPoint.isZero_congr heq)
  | list h => cases h <;> rfl

theorem Alike.order?_left {x y : Value} (h : x.Alike y) (z : Value) :
    x.order? z = y.order? z := by
  cases h with
  | null | bool _ | text _ => rfl
  | number h =>
    rcases h with rfl | heq
    · rfl
    · cases z with
      | number c => exact FloatingPoint.order?_congr_left heq c
      | null | bool _ | text _ | list _ => rfl
  | list h => cases z <;> rfl

/-- Alike values compare alike, on either side. -/
theorem Alike.order?_eq {l l' r r' : Value} (hl : l.Alike l') (hr : r.Alike r') :
    l.order? r = l'.order? r' := by
  rw [hl.order?_left, r.order?_swap, hr.order?_left, ← r'.order?_swap]

/-- Lists of alike items hold alike values, and texts are only alike if they are the same. -/
theorem Alike.contains_eq {l l' r r' : Value} (hl : l.Alike l') (hr : r.Alike r') :
    r.contains l = r'.contains l' := by
  cases hr with
  | null | bool _ | number _ => rfl
  | text s => cases hl <;> rfl
  | @list items others h =>
    simp only [contains]
    induction h with
    | nil => rfl
    | cons hitem _ ih => rw [List.any_cons, List.any_cons, ih, hl.order?_eq hitem]

end Value

/-- Values that may be missing are alike: both are missing, or there are alike values. -/
def AlikeOrMissing : Option Value → Option Value → Prop := Option.Rel Value.Alike

section Congruence

variable {a a' b b' : Option Value}

theorem AlikeOrMissing.isTrue_eq (h : AlikeOrMissing a a') :
    a.any Value.isTrue = a'.any Value.isTrue := by
  cases h with
  | none => rfl
  | some h => exact h.isTrue_eq

/-- A test that does not tell alike values apart gives the same answer, also when one is missing. -/
theorem AlikeOrMissing.testBoth_eq {test : Value → Value → Bool}
    (htest : ∀ {l l' r r'}, l.Alike l' → r.Alike r' → test l r = test l' r')
    (ha : AlikeOrMissing a a') (hb : AlikeOrMissing b b') :
    testBoth test a b = testBoth test a' b' := by
  cases ha with
  | none => rfl
  | some hl =>
    cases hb with
    | none => rfl
    | some hr => exact htest hl hr

/-- The same truth value stands on both sides. -/
theorem alikeOrMissing_bool {x y : Bool} (h : x = y) :
    AlikeOrMissing (some (.bool x)) (some (.bool y)) := by
  rw [h]
  exact .some (.bool y)

end Congruence

/-! ## Evaluating on two lists of attributes -/

/-- Two lists of attributes look alike under a name: both lack it, or both have it, with values that
terms do not tell apart. -/
def AgreeAt (first second : Attributes) (name : String) : Prop :=
  Option.Rel (fun v w => (Value.ofJson v).Alike (Value.ofJson w)) (lookup? name first)
    (lookup? name second)

variable {first second : Attributes}

theorem AgreeAt.alikeOrMissing {name : String} (h : AgreeAt first second name) :
    AlikeOrMissing ((lookup? name first).map Value.ofJson)
      ((lookup? name second).map Value.ofJson) := by
  unfold AgreeAt at h
  generalize lookup? name first = v at h ⊢
  generalize lookup? name second = w at h ⊢
  cases h with
  | none => exact .none
  | some hvalue => exact .some hvalue

namespace Term

/-- What holds of all selectors in two terms holds of those in either. -/
theorem agree_both {t l r : Term} (hsub : t.subterms = t :: (l.subterms ++ r.subterms))
    (h : ∀ name, .selector name ∈ t.subterms → AgreeAt first second name) :
    (∀ name, .selector name ∈ l.subterms → AgreeAt first second name) ∧
      ∀ name, .selector name ∈ r.subterms → AgreeAt first second name := by
  rw [hsub] at h
  exact ⟨fun name hname => h name (by simp [hname]), fun name hname => h name (by simp [hname])⟩

mutual

/-- A term has no value, or alike values, on attributes that look alike under its names. -/
theorem eval_alike (t : Term)
    (h : ∀ name, .selector name ∈ t.subterms → AgreeAt first second name) :
    AlikeOrMissing (t.eval first) (t.eval second) := by
  match t with
  | literal value => exact .some (Value.Alike.refl value)
  | selector name =>
    rw [eval, eval]
    exact (h name List.mem_cons_self).alikeOrMissing
  | list items =>
    exact .some (.list (evalItems_alike items fun name hname => h name (.tail _ hname)))
  | compare c l r =>
    obtain ⟨hl, hr⟩ := agree_both rfl h
    refine alikeOrMissing_bool ((eval_alike l hl).testBoth_eq (fun hx hy => ?_) (eval_alike r hr))
    rw [hx.order?_eq hy]
  | isIn l r =>
    obtain ⟨hl, hr⟩ := agree_both rfl h
    exact alikeOrMissing_bool
      ((eval_alike l hl).testBoth_eq (fun hx hy => hx.contains_eq hy) (eval_alike r hr))
  | notIn l r =>
    obtain ⟨hl, hr⟩ := agree_both rfl h
    refine alikeOrMissing_bool ((eval_alike l hl).testBoth_eq (fun hx hy => ?_) (eval_alike r hr))
    rw [hx.contains_eq hy]
  | and l r =>
    obtain ⟨hl, hr⟩ := agree_both rfl h
    exact alikeOrMissing_bool
      (congrArg₂ (· && ·) (eval_alike l hl).isTrue_eq (eval_alike r hr).isTrue_eq)
  | or l r =>
    obtain ⟨hl, hr⟩ := agree_both rfl h
    exact alikeOrMissing_bool
      (congrArg₂ (· || ·) (eval_alike l hl).isTrue_eq (eval_alike r hr).isTrue_eq)
  | not inner =>
    exact alikeOrMissing_bool (congrArg (!·)
      (eval_alike inner fun name hname => h name (.tail _ hname)).isTrue_eq)

/-- The items that have a value are the same ones, and their values are alike. -/
theorem evalItems_alike (items : List Term)
    (h : ∀ name, .selector name ∈ subtermsOfAll items → AgreeAt first second name) :
    List.Forall₂ Value.Alike (evalItems first items) (evalItems second items) := by
  match items with
  | [] => exact .nil
  | item :: items =>
    have hitem := eval_alike item fun name hname => h name (List.mem_append_left _ hname)
    have hmore := evalItems_alike items fun name hname => h name (List.mem_append_right _ hname)
    rw [evalItems, evalItems]
    generalize item.eval first = x at hitem ⊢
    generalize item.eval second = y at hitem ⊢
    cases hitem with
    | none => exact hmore
    | some hvalue => exact .cons hvalue hmore

end

/-- Whether an element passes is the same for attributes that look alike under the term's names. -/
theorem accepts_congr {t : Term} {raw other : Option String}
    (h : ∀ name, .selector name ∈ t.subterms →
      AgreeAt (attributesOf raw) (attributesOf other) name) :
    t.accepts raw = t.accepts other := (t.eval_alike h).isTrue_eq

/-- A text that holds no object has no attributes. -/
theorem attributesOf_eq_nil {raw : Option String}
    (h : ∀ members, raw.bind Json.Value.read? ≠ some (.object members)) :
    attributesOf raw = [] := by
  unfold attributesOf
  split
  · next members hmembers => exact absurd hmembers (h members)
  · rfl

end Term

/-- A term sees nothing of attributes but what stands under the names of its selectors, wherever in
it they are, and these are the selectors of its text.  So two elements both pass, or neither does,
if their attributes look alike under these names; and elements without attributes, with a text that
is no document, or with a document that is no object, all pass or not as the empty object does. -/
theorem terms_see_only_named_attributes :
    (∀ (t : Term) (raw other : Option String),
      (∀ name, .selector name ∈ t.subterms →
        AgreeAt (Term.attributesOf raw) (Term.attributesOf other) name) →
      t.accepts raw = t.accepts other) ∧
    (∀ (t : Term) (raw : Option String),
      (∀ members, raw.bind Json.Value.read? ≠ some (.object members)) →
      t.accepts raw = t.accepts (some "\x7b\x7d")) ∧
    ∀ (text : String) (ts : List Token) (t : Term), scan text = .ok ts →
      Term.read text = .ok t →
      ∀ name, .selector name ∈ t.subterms ↔ .selector name ∈ ts := by
  refine ⟨fun t raw other h => Term.accepts_congr h, fun t raw h => ?_,
    fun text ts t hscan hread name => Term.mem_leaves_of_read hscan hread (.selector name)⟩
  have hempty : Term.attributesOf (some "\x7b\x7d") = [] :=
    List.isEmpty_iff.1 (by decide +kernel)
  rw [Term.accepts, Term.accepts, Term.attributesOf_eq_nil h, hempty]

/-- An attribute that is a number is found by its value. -/
theorem lookup?_eq_number {attributes : Attributes} {name : String} {n : Json.Number}
    (h : ((lookup? name attributes).any fun
      | .number m => m = n
      | _ => false) = true) : lookup? name attributes = some (.number n) := by
  cases hv : lookup? name attributes with
  | none =>
    rw [hv] at h
    cases h
  | some v =>
    rw [hv] at h
    cases v with
    | number m => rw [of_decide_eq_true h]
    | null | bool _ | text _ | array _ | object _ => cases h

/-- The term that an attribute is not in a list of one other attribute. -/
def unlisted : Term := .not (.isIn (.selector "n") (.list [.selector "m"]))

/-- An element whose attribute is the positive zero. -/
def positiveElement : Option String := some "\x7b\"n\":0,\"z\":1\x7d"

/-- An element whose attribute is the negative zero. -/
def negativeElement : Option String := some "\x7b\"z\":null,\"n\":-0\x7d"

/-- Whether the attribute is listed is the same for the two zeros: both elements lack the name in
the list, and what else they have does not count. -/
theorem unlisted_sees_two_names :
    Term.read "! .n in [.m]" = .ok unlisted ∧
      (∀ name, .selector name ∈ unlisted.subterms →
        AgreeAt (Term.attributesOf positiveElement) (Term.attributesOf negativeElement) name) ∧
      unlisted.accepts positiveElement = unlisted.accepts negativeElement := by
  have hscan : scan "! .n in [.m]" = .ok [.operator .not, .selector "n", .word "in",
      .openBracket, .selector "m", .closeBracket] := by decide +kernel
  have hparse : parse [.operator .not, .selector "n", .word "in", .openBracket, .selector "m",
      .closeBracket] = .ok unlisted :=
    parse_eq_ok_iff.2 (.single (.single (.negated (.inr rfl) (.plain
      (.isIn (.selector "n") (.list (.last (.selector "m"))))))))
  have hread : Term.read "! .n in [.m]" = .ok unlisted := by
    rw [Term.read, hscan]
    exact hparse
  have hpositive : lookup? "n" (Term.attributesOf positiveElement) = some (.number (.int 0)) :=
    lookup?_eq_number (by decide +kernel)
  have hnegative : lookup? "n" (Term.attributesOf negativeElement) =
      some (.number (.real (-FloatingPoint.ofInt 0))) :=
    lookup?_eq_number (by decide +kernel)
  have hneither : lookup? "m" (Term.attributesOf positiveElement) = none ∧
      lookup? "m" (Term.attributesOf negativeElement) = none :=
    ⟨Option.isNone_iff_eq_none.1 (by decide +kernel),
      Option.isNone_iff_eq_none.1 (by decide +kernel)⟩
  have hagree : ∀ name, .selector name ∈ unlisted.subterms →
      AgreeAt (Term.attributesOf positiveElement) (Term.attributesOf negativeElement) name := by
    intro name hname
    have hnames := (terms_see_only_named_attributes.2.2 _ _ _ hscan hread name).1 hname
    obtain rfl | rfl : name = "n" ∨ name = "m" := by simpa using hnames
    · rw [AgreeAt, hpositive, hnegative]
      exact .some (.number (.inr (by decide +kernel)))
    · rw [AgreeAt, hneither.1, hneither.2]
      exact .none
  exact ⟨hread, hagree, terms_see_only_named_attributes.1 unlisted _ _ hagree⟩

end SimilarityStore.Predicate
