import SimilarityStore.Predicate.Evaluate
import SimilarityStore.Proofs.Json.NumberValues
import SimilarityStore.Proofs.Predicate.GrammarParsing
import SimilarityStore.Proofs.Predicate.Lexemes

/-
  Laws of comparing.  Two values of one kind have an order that turns over with them
  (`Value.order?_swap`) and is transitive (`Value.order?_trans`), unless one of them is no number;
  all others have none.  The laws of the comparisons are what this order says
  (`comparisonLaws`).  In a text that is read as a term no number token stands for what is no number
  (`isNaN_of_hasLexeme`), the numbers in the term are these tokens (`Term.mem_leaves_of_read`), and
  no attribute that is read is such a value, so the laws hold of all operands there are.  Main
  statement: `comparisons_obey_laws`.
-/

namespace SimilarityStore.Numeric.FloatingPoint

variable {F : Type} [FloatingPoint F]

/-! ## The order of numbers -/

theorem order?_swap (x y : F) : order? y x = (order? x y).map Ordering.swap := by
  unfold order?
  rw [Bool.or_comm]
  split
  · rfl
  · exact congrArg some Std.OrientedOrd.eq_swap

/-- Two values compare when both are numbers, and then as their places do. -/
theorem order?_eq_some_iff {x y : F} {o : Ordering} :
    order? x y = some o ↔
      isNaN x = false ∧ isNaN y = false ∧ compare (rank x) (rank y) = o := by
  unfold order?
  cases isNaN x <;> cases isNaN y <;> simp

theorem order?_trans {x y z : F} (hxy : order? x y = some .lt) (hyz : order? y z = some .lt) :
    order? x z = some .lt := by
  obtain ⟨hx, -, hleft⟩ := order?_eq_some_iff.1 hxy
  obtain ⟨-, hz, hright⟩ := order?_eq_some_iff.1 hyz
  exact order?_eq_some_iff.2 ⟨hx, hz, Std.TransCmp.lt_trans hleft hright⟩

end SimilarityStore.Numeric.FloatingPoint

namespace SimilarityStore.Predicate

open SimilarityStore.Json (lookup?)
open SimilarityStore.Numeric Grammar

/-! ## The order of values -/

/-- The kinds of values that have an order. -/
inductive Kind where
  | null
  | bool
  | number
  | text
deriving DecidableEq

namespace Value

/-- The kind of a value, if it has an order; a list has none. -/
def kind? : Value → Option Kind
  | null => some .null
  | bool _ => some .bool
  | number _ => some .number
  | text _ => some .text
  | list _ => none

/-- Whether a value is one in double precision that is no number. -/
def isNaN : Value → Bool
  | number x => FloatingPoint.isNaN x
  | _ => false

/-- The order turns over with the values. -/
theorem order?_swap (x y : Value) : y.order? x = (x.order? y).map Ordering.swap := by
  cases x <;> cases y <;> try rfl
  case number.number a b => exact FloatingPoint.order?_swap a b
  case text.text s t => exact congrArg some Std.OrientedOrd.eq_swap
  case bool.bool a b => exact congrArg some Std.OrientedOrd.eq_swap

theorem order?_trans {x y z : Value} (hxy : x.order? y = some .lt) (hyz : y.order? z = some .lt) :
    x.order? z = some .lt := by
  cases x <;> cases y <;> try cases hxy
  case number.number a b =>
    cases z <;> try cases hyz
    case number c => exact FloatingPoint.order?_trans hxy hyz
  case text.text s t =>
    cases z <;> try cases hyz
    case text u =>
      exact congrArg some (Std.TransCmp.lt_trans (Option.some.inj hxy) (Option.some.inj hyz))
  case bool.bool a b =>
    cases z <;> try cases hyz
    case bool c =>
      exact congrArg some (Std.TransCmp.lt_trans (Option.some.inj hxy) (Option.some.inj hyz))

/-- Values of one kind have an order. -/
theorem exists_order? {x y : Value} {k : Kind} (hx : x.kind? = some k) (hy : y.kind? = some k)
    (hnx : x.isNaN = false) (hny : y.isNaN = false) : ∃ o, x.order? y = some o := by
  have hsame : x.kind? = y.kind? := hx.trans hy.symm
  cases x <;> cases y <;> try cases hsame
  case number.number a b => exact ⟨_, FloatingPoint.order?_eq hnx hny⟩
  case list.list items others => cases hx
  all_goals exact ⟨_, rfl⟩

/-- Other values have none. -/
theorem order?_eq_none {x y : Value} (h : x.kind? = none ∨ y.kind? = none ∨ x.kind? ≠ y.kind?) :
    x.order? y = none := by
  cases x <;> cases y <;> first | rfl | simp [kind?] at h

end Value

/-! ## Comparisons -/

/-- The comparison that says the same with its operands exchanged. -/
def Comparison.mirror : Comparison → Comparison
  | equal => equal
  | notEqual => notEqual
  | greater => less
  | atLeast => atMost
  | less => greater
  | atMost => atLeast

theorem Comparison.holds_mirror (c : Comparison) (o : Option Ordering) :
    c.mirror.holds (o.map Ordering.swap) = c.holds o := by
  cases c <;> rcases o with _ | (_ | _ | _) <;> rfl

theorem Comparison.holds_none (c : Comparison) : c.holds none = decide (c = notEqual) := by
  cases c <;> rfl

namespace Term

/-- A term is true. -/
def Holds (attributes : Attributes) (t : Term) : Prop := t.eval attributes = some (.bool true)

/-- The value of a term, if it has one, is not one in double precision that is no number. -/
def IsDefinite (attributes : Attributes) (t : Term) : Prop :=
  ∀ v, t.eval attributes = some v → v.isNaN = false

/-- What comparisons say about two terms. -/
structure ComparisonLaws (attributes : Attributes) (l r : Term) : Prop where
  /-- Nothing is true of a term without a value. -/
  absent : l.eval attributes = none ∨ r.eval attributes = none →
    (∀ c, (compare c l r).eval attributes = some (.bool false)) ∧
      (isIn l r).eval attributes = some (.bool false) ∧
      (notIn l r).eval attributes = some (.bool false)
  /-- Of terms with values, the negative statements are the negations of the positive ones. -/
  negated : ∀ x y, l.eval attributes = some x → r.eval attributes = some y →
    (∃ b, (compare .equal l r).eval attributes = some (.bool b) ∧
      (compare .notEqual l r).eval attributes = some (.bool !b)) ∧
    ∃ b, (isIn l r).eval attributes = some (.bool b) ∧
      (notIn l r).eval attributes = some (.bool !b)
  /-- A comparison says the same as its mirror image. -/
  mirrored : ∀ c, (compare c l r).eval attributes = (compare c.mirror r l).eval attributes
  /-- Of values of one kind exactly one is true: less, equal or greater. -/
  ordered : ∀ x y k, l.eval attributes = some x → r.eval attributes = some y →
    x.kind? = some k → y.kind? = some k →
    (∃! c, c ∈ [.less, .equal, .greater] ∧ Holds attributes (compare c l r)) ∧
      (Holds attributes (compare .atMost l r) ↔
        Holds attributes (compare .less l r) ∨ Holds attributes (compare .equal l r)) ∧
      (Holds attributes (compare .atLeast l r) ↔
        Holds attributes (compare .greater l r) ∨ Holds attributes (compare .equal l r))
  /-- What is less than something less is less. -/
  transitive : ∀ m, Holds attributes (compare .less l m) → Holds attributes (compare .less m r) →
    Holds attributes (compare .less l r)
  /-- Of values of different kinds, and of lists, it is only true that they differ. -/
  unordered : ∀ x y, l.eval attributes = some x → r.eval attributes = some y →
    x.kind? = none ∨ y.kind? = none ∨ x.kind? ≠ y.kind? →
    ∀ c, (compare c l r).eval attributes = some (.bool (decide (c = .notEqual)))

section Laws

variable {attributes : Attributes} {l r : Term}

theorem eval_compare {x y : Value} (hl : l.eval attributes = some x)
    (hr : r.eval attributes = some y) (c : Comparison) :
    (compare c l r).eval attributes = some (.bool (c.holds (x.order? y))) := by
  rw [eval, hl, hr, testBoth]

theorem holds_compare {x y : Value} (hl : l.eval attributes = some x)
    (hr : r.eval attributes = some y) (c : Comparison) :
    Holds attributes (compare c l r) ↔ c.holds (x.order? y) = true := by
  rw [Holds, eval_compare hl hr, Option.some.injEq, Value.bool.injEq]

/-- A comparison that is true is one of values. -/
theorem exists_of_holds {c : Comparison} (h : Holds attributes (compare c l r)) :
    ∃ x y, l.eval attributes = some x ∧ r.eval attributes = some y ∧
      c.holds (x.order? y) = true := by
  rw [Holds, eval, Option.some.injEq, Value.bool.injEq] at h
  cases hl : l.eval attributes with
  | none =>
    rw [hl] at h
    cases h
  | some x =>
    cases hr : r.eval attributes with
    | none =>
      rw [hl, hr] at h
      cases h
    | some y =>
      rw [hl, hr] at h
      exact ⟨x, y, rfl, rfl, h⟩

theorem testBoth_absent (test : Value → Value → Bool) {x y : Option Value}
    (h : x = none ∨ y = none) : testBoth test x y = false := by
  rcases h with rfl | rfl
  · rfl
  · cases x <;> rfl

/-- Exactly one comparison of three says what an order is. -/
theorem existsUnique_holds (o : Ordering) :
    ∃! c : Comparison, c ∈ [.less, .equal, .greater] ∧ c.holds (some o) = true := by
  cases o with
  | lt => exact ⟨.less, by decide, by rintro (_ | _ | _ | _ | _ | _) <;> decide⟩
  | eq => exact ⟨.equal, by decide, by rintro (_ | _ | _ | _ | _ | _) <;> decide⟩
  | gt => exact ⟨.greater, by decide, by rintro (_ | _ | _ | _ | _ | _) <;> decide⟩

theorem comparisonLaws (hl : l.IsDefinite attributes) (hr : r.IsDefinite attributes) :
    ComparisonLaws attributes l r where
  absent h := by
    refine ⟨fun c => ?_, ?_, ?_⟩ <;> rw [eval, testBoth_absent _ h]
  negated x y hx hy := by
    refine ⟨⟨_, eval_compare hx hy .equal, eval_compare hx hy .notEqual⟩, y.contains x, ?_, ?_⟩
    · rw [eval, hx, hy, testBoth]
    · rw [eval, hx, hy, testBoth]
  mirrored c := by
    rw [eval, eval]
    cases l.eval attributes with
    | none => rw [testBoth_absent _ (.inl rfl), testBoth_absent _ (.inr rfl)]
    | some x =>
      cases r.eval attributes with
      | none => rfl
      | some y => simp only [testBoth, x.order?_swap y, c.holds_mirror]
  ordered x y k hx hy hkx hky := by
    obtain ⟨o, ho⟩ := Value.exists_order? hkx hky (hl x hx) (hr y hy)
    simp only [holds_compare hx hy, ho]
    refine ⟨existsUnique_holds o, ?_, ?_⟩ <;> cases o <;> decide
  transitive m hlm hmr := by
    obtain ⟨x, y, hx, hy, hxy⟩ := exists_of_holds hlm
    obtain ⟨y', z, hy', hz, hyz⟩ := exists_of_holds hmr
    obtain rfl := Option.some.inj (hy.symm.trans hy')
    simp only [Comparison.holds, beq_iff_eq] at hxy hyz
    rw [holds_compare hx hz, Value.order?_trans hxy hyz]
    rfl
  unordered x y hx hy h c := by
    rw [eval_compare hx hy, Value.order?_eq_none h, c.holds_none]

end Laws

/-! ## Terms that are read -/

mutual

/-- A term with all terms in it. -/
def subterms : Term → List Term
  | literal value => [literal value]
  | selector name => [selector name]
  | list items => list items :: subtermsOfAll items
  | compare c left right => compare c left right :: (subterms left ++ subterms right)
  | isIn left right => isIn left right :: (subterms left ++ subterms right)
  | notIn left right => notIn left right :: (subterms left ++ subterms right)
  | and left right => and left right :: (subterms left ++ subterms right)
  | or left right => or left right :: (subterms left ++ subterms right)
  | not inner => not inner :: subterms inner

/-- All terms in the items of a list. -/
def subtermsOfAll : List Term → List Term
  | [] => []
  | item :: items => subterms item ++ subtermsOfAll items

end

end Term

/-- A token with a content of its own, and the leaf that it is in a term. -/
inductive Token.IsLeaf : Token → Term → Prop where
  | selector (name : String) : IsLeaf (.selector name) (.selector name)
  | text (s : String) : IsLeaf (.text s) (.literal (.text s))
  | number (x : Float) : IsLeaf (.number x) (.literal (.number x))

section Leaves

variable {token : Token} {leaf : Term}

-- Signs, words and brackets are no leaves, and the terms that they build are none either.  So every
-- case is that of the parts.
mutual

theorem Grammar.Disjunction.mem_leaves {ts : List Token} {t : Term} (h : Disjunction ts t)
    (hleaf : token.IsLeaf leaf) : leaf ∈ t.subterms ↔ token ∈ ts := by
  match h with
  | .single hc => exact hc.mem_leaves hleaf
  | .join hl hs hr =>
    have hleft := hl.mem_leaves hleaf
    have hright := hr.mem_leaves hleaf
    rcases hs with rfl | rfl <;> cases hleaf <;> simp [Term.subterms, hleft, hright]

theorem Grammar.Conjunction.mem_leaves {ts : List Token} {t : Term} (h : Conjunction ts t)
    (hleaf : token.IsLeaf leaf) : leaf ∈ t.subterms ↔ token ∈ ts := by
  match h with
  | .single hu => exact hu.mem_leaves hleaf
  | .join hl hs hr =>
    have hleft := hl.mem_leaves hleaf
    have hright := hr.mem_leaves hleaf
    rcases hs with rfl | rfl <;> cases hleaf <;> simp [Term.subterms, hleft, hright]

theorem Grammar.Unary.mem_leaves {ts : List Token} {t : Term} (h : Unary ts t)
    (hleaf : token.IsLeaf leaf) : leaf ∈ t.subterms ↔ token ∈ ts := by
  match h with
  | .negated hs hu =>
    have hinner := hu.mem_leaves hleaf
    rcases hs with rfl | rfl <;> cases hleaf <;> simp [Term.subterms, hinner]
  | .plain hc => exact hc.mem_leaves hleaf

theorem Grammar.Comparing.mem_leaves {ts : List Token} {t : Term} (h : Comparing ts t)
    (hleaf : token.IsLeaf leaf) : leaf ∈ t.subterms ↔ token ∈ ts := by
  match h with
  | .operand hp => exact hp.mem_leaves hleaf
  | .compare hl _ hr | .isIn hl hr | .notIn hl hr | .notInParens hl hr =>
    have hleft := hl.mem_leaves hleaf
    have hright := hr.mem_leaves hleaf
    cases hleaf <;> simp [Term.subterms, hleft, hright]

theorem Grammar.Primary.mem_leaves {ts : List Token} {t : Term} (h : Primary ts t)
    (hleaf : token.IsLeaf leaf) : leaf ∈ t.subterms ↔ token ∈ ts := by
  match h with
  | .parens hd =>
    have hinner := hd.mem_leaves hleaf
    cases hleaf <;> simp [hinner]
  | .list hi =>
    have hitems := hi.mem_leaves hleaf
    cases hleaf <;> simp [Term.subterms, hitems]
  | .emptyList => cases hleaf <;> simp [Term.subterms, Term.subtermsOfAll]
  | .selector _ | .text _ | .number _ | .true | .false | .null =>
    cases hleaf <;> simp [Term.subterms]

theorem Grammar.Items.mem_leaves {ts : List Token} {items : List Term} (h : Items ts items)
    (hleaf : token.IsLeaf leaf) : leaf ∈ Term.subtermsOfAll items ↔ token ∈ ts := by
  match h with
  | .last hp => simp [Term.subtermsOfAll, hp.mem_leaves hleaf]
  | .more hp hi =>
    have hitem := hp.mem_leaves hleaf
    have hmore := hi.mem_leaves hleaf
    cases hleaf <;> simp [Term.subtermsOfAll, hitem, hmore]

end

end Leaves

/-- The leaves of a term that is read are the tokens of its text. -/
theorem Term.mem_leaves_of_read {text : String} {ts : List Token} {t leaf : Term} {token : Token}
    (hscan : scan text = .ok ts) (hread : Term.read text = .ok t) (hleaf : token.IsLeaf leaf) :
    leaf ∈ t.subterms ↔ token ∈ ts := by
  rw [Term.read, hscan] at hread
  exact (parse_eq_ok_iff.1 hread).mem_leaves hleaf

theorem toLower_of_isDigit {c : Char} (h : c.isDigit = true) : c.toLower = c := by
  have hrange := toNat_of_isDigit h
  unfold Char.toLower
  rw [dif_neg]
  intro hupper
  have habove : 65 ≤ c.toNat := hupper.1
  omega

/-- What starts with a digit or a point, behind its sign, is a numeral if it is a literal. -/
theorem isNaN_of_splitSign {cs rest : List Char} {negative : Bool} {c : Char} {x : Float}
    (hc : c.isDigit = true ∨ c = '.') (hsplit : splitSign cs = (negative, c :: rest))
    (hx : readLiteral? cs = some x) : FloatingPoint.isNaN x = false := by
  have hfirst : c.toLower ≠ 'i' ∧ c.toLower ≠ 'n' := by
    rcases hc with hdigit | rfl
    · rw [toLower_of_isDigit hdigit]
      constructor <;> rintro rfl <;> cases hdigit
    · decide
  rw [readLiteral?_of_first hfirst.1 hfirst.2 hsplit] at hx
  obtain ⟨n, -, rfl⟩ := Option.map_eq_some_iff.1 hx
  exact n.isNaN_toFloat

/-- A number token stands for a number: its text starts with none of the named values. -/
theorem isNaN_of_hasLexeme {x : Float} {lexeme : List Char}
    (h : Token.HasLexeme (.number x) lexeme) : FloatingPoint.isNaN x = false := by
  cases h with
  | @number c cs x hrun hx =>
    have hstarts := hrun.starts
    simp only [startsNumber, Bool.or_eq_true, Bool.and_eq_true, decide_eq_true_eq] at hstarts
    rcases hstarts with hdigit | ⟨rfl | rfl, hnext⟩
    · have hsplit : splitSign (c :: cs) = (false, c :: cs) := by
        unfold splitSign
        split
        · next heq => cases heq; cases hdigit
        · next heq => cases heq; cases hdigit
        · rfl
      exact isNaN_of_splitSign (.inl hdigit) hsplit hx
    · cases cs with
      | nil => cases hnext
      | cons d cs => exact isNaN_of_splitSign (by simpa using hnext) rfl hx
    · exact isNaN_of_splitSign (.inr rfl) rfl hx
  | mark hmark => cases hmark

theorem isNaN_of_covers {cs rest : List Char} {ts : List Token} (h : Covers cs ts rest) :
    ∀ x, .number x ∈ ts → FloatingPoint.isNaN x = false := by
  induction h with
  | done hgap rest =>
    intro x hx
    cases hx
  | token hgap ht hafter ih =>
    intro x hx
    rcases List.mem_cons.1 hx with rfl | hmore
    · obtain ⟨lexeme, -, hlexeme, -⟩ := ht
      exact isNaN_of_hasLexeme hlexeme
    · exact ih x hmore

/-- No attribute that is read is one that is no number. -/
theorem isNaN_of_attribute {raw : Option String} {name : String} {v : Json.Value}
    (h : lookup? name (Term.attributesOf raw) = some v) : (Value.ofJson v).isNaN = false := by
  cases v with
  | number n =>
    unfold Term.attributesOf at h
    split at h
    · next members hmembers =>
      obtain ⟨s, -, hs⟩ := Option.bind_eq_some_iff.1 hmembers
      obtain ⟨m, hm⟩ := Json.Value.exists_numeral_of_lookup? hs h
      exact Json.Number.isNaN_of_ofNumeral? hm
    · cases h
  | null | bool _ | text _ | array _ | object _ => rfl

section Reading

variable {attributes : Attributes} {ts : List Token}

/-- No number among the tokens, and none among the attributes, is one that is no number. -/
structure AreNumbers (attributes : Attributes) (ts : List Token) : Prop where
  tokens : ∀ x, .number x ∈ ts → FloatingPoint.isNaN x = false
  attributes : ∀ name v, lookup? name attributes = some v → (Value.ofJson v).isNaN = false

/-- All terms in a term are definite. -/
def Term.AllDefinite (attributes : Attributes) (t : Term) : Prop :=
  ∀ s ∈ t.subterms, s.IsDefinite attributes

/-- A term has no number for a value but one that is a token or an attribute. -/
theorem Grammar.Disjunction.allDefinite {t : Term} (h : Disjunction ts t)
    (hts : AreNumbers attributes ts) : t.AllDefinite attributes := by
  intro s hs v hv
  cases s with
  | literal value =>
    obtain rfl := Option.some.inj hv
    cases value with
    | number x => exact hts.tokens x ((h.mem_leaves (.number x)).1 hs)
    | null | bool _ | text _ | list _ => rfl
  | selector name =>
    obtain ⟨w, hw, rfl⟩ := Option.map_eq_some_iff.1 hv
    exact hts.attributes name w hw
  | list _ | compare _ _ _ | isIn _ _ | notIn _ _ | and _ _ | or _ _ | not _ =>
    obtain rfl := Option.some.inj hv
    rfl

end Reading

/-- In a text that is read as a term no operand is a value that is no number, whatever the
attributes are. -/
theorem Term.allDefinite_of_read {text : String} {t : Term} (h : Term.read text = .ok t)
    (raw : Option String) : t.AllDefinite (Term.attributesOf raw) := by
  cases hscan : scan text with
  | error e =>
    rw [Term.read, hscan] at h
    cases h
  | ok ts =>
    rw [Term.read, hscan] at h
    exact (parse_eq_ok_iff.1 h).allDefinite
      ⟨isNaN_of_covers (scan_eq_ok_iff.1 hscan), fun _ _ => isNaN_of_attribute⟩

/-- The laws of comparing hold of any two terms and any attributes, as long as neither term has the
value that is no number; and in a text that is read as a term, for whatever attributes an element
has, no term has this value. -/
theorem comparisons_obey_laws :
    (∀ (attributes : Attributes) (l r : Term), l.IsDefinite attributes → r.IsDefinite attributes →
        Term.ComparisonLaws attributes l r) ∧
      ∀ (text : String) (t : Term) (raw : Option String), Term.read text = .ok t →
        ∀ s ∈ t.subterms, s.IsDefinite (Term.attributesOf raw) :=
  ⟨fun _ _ _ hl hr => Term.comparisonLaws hl hr,
    fun _ _ raw h => Term.allDefinite_of_read h raw⟩

theorem read_age_notEqual_null : Term.read ".age != null" =
    .ok (.compare .notEqual (.selector "age") (.literal .null)) := by
  have hselector : (Token.selector "age").HasSource '"' :=
    (.intro rfl (List.all_eq_true.1 rfl) : IsIdentifier ['a', 'g', 'e'])
  have hword : (Token.word "null").HasSource '"' :=
    (.intro rfl (List.all_eq_true.1 rfl) : IsIdentifier ['n', 'u', 'l', 'l'])
  have hoperator : (Token.operator .notEqual).HasSource '"' := trivial
  have hjoined : Joined [.selector "age", .operator .notEqual, .word "null"]
      ".age != null".toList :=
    .cons hselector (List.cons_ne_nil ' ' []) (by decide)
      (.cons hoperator (List.cons_ne_nil ' ' []) (by decide) (.last hword))
  rw [Term.read, scan_eq_ok_iff.2 hjoined.covers]
  exact parse_eq_ok_iff.2 (.single (.single (.plain (.compare (.selector "age") rfl .null))))

/-- Attributes with a number. -/
def aged : Attributes := [("age", .number (.int 30))]

theorem Term.isDefinite_of_eval {attributes : Attributes} {t : Term} {v : Value}
    (h : t.eval attributes = some v) (hv : v.isNaN = false) : t.IsDefinite attributes := by
  intro other hother
  rwa [← Option.some.inj (h.symm.trans hother)]

/-- Without attributes it is not even true that one differs from null.  A number is less than,
equal to or greater than another one, and it only differs from a text. -/
theorem comparisons_of_age :
    (Term.compare .notEqual (.selector "age") (.literal .null)).eval (Term.attributesOf none) =
        some (.bool false) ∧
      (∃! c : Comparison, c ∈ [.less, .equal, .greater] ∧
        Term.Holds aged (.compare c (.selector "age")
          (.literal (.number (FloatingPoint.ofInt 18))))) ∧
      ∀ c, (Term.compare c (.selector "age") (.literal (.text "18"))).eval aged =
        some (.bool (decide (c = .notEqual))) := by
  have hread := comparisons_obey_laws.2 _ _ none read_age_notEqual_null
  have habsent := comparisons_obey_laws.1 (Term.attributesOf none) (.selector "age")
    (.literal .null) (hread _ (by simp [Term.subterms])) (hread _ (by simp [Term.subterms]))
  have hage : (Term.selector "age").eval aged = some (.number (FloatingPoint.ofInt 30)) := rfl
  have hdefinite : (Term.selector "age").IsDefinite aged :=
    Term.isDefinite_of_eval hage (by decide +kernel)
  have hnumbers := comparisons_obey_laws.1 aged (.selector "age")
    (.literal (.number (FloatingPoint.ofInt 18))) hdefinite
    (Term.isDefinite_of_eval rfl (by decide +kernel))
  have hkinds := comparisons_obey_laws.1 aged (.selector "age") (.literal (.text "18")) hdefinite
    (Term.isDefinite_of_eval rfl rfl)
  refine ⟨(habsent.absent (.inl rfl)).1 .notEqual, ?_, ?_⟩
  · exact (hnumbers.ordered _ _ .number hage rfl rfl rfl).1
  · exact hkinds.unordered _ _ hage rfl (.inr (.inr (by decide)))

end SimilarityStore.Predicate
