import SimilarityStore.Proofs.Store.Searching
import SimilarityStore.Server.Reply

/-
  The rows of a search reply.  A flat list has one row for each three of its items, of which the
  last row may lack some, and a map has one row for each of its pairs.  Every hit is decoded from
  its own items or its own pair (`Reply.decodesLocally`), and the complete hits are those of the
  rows whose id is a text and whose score is a number, in the order of the rows
  (`Reply.selects_rows`).
-/

namespace SimilarityStore.Server

open SimilarityStore.Numeric SimilarityStore.Store SimilarityStore.Text

namespace Reply

/-! ## Texts and numbers -/

/-- A reply is a text: a string of the text's UTF-8 bytes, or a simple string. -/
inductive Says : Reply → String → Prop where
  | bulk (s : String) : Says (.bulk s.toUTF8) s
  | simple (s : String) : Says (.simple s) s

/-- A reply is a number: a double, an integer, or a text that is a number literal between
blanks. -/
inductive Counts : Reply → Float → Prop where
  | double (x : Float) : Counts (.double x) x
  | int (i : Int64) : Counts (.int i) (FloatingPoint.ofInt i.toInt)
  | literal {reply : Reply} {s : String} {x : Float} : Says reply s →
      readLiteral? (trimList s.toList) = some x → Counts reply x

theorem fromUTF8?_eq_some_iff {bytes : ByteArray} {s : String} :
    String.fromUTF8? bytes = some s ↔ bytes = s.toUTF8 := by
  unfold String.fromUTF8?
  constructor
  · intro h
    split at h
    · cases h
      rfl
    · cases h
  · rintro rfl
    rw [String.toUTF8_eq_toByteArray, dif_pos s.isValidUTF8]
    rfl

theorem text?_eq_some_iff {reply : Reply} {s : String} : reply.text? = some s ↔ reply.Says s := by
  constructor
  · intro h
    cases reply with
    | bulk bytes =>
      obtain rfl := fromUTF8?_eq_some_iff.1 h
      exact .bulk s
    | simple t =>
      obtain rfl := Option.some.inj h
      exact .simple t
    | _ => cases h
  · intro h
    cases h with
    | bulk => exact fromUTF8?_eq_some_iff.2 rfl
    | simple => rfl

/-- A text is a number when it is a literal between blanks. -/
theorem number?_of_text {reply : Reply} {s : String} (h : reply.Says s) :
    reply.number? = readLiteral? (trimList s.toList) := by
  have ht := text?_eq_some_iff.2 h
  cases h with
  | bulk => simp only [number?, ht, Option.bind_some]
  | simple => simp only [number?, ht, Option.bind_some]

theorem number?_eq_some_iff {reply : Reply} {x : Float} :
    reply.number? = some x ↔ reply.Counts x := by
  constructor
  · intro h
    cases reply with
    | double y =>
      obtain rfl := Option.some.inj h
      exact .double y
    | int i =>
      obtain rfl := Option.some.inj h
      exact .int i
    | bulk bytes | simple t =>
      simp only [number?, Option.bind_eq_some_iff] at h
      obtain ⟨s, hs, hx⟩ := h
      exact .literal (text?_eq_some_iff.1 hs) hx
    | _ => cases h
  · intro h
    cases h with
    | double | int => rfl
    | literal hs hx => rw [number?_of_text hs, hx]

/-! ## Hits -/

theorem hitsOfItems_three (id score attributes : Reply) (rest : List Reply) :
    hitsOfItems (id :: score :: attributes :: rest) =
      ⟨id.text?, some ⟨score.number?, attributes.text?⟩⟩ :: hitsOfItems rest := by
  rw [hitsOfItems]

/-- Every three items are one hit, and so are one or two that are left over. -/
theorem length_hitsOfItems (items : List Reply) :
    (hitsOfItems items).length = (items.length + 2) / 3 := by
  fun_induction hitsOfItems items with
  | case1 => rfl
  | case2 id => simp
  | case3 id score => simp
  | case4 id score attributes rest ih =>
    simp only [List.length_cons, ih]
    omega

/-- The hit at a place is that of the three items at its place. -/
theorem getElem?_hitsOfItems (items : List Reply) (k : Nat) :
    (hitsOfItems items)[k]? = items[3 * k]?.map fun id =>
      ⟨id.text?, items[3 * k + 1]?.map fun score =>
        ⟨score.number?, items[3 * k + 2]?.bind text?⟩⟩ := by
  fun_induction hitsOfItems items generalizing k with
  | case1 => rfl
  | case2 id =>
    cases k with
    | zero => rfl
    | succ k => simp [Nat.mul_add]
  | case3 id score =>
    cases k with
    | zero => rfl
    | succ k => simp [Nat.mul_add]
  | case4 id score attributes rest ih =>
    cases k with
    | zero => rfl
    | succ k =>
      have shift (j : Nat) :
          (id :: score :: attributes :: rest)[3 * (k + 1) + j]? = rest[3 * k + j]? := by
        rw [Nat.mul_add, Nat.add_right_comm]
        rfl
      rw [List.getElem?_cons_succ, ih, shift 1, shift 2]
      exact congrArg (Option.map _) (shift 0).symm

/-- Whole groups of items are decoded by themselves. -/
theorem hitsOfItems_append (xs ys : List Reply) (h : xs.length % 3 = 0) :
    hitsOfItems (xs ++ ys) = hitsOfItems xs ++ hitsOfItems ys := by
  fun_induction hitsOfItems xs with
  | case1 => rfl
  | case2 id => simp at h
  | case3 id score => simp at h
  | case4 id score attributes rest ih =>
    have hrest : rest.length % 3 = 0 := by
      simp only [List.length_cons] at h
      omega
    simp only [List.cons_append, hitsOfItems_three, ih hrest]

/-- How replies are decoded into hits: each hit depends on its own part of the reply only. -/
structure DecodesLocally : Prop where
  /-- A list of `n` items has as many hits as there are thirds of `n`, rounded up. -/
  arrayLength : ∀ items : List Reply, (array items).hits.length = (items.length + 2) / 3
  /-- Hit number `k` of a list is decoded from the items `3 * k`, `3 * k + 1` and `3 * k + 2`, as
  far as they are there. -/
  arrayHit : ∀ (items : List Reply) (k : Nat), (array items).hits[k]? =
    items[3 * k]?.map fun id => ⟨id.text?, items[3 * k + 1]?.map fun score =>
      ⟨score.number?, items[3 * k + 2]?.bind text?⟩⟩
  /-- Behind whole groups of three, a list is decoded as if it stood alone. -/
  arrayAppend : ∀ xs ys : List Reply, xs.length % 3 = 0 →
    (array (xs ++ ys)).hits = (array xs).hits ++ (array ys).hits
  /-- A map has one hit for each pair, in their order, decoded from that pair. -/
  mapHits : ∀ pairs : List (Reply × Reply),
    (map pairs).hits = pairs.map fun pair => hitOfPair pair.1 pair.2
  /-- Nothing else has hits. -/
  otherHits : ∀ reply : Reply, (∀ items, reply ≠ array items) → (∀ pairs, reply ≠ map pairs) →
    reply.hits = []

theorem decodesLocally : DecodesLocally where
  arrayLength := length_hitsOfItems
  arrayHit := getElem?_hitsOfItems
  arrayAppend := hitsOfItems_append
  mapHits _ := rfl
  otherHits reply harray hmap := by
    cases reply with
    | array items => exact absurd rfl (harray items)
    | map pairs => exact absurd rfl (hmap pairs)
    | _ => rfl

/-! ## Rows -/

/-- The parts of a reply that stand for one hit. -/
structure Row where
  id : Reply
  score : Option Reply
  attributes : Option Reply

/-- The row of a pair of a map: an id with a list of score and attributes, with a score alone, or
with nothing. -/
def Row.ofPair (id : Reply) : Reply → Row
  | nil => ⟨id, none, none⟩
  | array parts => ⟨id, parts[0]?, parts[1]?⟩
  | score => ⟨id, some score, none⟩

/-- The rows of a reply: the items of a list by threes, or the pairs of a map. -/
def rows : Reply → List Row
  | array items => (List.range ((items.length + 2) / 3)).filterMap fun k =>
    items[3 * k]?.map fun id => ⟨id, items[3 * k + 1]?, items[3 * k + 2]?⟩
  | map pairs => pairs.map fun pair => Row.ofPair pair.1 pair.2
  | _ => []

/-- A row stands for a candidate: its id is a text and its score is a number.  The candidate's
attributes are the row's, as far as these are a text. -/
structure Row.StandsFor (row : Row) (c : Candidate) : Prop where
  id : row.id.Says c.id
  score : ∃ score, row.score = some score ∧ score.Counts c.score
  attributes : ∀ s, c.attributes = some s ↔
    ∃ attributes, row.attributes = some attributes ∧ attributes.Says s

/-- The candidates are those that the rows stand for, in the order of the rows; a row that stands
for none is passed over. -/
inductive Selects : List Row → List Candidate → Prop where
  | done : Selects [] []
  | found {row : Row} {c : Candidate} {rows : List Row} {cs : List Candidate} : row.StandsFor c →
      Selects rows cs → Selects (row :: rows) (c :: cs)
  | passed {row : Row} {rows : List Row} {cs : List Candidate} : (∀ c, ¬ row.StandsFor c) →
      Selects rows cs → Selects (row :: rows) cs

/-- The candidate that a row stands for, if there is one. -/
def Row.candidate? (row : Row) : Option Candidate := do
  let id ← row.id.text?
  let score ← row.score.bind number?
  return ⟨id, score, row.attributes.bind text?⟩

theorem Row.candidate?_eq_some_iff {row : Row} {c : Candidate} :
    row.candidate? = some c ↔ row.StandsFor c := by
  unfold candidate?
  simp only [bind, Option.bind_eq_some_iff, pure, Option.some.injEq]
  constructor
  · rintro ⟨id, hid, score, ⟨reply, hreply, hscore⟩, rfl⟩
    refine ⟨text?_eq_some_iff.1 hid, ⟨reply, hreply, number?_eq_some_iff.1 hscore⟩, fun s => ?_⟩
    simp only [Option.bind_eq_some_iff, text?_eq_some_iff]
  · rintro ⟨hid, ⟨reply, hreply, hscore⟩, hattributes⟩
    refine ⟨c.id, text?_eq_some_iff.2 hid, c.score,
      ⟨reply, hreply, number?_eq_some_iff.2 hscore⟩, ?_⟩
    have same : row.attributes.bind text? = c.attributes := by
      ext s
      simp only [hattributes, Option.bind_eq_some_iff, text?_eq_some_iff]
    rw [same]

theorem selects_filterMap (rows : List Row) : Selects rows (rows.filterMap Row.candidate?) := by
  induction rows with
  | nil => exact .done
  | cons row rows ih =>
    cases h : row.candidate? with
    | none =>
      rw [List.filterMap_cons_none h]
      refine .passed (fun c hc => ?_) ih
      rw [Row.candidate?_eq_some_iff.2 hc] at h
      cases h
    | some c =>
      rw [List.filterMap_cons_some h]
      exact .found (Row.candidate?_eq_some_iff.1 h) ih

/-- The rows determine the candidates that they stand for. -/
theorem Selects.eq_filterMap {rows : List Row} {cs : List Candidate} (h : Selects rows cs) :
    cs = rows.filterMap Row.candidate? := by
  induction h with
  | done => rfl
  | found hfound _ ih => rw [List.filterMap_cons_some (Row.candidate?_eq_some_iff.2 hfound), ih]
  | @passed row _ _ hnone _ ih =>
    have hcandidate : row.candidate? = none := by
      rw [Option.eq_none_iff_forall_ne_some]
      intro c hc
      exact hnone c (Row.candidate?_eq_some_iff.1 hc)
    rw [List.filterMap_cons_none hcandidate, ih]

/-! ## Rows and hits -/

/-- The row of a list at a place. -/
def rowAt? (items : List Reply) (k : Nat) : Option Row :=
  items[3 * k]?.map fun id => ⟨id, items[3 * k + 1]?, items[3 * k + 2]?⟩

/-- What is complete in a hit of a list is what its row stands for. -/
theorem candidate?_getElem (items : List Reply) (k : Nat) :
    (hitsOfItems items)[k]?.bind Hit.candidate? = (rowAt? items k).bind Row.candidate? := by
  rw [getElem?_hitsOfItems, rowAt?]
  cases items[3 * k]? with
  | none => rfl
  | some id => cases items[3 * k + 1]? <;> rfl

theorem candidate?_hitOfPair (id value : Reply) :
    (hitOfPair id value).candidate? = (Row.ofPair id value).candidate? := by
  cases value with
  | nil => rfl
  | array parts =>
    simp only [hitOfPair, Hit.candidate?, Row.ofPair, Row.candidate?, bind, Option.bind_some]
  | _ =>
    simp only [hitOfPair, Hit.candidate?, Row.ofPair, Row.candidate?, bind, Option.bind_some,
      Option.bind_none]

/-- A list is what stands at its places. -/
theorem filterMap_eq_range {α β : Type} (f : α → Option β) (xs : List α) :
    xs.filterMap f = (List.range xs.length).filterMap fun k => xs[k]?.bind f := by
  induction xs with
  | nil => rfl
  | cons x xs ih =>
    rw [List.length_cons, List.range_succ_eq_map, List.filterMap_cons, List.filterMap_cons,
      List.filterMap_map, ih]
    rfl

theorem filterMap_hits (reply : Reply) :
    reply.hits.filterMap Hit.candidate? = reply.rows.filterMap Row.candidate? := by
  cases reply with
  | array items =>
    have hhits : (array items).hits = hitsOfItems items := rfl
    rw [hhits, filterMap_eq_range, length_hitsOfItems, rows, List.filterMap_filterMap]
    simp only [candidate?_getElem, rowAt?]
  | map pairs =>
    simp only [hits, rows, List.filterMap_map]
    congr 1
    funext pair
    exact candidate?_hitOfPair pair.1 pair.2
  | _ => rfl

/-- The complete hits of a reply are the candidates that its rows stand for. -/
theorem selects_rows (reply : Reply) :
    Selects reply.rows (reply.hits.filterMap Hit.candidate?) := by
  rw [filterMap_hits]
  exact selects_filterMap reply.rows

end Reply

end SimilarityStore.Server
