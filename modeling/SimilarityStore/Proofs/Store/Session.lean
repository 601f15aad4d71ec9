import SimilarityStore.Store.Memory.View

/-
  Sessions: calls made one after the other on the memory.  What is there afterwards is said by the
  history alone: an entry stands under a key when it was added there and nothing behind settles its
  id again.  The memory holds exactly the entries that stand (`Memory.records_session`), and from
  this follows what every later call is answered with and leaves behind (`Records.refinesMap`).
-/

namespace SimilarityStore.Store

open Std (ExtTreeMap LawfulEqCmp)

/-- The key that a call is about. -/
def Call.key : Call → String
  | .add key _ => key
  | .remove key _ => key
  | .fetch key _ => key
  | .search key _ _ => key
  | .delete key => key

/-- Whether a call only asks. -/
def Call.isReading : Call → Bool
  | .fetch _ _ => true
  | .search _ _ _ => true
  | _ => false

/-! ## Histories -/

/-- A call and its answer. -/
structure Exchange where
  call : Call
  answer : Except StoreError call.Answer

namespace Exchange

/-- Whether an entry was added under a key, and no error was answered. -/
def Adds (x : Exchange) (key : String) (entry : Entry) : Prop :=
  match x with
  | ⟨.add k e, .ok _⟩ => k = key ∧ e = entry
  | _ => False

/-- Whether the exchange decides what stands under a key and an id: an addition of the id without an
error, a removal of the id, or a deletion of the key. -/
def Settles (x : Exchange) (key id : String) : Prop :=
  match x with
  | ⟨.add k e, .ok _⟩ => k = key ∧ e.id = id
  | ⟨.remove k i, _⟩ => k = key ∧ i = id
  | ⟨.delete k, _⟩ => k = key
  | _ => False

theorem Adds.unique {x : Exchange} {key : String} {e f : Entry} (he : x.Adds key e)
    (hf : x.Adds key f) : e = f := by
  obtain ⟨call, answer⟩ := x
  cases call with
  | add k entry =>
    cases answer with
    | ok added => exact he.2.symm.trans hf.2
    | error error => cases he
  | _ => cases he

theorem Adds.settles {x : Exchange} {key : String} {entry : Entry} (h : x.Adds key entry) :
    x.Settles key entry.id := by
  obtain ⟨call, answer⟩ := x
  cases call with
  | add k e =>
    cases answer with
    | ok added => exact ⟨h.1, congrArg Entry.id h.2⟩
    | error e => cases h
  | _ => cases h

end Exchange

/-- Something in a list does one thing, and nothing behind it undoes that. -/
def Lasting {α : Type} (does undoes : α → Prop) (xs : List α) : Prop :=
  ∃ before x after, xs = before ++ x :: after ∧ does x ∧ ∀ y ∈ after, ¬ undoes y

section Lasting

variable {α : Type} {does undoes : α → Prop} {xs ys : List α}

theorem not_lasting_nil : ¬ Lasting does undoes [] := by
  rintro ⟨before, x, after, h, -⟩
  simp at h

/-- What more does, or what was done before and more of it does not undo. -/
theorem lasting_append : Lasting does undoes (xs ++ ys) ↔
    Lasting does undoes ys ∨ (Lasting does undoes xs ∧ ∀ y ∈ ys, ¬ undoes y) := by
  constructor
  · rintro ⟨before, x, after, h, hdoes, hafter⟩
    rcases List.append_eq_append_iff.1 h with ⟨between, -, hys⟩ | ⟨_ | ⟨y, between⟩, hxs, htail⟩
    · exact .inl ⟨between, x, after, hys, hdoes, hafter⟩
    · exact .inl ⟨[], x, after, htail.symm, hdoes, hafter⟩
    · obtain ⟨rfl, rfl⟩ := List.cons.inj htail
      refine .inr ⟨⟨before, x, between, hxs, hdoes, fun z hz => ?_⟩, fun z hz => ?_⟩
      · exact hafter z (List.mem_append_left _ hz)
      · exact hafter z (List.mem_append_right _ hz)
  · rintro (⟨before, x, after, rfl, hdoes, hafter⟩ | ⟨⟨before, x, after, rfl, hdoes, hafter⟩, hys⟩)
    · exact ⟨xs ++ before, x, after, (List.append_assoc _ _ _).symm, hdoes, hafter⟩
    · refine ⟨before, x, after ++ ys, by simp, hdoes, fun y hy => ?_⟩
      exact (List.mem_append.1 hy).elim (hafter y) (hys y)

@[simp] theorem lasting_singleton {x : α} : Lasting does undoes [x] ↔ does x := by
  constructor
  · rintro ⟨before, y, after, h, hdoes, -⟩
    have hx : y ∈ [x] := h ▸ List.mem_append_right before List.mem_cons_self
    exact List.mem_singleton.1 hx ▸ hdoes
  · intro hdoes
    exact ⟨[], x, [], rfl, hdoes, by simp⟩

theorem lasting_map {β : Type} {does undoes : β → Prop} {f : α → β} :
    Lasting does undoes (xs.map f) ↔ Lasting (fun x => does (f x)) (fun x => undoes (f x)) xs := by
  constructor
  · rintro ⟨before, y, after, h, hdoes, hafter⟩
    obtain ⟨front, tail, rfl, rfl, htail⟩ := List.map_eq_append_iff.1 h
    obtain ⟨x, back, rfl, rfl, rfl⟩ := List.map_eq_cons_iff.1 htail
    exact ⟨front, x, back, rfl, hdoes, fun z hz => hafter _ (List.mem_map_of_mem hz)⟩
  · rintro ⟨before, x, after, rfl, hdoes, hafter⟩
    exact ⟨before.map f, f x, after.map f, by simp, hdoes, List.forall_mem_map.2 hafter⟩

end Lasting

/-- An entry stands under a key: it was added, and nothing behind settles its id again. -/
def Standing (history : List Exchange) (key : String) (entry : Entry) : Prop :=
  ∃ before x after, history = before ++ x :: after ∧ x.Adds key entry ∧
    ∀ y ∈ after, ¬ y.Settles key entry.id

theorem not_standing_nil (key : String) (entry : Entry) : ¬ Standing [] key entry := not_lasting_nil

/-- One more exchange adds an entry, or leaves standing what it does not settle. -/
theorem standing_snoc {history : List Exchange} {x : Exchange} {key : String} {entry : Entry} :
    Standing (history ++ [x]) key entry ↔
      x.Adds key entry ∨ (Standing history key entry ∧ ¬ x.Settles key entry.id) := by
  have h : Lasting (Exchange.Adds · key entry) (Exchange.Settles · key entry.id)
      (history ++ [x]) ↔ _ := lasting_append
  rw [lasting_singleton, List.forall_mem_singleton] at h
  exact h

/-- Of two places in a list, they are one, or one of them is behind the other. -/
theorem same_or_behind {α : Type} {before after before' after' : List α} {x y : α}
    (h : before ++ x :: after = before' ++ y :: after') : x = y ∨ y ∈ after ∨ x ∈ after' := by
  rcases List.append_eq_append_iff.1 h with ⟨between, -, hb⟩ | ⟨between, -, hb⟩
  · cases between with
    | nil => exact .inl (List.cons.inj hb).1
    | cons z more =>
      have : after = more ++ y :: after' := (List.cons.inj hb).2
      exact .inr (.inl (this ▸ List.mem_append_right _ List.mem_cons_self))
  · cases between with
    | nil => exact .inl (List.cons.inj hb).1.symm
    | cons z more =>
      have : after' = more ++ x :: after := (List.cons.inj hb).2
      exact .inr (.inr (this ▸ List.mem_append_right _ List.mem_cons_self))

/-- At most one entry stands under a key and an id. -/
theorem Standing.unique {history : List Exchange} {key : String} {e f : Entry}
    (he : Standing history key e) (hf : Standing history key f) (h : e.id = f.id) : e = f := by
  obtain ⟨before, x, after, rfl, hx, hafter⟩ := he
  obtain ⟨before', y, after', heq, hy, hafter'⟩ := hf
  rcases same_or_behind heq with rfl | hmem | hmem
  · exact hx.unique hy
  · exact absurd hy.settles (h ▸ hafter y hmem)
  · exact absurd hx.settles (h ▸ hafter' x hmem)

/-! ## Sessions -/

/-- The element that an entry becomes. -/
def Entry.element (entry : Entry) : Element := ⟨entry.vector, entry.metadata.map Metadata.raw⟩

/-- An entry is known from its id and the element that it becomes. -/
theorem Entry.eq_of_element {e f : Entry} (hid : e.id = f.id) (h : e.element = f.element) :
    e = f := by
  obtain ⟨hvector, hattributes⟩ := Element.mk.inj h
  have hraw : Function.Injective Metadata.raw := fun _ _ => congrArg Metadata.mk
  have hmetadata := Option.map_injective hraw hattributes
  cases e
  cases f
  simp_all

namespace Memory

/-- Makes calls one after the other: the exchanges in order, and the memory after them. -/
def session : List Call → Memory → List Exchange × Memory
  | [], m => ([], m)
  | c :: calls, m =>
    let (exchanges, after) := session calls (answer c m).2
    (⟨c, (answer c m).1⟩ :: exchanges, after)

/-- The memory holds exactly the entries that stand in a history. -/
def Records (history : List Exchange) (m : Memory) : Prop :=
  ∀ key id element, m.element? key id = some element ↔
    ∃ entry, Standing history key entry ∧ entry.id = id ∧ entry.element = element

theorem records_nil : Records [] empty := by
  intro key id element
  simp [not_standing_nil]

/-- An addition either is refused, which changes nothing, or puts the entry under its key and id. -/
theorem add_cases (m : Memory) (key : String) (entry : Entry) :
    (∃ e, m.add key entry = (.error e, m)) ∨
      (m.add key entry).1 = .ok true ∧ ∀ other id, (m.add key entry).2.element? other id =
        if key = other ∧ entry.id = id then some entry.element else m.element? other id := by
  cases h : checkDimension (m.elements key) entry.vector.dimension with
  | error e => exact .inl ⟨e, add_of_error h⟩
  | ok u =>
    refine .inr ⟨?_, fun other id => element?_add h other id⟩
    simp only [add, elements_opened, h]

/-- What a call leaves under a key and an id: what its exchange adds there, or what was there and
its exchange does not settle. -/
theorem element?_answer (c : Call) (m : Memory) (key id : String) (element : Element) :
    (answer c m).2.element? key id = some element ↔
      (∃ entry, Exchange.Adds ⟨c, (answer c m).1⟩ key entry ∧ entry.id = id ∧
          entry.element = element) ∨
        (m.element? key id = some element ∧ ¬ Exchange.Settles ⟨c, (answer c m).1⟩ key id) := by
  cases c with
  | add k e =>
    rcases m.add_cases k e with ⟨error, he⟩ | ⟨hok, helement⟩
    · simp only [answer, he, Exchange.Adds, Exchange.Settles, false_and, exists_false, false_or,
        not_false_eq_true, and_true]
    · simp only [answer, hok, helement, Exchange.Adds, Exchange.Settles]
      by_cases hk : k = key ∧ e.id = id
      · simp [hk]
      · simp only [hk, if_false, not_false_eq_true, and_true, iff_or_self]
        rintro ⟨entry, ⟨rfl, rfl⟩, rfl, -⟩
        exact absurd ⟨rfl, rfl⟩ hk
  | remove k i =>
    have hanswer : (answer (.remove k i) m).2 = (m.remove k i).2 := rfl
    rw [hanswer, element?_remove]
    simp only [Exchange.Adds, Exchange.Settles, false_and, exists_false, false_or]
    by_cases hk : k = key ∧ i = id <;> simp [hk]
  | delete k =>
    have hanswer : (answer (.delete k) m).2 = m.delete k := rfl
    rw [hanswer, element?_delete]
    simp only [Exchange.Adds, Exchange.Settles, false_and, exists_false, false_or]
    by_cases hk : k = key <;> simp [hk]
  | fetch k i => simp [answer, Exchange.Adds, Exchange.Settles]
  | search k query p => simp [answer, Exchange.Adds, Exchange.Settles]

/-- Every call keeps the memory in step with the history. -/
theorem records_answer {history : List Exchange} {m : Memory} (h : Records history m) (c : Call) :
    Records (history ++ [⟨c, (answer c m).1⟩]) (answer c m).2 := by
  intro key id element
  rw [element?_answer, h key id element]
  constructor
  · rintro (⟨entry, hadds, hid, helement⟩ | ⟨⟨entry, hstands, hid, helement⟩, hsettles⟩)
    · exact ⟨entry, standing_snoc.2 (.inl hadds), hid, helement⟩
    · exact ⟨entry, standing_snoc.2 (.inr ⟨hstands, hid ▸ hsettles⟩), hid, helement⟩
  · rintro ⟨entry, hstands, hid, helement⟩
    rcases standing_snoc.1 hstands with hadds | ⟨hstands, hsettles⟩
    · exact .inl ⟨entry, hadds, hid, helement⟩
    · exact .inr ⟨⟨entry, hstands, hid, helement⟩, hid ▸ hsettles⟩

theorem records_session {history : List Exchange} {m : Memory} (h : Records history m)
    (calls : List Call) :
    Records (history ++ (session calls m).1) (session calls m).2 := by
  induction calls generalizing history m with
  | nil => simpa [session] using h
  | cons c calls ih =>
    have := ih (records_answer h c)
    simpa [session] using this

/-! ## What later calls are answered with -/

/-- Whether an id is present under a key: some entry stands there with it. -/
def Present (history : List Exchange) (key id : String) : Prop :=
  ∃ entry, Standing history key entry ∧ entry.id = id

/-- The memory answers and changes as one map from keys and ids to entries does, given the history
that led to it. -/
structure RefinesMap (history : List Exchange) (m : Memory) : Prop where
  /-- The map has one entry for each key and id. -/
  unique : ∀ key e f, Standing history key e → Standing history key f → e.id = f.id → e = f
  /-- Fetching gives the vector of the entry that stands. -/
  fetch : ∀ key id v, (answer (.fetch key id) m).1 = .ok (some v) ↔
    ∃ entry, Standing history key entry ∧ entry.id = id ∧ entry.vector = v
  /-- Fetching gives nothing when no entry stands. -/
  fetch_none : ∀ key id, (answer (.fetch key id) m).1 = .ok none ↔ ¬ Present history key id
  /-- A hit shows the id, the score and the metadata of an entry that stands. -/
  search : ∀ key query p hits, (answer (.search key query p) m).1 = .ok hits → ∀ hit ∈ hits,
    ∃ entry, Standing history key entry ∧
      hit = .scored entry.id (query.score entry.vector) (entry.metadata.map Metadata.raw)
  /-- A search without a filter or a bound, whose query fits and which may return everything, shows
  every entry that stands. -/
  shown : ∀ key query count,
    (∀ entry, Standing history key entry → entry.vector.dimension = query.dimension) →
    m.cardinality key ≤ count →
    ∃ hits, (answer (.search key query ⟨count, none, none⟩) m).1 = .ok hits ∧
      ∀ entry, Standing history key entry →
        .scored entry.id (query.score entry.vector) (entry.metadata.map Metadata.raw) ∈ hits
  /-- Removing tells whether the id was present. -/
  remove : ∀ key id, ∃ removed, (answer (.remove key id) m).1 = .ok removed ∧
    (removed = true ↔ Present history key id)
  /-- An addition that succeeds is answered with true. -/
  add : ∀ key entry added, (answer (.add key entry) m).1 = .ok added → added = true
  /-- The cardinality of a key counts the ids that are present under it. -/
  cardinality : ∀ key, ∃ ids : List String, ids.Nodup ∧
    (∀ id, id ∈ ids ↔ Present history key id) ∧ m.cardinality key = ids.length
  /-- Fetches, searches and refused calls leave the memory as it is. -/
  unchanged : ∀ c, (c.isReading = true ∨ ∃ e, (answer c m).1 = .error e) → (answer c m).2 = m
  /-- A call leaves the sets of all other keys as they are. -/
  other : ∀ c key, c.key ≠ key → (answer c m).2.sets[key]? = m.sets[key]?

section Records

variable {history : List Exchange} {m : Memory}

theorem Records.present_iff (h : Records history m) (key id : String) :
    Present history key id ↔ (m.element? key id).isSome = true := by
  rw [Option.isSome_iff_exists]
  constructor
  · rintro ⟨entry, hstands, hid⟩
    exact ⟨entry.element, (h key id _).2 ⟨entry, hstands, hid, rfl⟩⟩
  · rintro ⟨element, helement⟩
    obtain ⟨entry, hstands, hid, -⟩ := (h key id _).1 helement
    exact ⟨entry, hstands, hid⟩

/-- What a call that only asks, or that is refused, leaves. -/
theorem answer_unchanged (m : Memory) {c : Call}
    (h : c.isReading = true ∨ ∃ e, (answer c m).1 = .error e) : (answer c m).2 = m := by
  cases c with
  | fetch key id => rfl
  | search key query p => rfl
  | remove key id => simp [Call.isReading, answer] at h
  | delete key => simp [Call.isReading, answer] at h
  | add key entry =>
    rcases m.add_cases key entry with ⟨error, he⟩ | ⟨hok, -⟩
    · exact congrArg Prod.snd he
    · simp [Call.isReading, answer, hok] at h

theorem sets_answer_of_ne (m : Memory) {c : Call} {key : String} (h : c.key ≠ key) :
    (answer c m).2.sets[key]? = m.sets[key]? := by
  cases c with
  | fetch k id => rfl
  | search k query p => rfl
  | remove k id => exact m.sets_remove_of_ne h id
  | delete k => exact m.sets_erase_of_ne h
  | add k entry => exact m.sets_add_of_ne h entry

theorem answer_fetch (m : Memory) (key id : String) :
    (answer (.fetch key id) m).1 = .ok ((m.element? key id).map Element.vector) := rfl

/-- A memory that holds exactly the entries that stand answers as the map of these entries. -/
theorem Records.refinesMap (h : Records history m) : RefinesMap history m where
  unique key e f he hf hid := he.unique hf hid
  fetch key id v := by
    rw [answer_fetch, Except.ok.injEq, Option.map_eq_some_iff]
    constructor
    · rintro ⟨element, helement, rfl⟩
      obtain ⟨entry, hstands, hid, rfl⟩ := (h key id element).1 helement
      exact ⟨entry, hstands, hid, rfl⟩
    · rintro ⟨entry, hstands, hid, rfl⟩
      exact ⟨entry.element, (h key id _).2 ⟨entry, hstands, hid, rfl⟩, rfl⟩
  fetch_none key id := by
    rw [answer_fetch, Except.ok.injEq, Option.map_eq_none_iff, h.present_iff, Bool.not_eq_true,
      Option.isSome_eq_false_iff, Option.isNone_iff_eq_none]
  search key query p hits hok hit hhit := by
    obtain ⟨id, element, helement, rfl⟩ := mem_search hok hhit
    obtain ⟨entry, hstands, rfl, rfl⟩ := (h key id element).1 helement
    exact ⟨entry, hstands, rfl⟩
  shown key query count hdim hcount := by
    obtain ⟨hits, hok, hhits⟩ := m.exists_search_all (fun id element helement => by
      obtain ⟨entry, hstands, -, rfl⟩ := (h key id element).1 helement
      exact hdim entry hstands) hcount
    refine ⟨hits, hok, fun entry hstands => hhits entry.id entry.element ?_⟩
    exact (h key entry.id entry.element).2 ⟨entry, hstands, rfl, rfl⟩
  remove key id := by
    refine ⟨(m.element? key id).isSome, ?_, (h.present_iff key id).symm⟩
    rw [← remove_fst]
    rfl
  add key entry added hok := by
    rcases m.add_cases key entry with ⟨error, he⟩ | ⟨htrue, -⟩
    · simp [answer, he] at hok
    · exact Except.ok.inj (hok.symm.trans htrue)
  cardinality key := by
    obtain ⟨ids, hnodup, hids, hcount⟩ := m.exists_ids key
    exact ⟨ids, hnodup, fun id => (hids id).trans (h.present_iff key id).symm, hcount⟩
  unchanged c hc := m.answer_unchanged hc
  other c key hne := m.sets_answer_of_ne hne

end Records

/-- After any calls, whatever they were answered with, the memory that was empty before them is the
map of the entries that stand in their history. -/
theorem session_refines_map (calls : List Call) :
    RefinesMap (session calls empty).1 (session calls empty).2 := by
  have h := records_session records_nil calls
  rw [List.nil_append] at h
  exact h.refinesMap

end Memory

end SimilarityStore.Store
