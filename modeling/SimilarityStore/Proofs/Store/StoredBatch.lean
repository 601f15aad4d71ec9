import SimilarityStore.Proofs.Store.Batches
import SimilarityStore.Proofs.Store.Dimensions
import SimilarityStore.Proofs.Store.Operations

/-
  What a batch of additions leaves in memory.  A batch puts its entries there in order, up to the
  first one whose dimension does not fit (`run_addBatchWithIds`).  So either all of them are there
  afterwards, of equal ids the last one (`element?_addEach_last`), or exactly those in front of the
  one that is refused (`WellFormed.addEach_refused`).  Main statement: `batch_effect_on_memory`.
-/

namespace SimilarityStore.Store

namespace Memory

/-! ## Dimensions that fit -/

/-- All vectors under a key have a dimension, if there are any. -/
def Fits (m : Memory) (key : String) (dimension : Nat) : Prop :=
  ∀ id element, m.element? key id = some element → element.vector.dimension = dimension

section Fits

variable {m : Memory} {key : String} {d : Nat}

/-- An entry whose dimension fits is added. -/
theorem Fits.add_fst (h : m.Fits key d) {entry : Entry} (hd : entry.vector.dimension = d) :
    (m.add key entry).1 = .ok true := by
  have hcheck : checkDimension (m.elements key) entry.vector.dimension = .ok () :=
    checkDimension_eq_ok (by rwa [hd])
  rw [Memory.add_fst, hcheck]
  rfl

theorem Fits.element?_add (h : m.Fits key d) {entry : Entry} (hd : entry.vector.dimension = d)
    (other id : String) :
    (m.add key entry).2.element? other id =
      if key = other ∧ entry.id = id then some entry.element else m.element? other id :=
  Memory.element?_add (checkDimension_eq_ok (by rwa [hd])) other id

theorem Fits.add (h : m.Fits key d) {entry : Entry} (hd : entry.vector.dimension = d) :
    (m.add key entry).2.Fits key d := by
  intro id element helement
  rw [h.element?_add hd] at helement
  split at helement
  · rw [← Option.some.inj helement]
    exact hd
  · exact h id element helement

theorem fits_of_absent (h : key ∉ m.sets) (d : Nat) : m.Fits key d := by
  intro id element helement
  exact absurd (mem_sets_of_element? helement) h

end Fits

/-! ## Entries one after the other -/

/-- Adds entries under a key in order, up to the first that is refused. -/
def addEach (key : String) : List Entry → Memory → Except StoreError Unit × Memory
  | [], m => (.ok (), m)
  | entry :: rest, m =>
    match m.add key entry with
    | (.ok _, after) => addEach key rest after
    | (.error e, after) => (.error e, after)

section AddEach

variable {m : Memory} {key : String} {d : Nat}

theorem addEach_cons_of_ok {entry : Entry} (h : (m.add key entry).1 = .ok true)
    (rest : List Entry) : addEach key (entry :: rest) m = addEach key rest (m.add key entry).2 := by
  rw [addEach]
  split
  · next heq => rw [heq]
  · next heq => rw [heq] at h; cases h

theorem addEach_singleton (entry : Entry) :
    addEach key [entry] m = ((m.add key entry).1.map fun _ => (), (m.add key entry).2) := by
  rw [addEach]
  split
  · next heq => rw [heq]; rfl
  · next heq => rw [heq]; rfl

theorem addEach_cons_of_error {entry : Entry} {e : StoreError}
    (h : (m.add key entry).1 = .error e) (rest : List Entry) :
    addEach key (entry :: rest) m = (.error e, m) := by
  rcases m.add_cases key entry with ⟨error, hrefused⟩ | ⟨hok, -⟩
  · rw [hrefused] at h
    obtain rfl := Except.error.inj h
    rw [addEach, hrefused]
  · rw [hok] at h
    cases h

/-- Entries whose dimension fits are all added. -/
theorem Fits.addEach (h : m.Fits key d) {entries : List Entry}
    (hd : ∀ entry ∈ entries, entry.vector.dimension = d) :
    (addEach key entries m).1 = .ok () ∧ (addEach key entries m).2.Fits key d := by
  induction entries generalizing m with
  | nil => exact ⟨rfl, h⟩
  | cons entry rest ih =>
    have hentry := hd entry List.mem_cons_self
    rw [addEach_cons_of_ok (h.add_fst hentry)]
    exact ih (h.add hentry) fun e he => hd e (List.mem_cons_of_mem entry he)

/-- Entries behind others that are all added find the memory that these leave. -/
theorem Fits.addEach_append (h : m.Fits key d) {before : List Entry}
    (hd : ∀ entry ∈ before, entry.vector.dimension = d) (after : List Entry) :
    Memory.addEach key (before ++ after) m =
      Memory.addEach key after (Memory.addEach key before m).2 := by
  induction before generalizing m with
  | nil => rfl
  | cons entry rest ih =>
    have hentry := hd entry List.mem_cons_self
    rw [List.cons_append, addEach_cons_of_ok (h.add_fst hentry),
      addEach_cons_of_ok (h.add_fst hentry)]
    exact ih (h.add hentry) fun e he => hd e (List.mem_cons_of_mem entry he)

/-- What no entry is about stays. -/
theorem Fits.element?_addEach_other (h : m.Fits key d) {entries : List Entry}
    (hd : ∀ entry ∈ entries, entry.vector.dimension = d) {other id : String}
    (hother : other = key → ∀ entry ∈ entries, entry.id ≠ id) :
    (Memory.addEach key entries m).2.element? other id = m.element? other id := by
  induction entries generalizing m with
  | nil => rfl
  | cons entry rest ih =>
    have hentry := hd entry List.mem_cons_self
    rw [addEach_cons_of_ok (h.add_fst hentry),
      ih (h.add hentry) (fun e he => hd e (List.mem_cons_of_mem entry he))
        (fun hkey e he => hother hkey e (List.mem_cons_of_mem entry he)),
      h.element?_add hentry, if_neg]
    rintro ⟨rfl, hid⟩
    exact hother rfl entry List.mem_cons_self hid

/-- Of the entries with an id, the last one is there afterwards, with its own metadata. -/
theorem Fits.element?_addEach_last (h : m.Fits key d) {before after : List Entry} {entry : Entry}
    (hd : ∀ e ∈ before ++ entry :: after, e.vector.dimension = d)
    (hlast : ∀ e ∈ after, e.id ≠ entry.id) :
    (Memory.addEach key (before ++ entry :: after) m).2.element? key entry.id =
      some entry.element := by
  have hbefore : ∀ e ∈ before, e.vector.dimension = d :=
    fun e he => hd e (List.mem_append_left _ he)
  have hentry : entry.vector.dimension = d :=
    hd entry (List.mem_append_right _ List.mem_cons_self)
  have hafter : ∀ e ∈ after, e.vector.dimension = d :=
    fun e he => hd e (List.mem_append_right _ (List.mem_cons_of_mem entry he))
  have hfits := (h.addEach hbefore).2
  rw [h.addEach_append hbefore, addEach_cons_of_ok (hfits.add_fst hentry),
    (hfits.add hentry).element?_addEach_other hafter fun _ => hlast, hfits.element?_add hentry,
    if_pos ⟨rfl, rfl⟩]

theorem WellFormed.add (h : m.WellFormed) (entry : Entry) : (m.add key entry).2.WellFormed :=
  wellFormed_answer h (.add key entry)

/-- Entries that are added leave their dimension under the key. -/
theorem WellFormed.addEach_hasDimension (h : m.WellFormed) (hfits : m.Fits key d)
    {entries : List Entry} (hd : ∀ entry ∈ entries, entry.vector.dimension = d)
    (hthere : key ∈ m.sets ∨ entries ≠ []) :
    (addEach key entries m).2.WellFormed ∧ (addEach key entries m).2.HasDimension key d := by
  induction entries generalizing m with
  | nil => exact ⟨h, hthere.resolve_right fun hne => hne rfl, hfits⟩
  | cons entry rest ih =>
    have hentry := hd entry List.mem_cons_self
    have hadded : (m.add key entry).2.element? key entry.id = some entry.element := by
      rw [hfits.element?_add hentry, if_pos ⟨rfl, rfl⟩]
    rw [addEach_cons_of_ok (hfits.add_fst hentry)]
    exact ih (h.add entry) (hfits.add hentry)
      (fun e he => hd e (List.mem_cons_of_mem entry he)) (.inl (mem_sets_of_element? hadded))

/-- Behind entries that are added, one of another dimension is refused and ends everything: what is
in front of it has been added, and nothing else happens. -/
theorem WellFormed.addEach_refused (h : m.WellFormed) (hfits : m.Fits key d)
    {before : List Entry} {entry : Entry} (hd : ∀ e ∈ before, e.vector.dimension = d)
    (hthere : key ∈ m.sets ∨ before ≠ []) (hother : d ≠ entry.vector.dimension)
    (after : List Entry) :
    addEach key (before ++ entry :: after) m =
      (.error (.dimensionMismatch d entry.vector.dimension), (addEach key before m).2) := by
  obtain ⟨hwf, hdim⟩ := h.addEach_hasDimension hfits hd hthere
  have hrefused : ((addEach key before m).2.add key entry).1 =
      .error (.dimensionMismatch d entry.vector.dimension) :=
    (hwf.add_eq_error_iff key entry _).2 ⟨d, hdim, hother, rfl⟩
  rw [hfits.addEach_append hd, addEach_cons_of_error hrefused]

end AddEach

end Memory

/-! ## Runs -/

namespace Memory

/-- Entries that are offered to the memory up to the first error are added up to the first error. -/
theorem addEach_of_attempted {key : String} {entries : List Entry} {turns : List Turn}
    {answers : Except StoreError (List Bool)} {m n : Memory}
    (h : Attempted (fun entry : Entry => .add key entry) (fun _ (added : Bool) => added) entries
      turns answers)
    (hturns : Conversation backend m turns n) :
    addEach key entries m = (answers.map fun _ => (), n) := by
  induction h generalizing m with
  | done =>
    cases hturns
    rfl
  | @answered entries turns answers entry added events rest ih =>
    obtain ⟨hanswer, hrest⟩ : (m.add key entry).1 = .ok added ∧ _ := hturns.answered
    have htrue : (m.add key entry).1 = .ok true := by
      rcases m.add_cases key entry with ⟨e, he⟩ | ⟨hok, -⟩
      · rw [he] at hanswer
        cases hanswer
      · exact hok
    have hafter : addEach key entries (m.add key entry).2 = (answers.map fun _ => (), n) :=
      ih hrest
    rw [addEach_cons_of_ok htrue, hafter]
    cases answers <;> rfl
  | failed entry entries e events =>
    obtain ⟨hanswer, hrest⟩ : (m.add key entry).1 = .error e ∧ _ := hturns.answered
    have hstate : n = m := by
      cases hrest
      exact answer_unchanged m (c := .add key entry) (.inr ⟨e, hanswer⟩)
    rw [addEach_cons_of_error hanswer, hstate]
    rfl

end Memory

namespace VectorSet

variable (embedder : String → Except StoreError FeatureVector) (ids : Nat → String)
  (set : VectorSet)

/-- The run of a batch with the memory. -/
def runBatch (b : Batch) (w : World Memory) : Outcome Memory Unit :=
  (set.addBatchWithIds b.ids b.vectors b.metadata).run (Memory.environment embedder ids) w

/-- A batch adds the entries of its places in order, up to the first that is refused. -/
theorem runBatch_eq (b : Batch) (w : World Memory) :
    ((set.runBatch embedder ids b w).result, (set.runBatch embedder ids b w).world.state) =
      Memory.addEach set.key (b.entries (fun n => ids (w.drawn + n)) 0 b.vectors.length)
        w.state := by
  obtain ⟨moments, answers, v, hbatch, hcourse⟩ :=
    leads_addBatchWithIds (Memory.environment embedder ids) set b w
  have hturns := hbatch.accounts.conversation
  rw [turnsOf_append_reports, hbatch.world] at hturns
  have hresult : (set.runBatch embedder ids b w).result = answers.map fun _ => () := hbatch.result
  have hworld : (set.runBatch embedder ids b w).world = v := hbatch.world
  rw [hresult, hworld]
  exact (Memory.addEach_of_attempted hcourse.attempted hturns).symm

end VectorSet

/-! ## Places -/

namespace Batch

/-- A place has a vector that can be stored. -/
def HasValid (b : Batch) (i : Nat) (v : FeatureVector) : Prop :=
  b.vector? i = some v ∧ v.fault? = none

/-- Every vector has an id given at its place. -/
def IsNamed (b : Batch) : Prop := ∀ i < b.vectors.length, (b.id? i).isSome = true

/-- The batch of the places before one. -/
def cut (b : Batch) (j : Nat) : Batch := ⟨b.ids.take j, b.vectors.take j, b.metadata.take j⟩

/-- A place is the last one with an id and a vector that can be stored. -/
structure IsLast (b : Batch) (id : String) (i : Nat) (v : FeatureVector) : Prop where
  named : b.id? i = some id
  valid : b.HasValid i v
  last : ∀ k u, i < k → b.HasValid k u → b.id? k ≠ some id

/-- The dimension that a batch is held to under a key: that of the vectors there or, if the key is
not there, that of the first vector of the batch that can be stored. -/
inductive HeldTo (b : Batch) (m : Memory) (key : String) (d : Nat) : Prop where
  | stored (there : m.HasDimension key d)
  | first {i : Nat} {v : FeatureVector} (absent : key ∉ m.sets) (valid : b.HasValid i v)
      (first : ∀ k u, k < i → ¬ b.HasValid k u) (dimension : v.dimension = d)

variable {b : Batch} {drawn : Nat → String} {i j n : Nat} {v : FeatureVector} {entry : Entry}

theorem resolve_of_valid (h : b.HasValid i v) :
    b.resolve drawn i = .ok ⟨b.idAt drawn i, v, b.metadata? i⟩ := by
  simp only [resolve, h.1, h.2]

theorem idAt_of_named {id : String} (h : b.id? i = some id) : b.idAt drawn i = id := by
  rw [idAt, h, Option.getD_some]

theorem valid_of_resolve (h : b.resolve drawn i = .ok entry) :
    b.HasValid i entry.vector ∧ entry.id = b.idAt drawn i := by
  unfold resolve at h
  split at h
  · cases h
  · next v hv =>
    split at h
    · cases h
    · next hfault =>
      obtain rfl := Except.ok.inj h
      exact ⟨⟨hv, hfault⟩, rfl⟩

theorem HasValid.lt (h : b.HasValid i v) : i < b.vectors.length := by
  refine Nat.lt_of_not_le fun hi => ?_
  have hnone : b.vector? i = none := by
    rw [vector?, List.getElem?_eq_none hi]
    rfl
  cases h.1.symm.trans hnone

theorem HasValid.unique {u : FeatureVector} (h : b.HasValid i v) (hu : b.HasValid i u) : v = u :=
  Option.some.inj (h.1.symm.trans hu.1)

theorem mem_entries : entry ∈ b.entries drawn i n ↔
    ∃ k, (i ≤ k ∧ k < i + n) ∧ b.resolve drawn k = .ok entry := by
  simp only [entries, List.mem_filterMap, List.mem_range'_1]
  constructor
  · rintro ⟨k, hk, hentry⟩
    refine ⟨k, hk, ?_⟩
    cases hresolve : b.resolve drawn k with
    | error warning => simp [hresolve, Except.toOption] at hentry
    | ok found =>
      rw [hresolve] at hentry
      rw [Option.some.inj hentry]
  · rintro ⟨k, hk, hresolve⟩
    exact ⟨k, hk, by rw [hresolve]; rfl⟩

/-- The entry of a place stands between those of the places before it and behind it. -/
theorem entries_split (hj : j < n) (h : b.resolve drawn j = .ok entry) :
    b.entries drawn 0 n =
      b.entries drawn 0 j ++ entry :: b.entries drawn (j + 1) (n - (j + 1)) := by
  have hplaces : List.range' 0 n = List.range' 0 j ++ List.range' j (n - j) := by
    have hsum := @List.range'_append 0 j (n - j) 1
    rw [Nat.one_mul, Nat.zero_add, Nat.add_sub_cancel' (Nat.le_of_lt hj)] at hsum
    exact hsum.symm
  have hfront : b.entries drawn j (n - j) = entry :: b.entries drawn (j + 1) (n - (j + 1)) := by
    rw [show n - j = (n - (j + 1)) + 1 by omega]
    exact entries_offered h
  rw [← hfront, entries, hplaces, List.filterMap_append]
  rfl

theorem id?_cut (h : i < j) : (b.cut j).id? i = b.id? i := by
  rw [id?, id?, cut, List.getElem?_take_of_lt h]

theorem vector?_cut (h : i < j) : (b.cut j).vector? i = b.vector? i := by
  rw [vector?, vector?, cut, List.getElem?_take_of_lt h]

theorem metadata?_cut (h : i < j) : (b.cut j).metadata? i = b.metadata? i := by
  rw [metadata?, metadata?, cut, List.getElem?_take_of_lt h]

/-- A cut shows at no place before it. -/
theorem resolve_cut (h : i < j) : (b.cut j).resolve drawn i = b.resolve drawn i := by
  have hunnamed : (b.cut j).unnamed i = b.unnamed i := by
    refine List.countP_congr fun k hk => ?_
    rw [id?_cut (Nat.lt_trans (List.mem_range.1 hk) h)]
  simp only [resolve, idAt, id?_cut h, vector?_cut h, metadata?_cut h, hunnamed]

theorem entries_cut (h : j ≤ b.vectors.length) :
    (b.cut j).entries drawn 0 (b.cut j).vectors.length = b.entries drawn 0 j := by
  have hlength : (b.cut j).vectors.length = j := by
    rw [cut, List.length_take, Nat.min_eq_left h]
  have hsame : (List.range' 0 j).map ((b.cut j).resolve drawn) =
      (List.range' 0 j).map (b.resolve drawn) := by
    refine List.map_congr_left fun k hk => ?_
    have hk' := (List.mem_range'_1.1 hk).2
    exact resolve_cut (by omega)
  have hentries := congrArg (List.filterMap Except.toOption) hsame
  rw [List.filterMap_map, List.filterMap_map] at hentries
  rw [hlength]
  exact hentries

/-- A batch is held to some dimension, unless the key is not there and no vector can be stored. -/
theorem exists_heldTo {m : Memory} (h : m.WellFormed) (b : Batch) (key : String) :
    (∃ d, b.HeldTo m key d) ∨ (key ∉ m.sets ∧ ∀ i v, ¬ b.HasValid i v) := by
  classical
  by_cases hkey : key ∈ m.sets
  · obtain ⟨id, element, helement⟩ := h.exists_element hkey
    exact .inl ⟨_, .stored (h.hasDimension helement)⟩
  · cases hfirst : (List.range b.vectors.length).find? fun i => decide (∃ v, b.HasValid i v) with
    | none =>
      refine .inr ⟨hkey, fun i v hv => ?_⟩
      have hnone := List.find?_eq_none.1 hfirst i (List.mem_range.2 hv.lt)
      exact hnone (decide_eq_true ⟨v, hv⟩)
    | some i =>
      obtain ⟨hi, -, hbefore⟩ := List.find?_range_eq_some.1 hfirst
      obtain ⟨v, hv⟩ := of_decide_eq_true hi
      refine .inl ⟨_, .first hkey hv (fun k u hk hu => ?_) rfl⟩
      have hnone := hbefore k hk
      rw [decide_eq_true ⟨u, hu⟩] at hnone
      cases hnone

/-- What is stored fits the dimension that a batch is held to. -/
theorem HeldTo.fits {m : Memory} {key : String} {d : Nat} (h : b.HeldTo m key d) :
    m.Fits key d := by
  cases h with
  | stored there => exact there.2
  | first absent _ _ _ => exact Memory.fits_of_absent absent d

/-- Before a vector of another dimension the key has come to be there. -/
theorem HeldTo.there {m : Memory} {key : String} {d : Nat} (h : b.HeldTo m key d)
    (hj : b.HasValid j v) (hother : v.dimension ≠ d) :
    key ∈ m.sets ∨ b.entries drawn 0 j ≠ [] := by
  cases h with
  | stored there => exact .inl there.1
  | @first i u absent valid first dimension =>
    have hle : i ≤ j := Nat.le_of_not_lt fun hlt => first j v hlt hj
    have hne : i ≠ j := by
      rintro rfl
      exact hother (hj.unique valid ▸ dimension)
    have hmem : _ ∈ b.entries drawn 0 j :=
      mem_entries.2 ⟨i, ⟨Nat.zero_le i, by omega⟩, resolve_of_valid valid⟩
    exact .inr (List.ne_nil_of_mem hmem)

end Batch

/-! ## The whole batch -/

namespace VectorSet

section Effect

variable (embedder : String → Except StoreError FeatureVector) (ids : Nat → String)
  (set : VectorSet)

/-- What a batch leaves in memory. -/
structure BatchEffect (b : Batch) (w : World Memory) : Prop where
  /-- If all vectors that can be stored have the dimension that the batch is held to, it succeeds.
  Each id has the vector and the metadata of its last place that can be stored, whatever was there
  before, and everything else stays. -/
  completed : (∀ d i v, b.HeldTo w.state set.key d → b.HasValid i v → v.dimension = d) →
    (set.runBatch embedder ids b w).result = .ok () ∧
      (∀ id i v, b.IsLast id i v →
        (set.runBatch embedder ids b w).world.state.element? set.key id =
          some ⟨v, (b.metadata? i).map Metadata.raw⟩) ∧
      ∀ key id, (key = set.key → ∀ i v, b.HasValid i v → b.id? i ≠ some id) →
        (set.runBatch embedder ids b w).world.state.element? key id = w.state.element? key id
  /-- Otherwise the first vector with another dimension is an error, and exactly the batch of the
  places before it has been carried out. -/
  aborted : ∀ d j v, b.HeldTo w.state set.key d → b.HasValid j v → v.dimension ≠ d →
    (∀ i u, i < j → b.HasValid i u → u.dimension = d) →
    (set.runBatch embedder ids b w).result = .error (.dimensionMismatch d v.dimension) ∧
      (set.runBatch embedder ids (b.cut j) w).result = .ok () ∧
      (set.runBatch embedder ids b w).world.state =
        (set.runBatch embedder ids (b.cut j) w).world.state

/-- The entries of a batch have the dimension that its vectors have. -/
theorem dimension_of_mem_entries {b : Batch} {drawn : Nat → String} {n d : Nat}
    (h : ∀ i u, i < n → b.HasValid i u → u.dimension = d) :
    ∀ entry ∈ b.entries drawn 0 n, entry.vector.dimension = d := by
  intro entry hentry
  obtain ⟨k, ⟨-, hk⟩, hresolve⟩ := Batch.mem_entries.1 hentry
  exact h k _ (by omega) (Batch.valid_of_resolve hresolve).1

/-- The last place with an id is that of the last entry with it. -/
theorem exists_last_entry {b : Batch} {drawn : Nat → String} (hnamed : b.IsNamed) {id : String}
    {i : Nat} {v : FeatureVector} (h : b.IsLast id i v) :
    ∃ before after, b.entries drawn 0 b.vectors.length =
        before ++ ⟨id, v, b.metadata? i⟩ :: after ∧ ∀ entry ∈ after, entry.id ≠ id := by
  have hresolve : b.resolve drawn i = .ok _ := Batch.resolve_of_valid h.valid
  rw [Batch.idAt_of_named h.named] at hresolve
  refine ⟨_, _, Batch.entries_split h.valid.lt hresolve, fun entry hentry hid => ?_⟩
  obtain ⟨k, ⟨hik, -⟩, hk⟩ := Batch.mem_entries.1 hentry
  obtain ⟨hvalid, hname⟩ := Batch.valid_of_resolve hk
  obtain ⟨name, hname'⟩ := Option.isSome_iff_exists.1 (hnamed k hvalid.lt)
  rw [Batch.idAt_of_named hname'] at hname
  exact h.last k _ hik hvalid (by rw [hname', ← hname, hid])

theorem batchEffect {b : Batch} (hnamed : b.IsNamed) {w : World Memory}
    (hw : w.state.WellFormed) : set.BatchEffect embedder ids b w where
  completed hall := by
    have hrun := set.runBatch_eq embedder ids b w
    rw [Prod.mk.injEq] at hrun
    obtain ⟨d, hfits, hd⟩ : ∃ d, w.state.Fits set.key d ∧
        ∀ i v, i < b.vectors.length → b.HasValid i v → v.dimension = d := by
      rcases Batch.exists_heldTo hw b set.key with ⟨d, hheld⟩ | ⟨habsent, hnone⟩
      · exact ⟨d, hheld.fits, fun i v _ hv => hall d i v hheld hv⟩
      · exact ⟨0, Memory.fits_of_absent habsent 0, fun i v _ hv => absurd hv (hnone i v)⟩
    have hentries : ∀ entry ∈ b.entries (fun n => ids (w.drawn + n)) 0 b.vectors.length,
        entry.vector.dimension = d := dimension_of_mem_entries hd
    refine ⟨hrun.1.trans (hfits.addEach hentries).1, fun id i v hlast => ?_,
      fun key id hother => ?_⟩
    · obtain ⟨before, after, hsplit, hafter⟩ := exists_last_entry hnamed hlast
      rw [hrun.2]
      rw [hsplit] at hentries ⊢
      exact hfits.element?_addEach_last hentries hafter
    · rw [hrun.2]
      refine hfits.element?_addEach_other hentries fun hkey entry hentry hid => ?_
      obtain ⟨k, -, hk⟩ := Batch.mem_entries.1 hentry
      obtain ⟨hvalid, hname⟩ := Batch.valid_of_resolve hk
      obtain ⟨name, hname'⟩ := Option.isSome_iff_exists.1 (hnamed k hvalid.lt)
      rw [Batch.idAt_of_named hname'] at hname
      exact hother hkey k _ hvalid (by rw [hname', ← hname, hid])
  aborted d j v hheld hj hother hbefore := by
    have hrun := set.runBatch_eq embedder ids b w
    have hcut := set.runBatch_eq embedder ids (b.cut j) w
    have hentries : ∀ entry ∈ b.entries (fun n => ids (w.drawn + n)) 0 j,
        entry.vector.dimension = d := dimension_of_mem_entries hbefore
    rw [Batch.entries_split hj.lt (Batch.resolve_of_valid hj),
      hw.addEach_refused hheld.fits hentries (hheld.there hj hother) (Ne.symm hother),
      Prod.mk.injEq] at hrun
    rw [Batch.entries_cut (Nat.le_of_lt hj.lt), Prod.mk.injEq] at hcut
    exact ⟨hrun.1, hcut.1.trans (hheld.fits.addEach hentries).1, hrun.2.trans hcut.2.symm⟩

/-- The effect of a batch whose ids are all given, on a memory that any calls have led to. -/
theorem batch_effect_on_memory (calls : List Call) (drawn : Nat) {b : Batch}
    (hnamed : b.IsNamed) :
    set.BatchEffect embedder ids b ⟨(Memory.session calls Memory.empty).2, drawn⟩ :=
  set.batchEffect embedder ids hnamed (Memory.wellFormed_session Memory.wellFormed_empty calls)

end Effect

/-! ## A batch that is aborted -/

/-- An id with two vectors, one without a vector, and one whose vector has another dimension. -/
def unevenBatch : Batch where
  ids := [some "a", some "b", some "a", some "c", some "d"]
  vectors := [some ⟨[1, 1]⟩, none, some ⟨[1, 0]⟩, some ⟨[1]⟩, some ⟨[0, 1]⟩]
  metadata := [some ⟨"first"⟩]

theorem unevenBatch_valid : unevenBatch.HasValid 0 ⟨[1, 1]⟩ ∧ unevenBatch.HasValid 2 ⟨[1, 0]⟩ ∧
    unevenBatch.HasValid 3 ⟨[1]⟩ := by
  refine ⟨⟨rfl, ?_⟩, ⟨rfl, ?_⟩, ⟨rfl, ?_⟩⟩ <;> decide +kernel

/-- The vectors before the fourth place have two components. -/
theorem unevenBatch_before {i : Nat} {u : FeatureVector} (hi : i < 3)
    (hu : unevenBatch.vector? i = some u) : u.dimension = 2 := by
  have hplace : i = 0 ∨ i = 1 ∨ i = 2 := by omega
  rcases hplace with rfl | rfl | rfl <;> cases hu <;> rfl

theorem not_mem_empty (key : String) : key ∉ Memory.empty.sets := by
  rw [Memory.empty]
  exact Std.ExtTreeMap.not_mem_empty

/-- With nothing stored, the batch is held to the dimension of its first vector. -/
theorem heldTo_unevenBatch : unevenBatch.HeldTo Memory.empty "k" 2 :=
  .first (not_mem_empty "k") unevenBatch_valid.1 (fun k _ hk => absurd hk (Nat.not_lt_zero k)) rfl

/-- All vectors of the first three places have the dimension that these are held to. -/
theorem cut_unevenBatch_fits (d i : Nat) (v : FeatureVector)
    (hheld : (unevenBatch.cut 3).HeldTo Memory.empty "k" d)
    (hv : (unevenBatch.cut 3).HasValid i v) : v.dimension = d := by
  have two {k : Nat} {u : FeatureVector} (hu : (unevenBatch.cut 3).HasValid k u) :
      u.dimension = 2 := by
    have hk : k < 3 := hu.lt
    exact unevenBatch_before hk (Batch.vector?_cut hk ▸ hu.1)
  cases hheld with
  | stored there => exact absurd there.1 (not_mem_empty "k")
  | first _ valid _ dimension => rw [two hv, ← dimension, two valid]

/-- The batch ends with an error at its fourth place.  The id that stands twice before it has its
second vector, and not the metadata of its first. -/
theorem unevenBatch_aborted :
    let outcome := (VectorSet.mk "k").runBatch (fun _ => .error .server) (fun _ => "") unevenBatch
      ⟨(Memory.session [] Memory.empty).2, 0⟩
    outcome.result = .error (.dimensionMismatch 2 1) ∧
      outcome.world.state.element? "k" "a" = some ⟨⟨[1, 0]⟩, none⟩ := by
  obtain ⟨-, hsecond, hfourth⟩ := unevenBatch_valid
  have hwhole := batch_effect_on_memory (fun _ => .error .server) (fun _ => "") ⟨"k"⟩ [] 0
    (b := unevenBatch) (by unfold Batch.IsNamed; decide)
  have hcut := batch_effect_on_memory (fun _ => .error .server) (fun _ => "") ⟨"k"⟩ [] 0
    (b := unevenBatch.cut 3) (by unfold Batch.IsNamed; decide)
  obtain ⟨hresult, -, hstate⟩ := hwhole.aborted 2 3 ⟨[1]⟩ heldTo_unevenBatch hfourth (by decide)
    fun i u hi hu => unevenBatch_before hi hu.1
  refine ⟨hresult, ?_⟩
  rw [hstate]
  refine (hcut.completed cut_unevenBatch_fits).2.1 "a" 2 ⟨[1, 0]⟩
    ⟨rfl, ⟨rfl, hsecond.2⟩, fun k u hk hu => ?_⟩
  have hlt : k < 3 := hu.lt
  omega

end VectorSet

end SimilarityStore.Store
