import SimilarityStore.Proofs.Store.Footprints
import SimilarityStore.Proofs.Store.Removals
import SimilarityStore.Proofs.Store.StoredBatch

/-
  Entries that are live after operations.  The operations alone tell what is live: the `ledger` of a
  list of operations records which entries they add and what they remove, without a memory.  What
  each kind of operation makes of the live entries is said by `Ledger.exists_live_addBatch`,
  `liveAfter_removeBatch`, `not_liveAfter_removeAll` and `liveAfter_search`.  A step lemma for each
  kind keeps the memory in step with the ledger (`Tracks.addBatch`, `Tracks.removeBatch`,
  `Tracks.removeAll`, `Tracks.search`), and so a run does (`Tracks.perform`).  Main statements: after
  any operations the memory holds exactly the live entries (`element?_worldAfter`), and these are
  the ones whose last addition that succeeded is not undone (`liveAfter_iff_standing`).
-/

namespace SimilarityStore.Store

open Program (Leads leads_pure)

/-! ## What is live -/

/-- What can be done to the entries of a set. -/
inductive Change where
  | added (entry : Entry)
  | removed (id : String)
  | cleared

/-- The change decides what there is under an id. -/
def Change.Settles (id : String) : Change → Prop
  | added entry => entry.id = id
  | removed other => other = id
  | cleared => True

/-- An entry is live: it was added, and nothing behind adds or removes its id or clears the set. -/
def Live (history : List Change) (entry : Entry) : Prop :=
  Lasting (· = .added entry) (Change.Settles entry.id) history

theorem live_append {history more : List Change} {entry : Entry} :
    Live (history ++ more) entry ↔
      Live more entry ∨ (Live history entry ∧ ∀ c ∈ more, ¬ c.Settles entry.id) := lasting_append

theorem live_singleton {c : Change} {entry : Entry} : Live [c] entry ↔ c = .added entry :=
  lasting_singleton

/-- Of entries that are added, the last one with its id is live, and they replace what was live
under their ids. -/
theorem live_append_added {history : List Change} {entries : List Entry} {entry : Entry} :
    Live (history ++ entries.map .added) entry ↔
      Lasting (· = entry) (·.id = entry.id) entries ∨
        (Live history entry ∧ ∀ other ∈ entries, other.id ≠ entry.id) := by
  have hadded : Live (entries.map .added) entry ↔
      Lasting (· = entry) (·.id = entry.id) entries := by
    rw [Live, lasting_map]
    simp only [Change.added.injEq, Change.Settles]
  rw [live_append, hadded, List.forall_mem_map]
  rfl

/-- Exactly the ids that are removed are not live any more. -/
theorem live_append_removed {history : List Change} {listed : List String} {entry : Entry} :
    Live (history ++ listed.map .removed) entry ↔ Live history entry ∧ entry.id ∉ listed := by
  have hnone : ¬ Live (listed.map .removed) entry := by
    rintro ⟨before, c, after, hsplit, rfl, -⟩
    have hmem : Change.added entry ∈ listed.map .removed :=
      hsplit ▸ List.mem_append_right before List.mem_cons_self
    simp at hmem
  rw [live_append, or_iff_right hnone, List.forall_mem_map]
  refine and_congr_right fun _ => ⟨fun h hid => h _ hid rfl, fun h id hid => ?_⟩
  rintro rfl
  exact h hid

/-- Nothing is live after everything was removed. -/
theorem not_live_append_cleared {history : List Change} {entry : Entry} :
    ¬ Live (history ++ [.cleared]) entry := by
  rw [live_append, live_singleton]
  rintro (hadded | ⟨-, hkept⟩)
  · cases hadded
  · exact hkept .cleared List.mem_cons_self trivial

/-- The entries after one more change. -/
def Change.apply (entries : List Entry) : Change → List Entry
  | added entry => entries.filter (entry.id ≠ ·.id) ++ [entry]
  | removed id => entries.filter (id ≠ ·.id)
  | cleared => []

/-- The live entries, in the order in which they were added. -/
def liveEntries (history : List Change) : List Entry := history.foldl Change.apply []

theorem Change.mem_apply {entries : List Entry} {c : Change} {entry : Entry} :
    entry ∈ c.apply entries ↔ c = .added entry ∨ (entry ∈ entries ∧ ¬ c.Settles entry.id) := by
  cases c with
  | added other => simp [apply, Settles, or_comm, @eq_comm _ entry other]
  | removed id => simp [apply, Settles]
  | cleared => simp [apply, Settles]

theorem mem_liveEntries {history : List Change} {entry : Entry} :
    entry ∈ liveEntries history ↔ Live history entry := by
  induction history using List.reverseRecOn with
  | nil => exact iff_of_false List.not_mem_nil not_lasting_nil
  | append_singleton history c ih =>
    rw [liveEntries, List.foldl_concat, Change.mem_apply, live_append, live_singleton,
      List.forall_mem_singleton, ← ih]
    rfl

/-! ## What operations do -/

/-- An entry has the dimension of all entries that are live. -/
def fits (history : List Change) (entry : Entry) : Bool :=
  (liveEntries history).all fun live => live.vector.dimension = entry.vector.dimension

/-- What a number of places of a batch from one on do: the entries of places that are not skipped
are added, up to the first that does not fit.  Next to the history stands the place behind those
that were gone through. -/
def Batch.record (b : Batch) (drawn : Nat → String) :
    Nat → Nat → List Change → List Change × Nat
  | i, 0, history => (history, i)
  | i, n + 1, history =>
    match b.resolve drawn i with
    | .error _ => b.record drawn (i + 1) n history
    | .ok entry =>
      if fits history entry then b.record drawn (i + 1) n (history ++ [.added entry])
      else (history, i + 1)

/-- The places add a front of their entries, which ends before one that does not fit or with the
last. -/
theorem Batch.exists_record (b : Batch) (drawn : Nat → String) (i n : Nat)
    (history : List Change) :
    ∃ stored rest, b.entries drawn i n = stored ++ rest ∧
      (b.record drawn i n history).1 = history ++ stored.map .added ∧
      ∀ refused ∈ rest.head?, fits (history ++ stored.map .added) refused = false := by
  induction n generalizing i history with
  | zero => exact ⟨[], [], rfl, (List.append_nil history).symm, by simp⟩
  | succ n ih =>
    rw [Batch.record]
    cases hresolve : b.resolve drawn i with
    | error warning =>
      rw [entries_skipped hresolve]
      exact ih (i + 1) history
    | ok entry =>
      rw [entries_offered hresolve]
      dsimp only
      split
      · obtain ⟨stored, rest, hentries, hrecord, hrest⟩ := ih (i + 1) (history ++ [.added entry])
        rw [List.append_assoc] at hrecord hrest
        exact ⟨entry :: stored, rest, congrArg (entry :: ·) hentries, hrecord, hrest⟩
      · next hmisfit =>
        rw [Bool.not_eq_true] at hmisfit
        exact ⟨[], _, rfl, (List.append_nil history).symm, by simpa using hmisfit⟩

/-- What operations have done to a set, and how many ids they have drawn. -/
structure Ledger where
  history : List Change
  drawn : Nat

namespace Ledger

/-- The ledger after one more change. -/
def note (l : Ledger) (changes : List Change) : Ledger := ⟨l.history ++ changes, l.drawn⟩

/-- The ledger after ids are drawn. -/
def draw (l : Ledger) (n : Nat) : Ledger := ⟨l.history, l.drawn + n⟩

/-- The ledger after a batch of additions.  The ids that it misses are drawn on the way. -/
def addBatch (ids : Nat → String) (l : Ledger) (b : Batch) : Ledger :=
  let recorded := b.record (fun n => ids (l.drawn + n)) 0 b.vectors.length l.history
  ⟨recorded.1, l.drawn + b.unnamed recorded.2⟩

/-- What a batch makes live: it adds a front of its entries, up to one that does not fit, and the
last of them with its id is live.  Other entries stay unless their ids are among these. -/
theorem exists_live_addBatch (ids : Nat → String) (l : Ledger) (b : Batch) :
    ∃ stored rest, b.entries (fun n => ids (l.drawn + n)) 0 b.vectors.length = stored ++ rest ∧
      (∀ refused ∈ rest.head?, fits (l.history ++ stored.map .added) refused = false) ∧
      ∀ entry, Live (l.addBatch ids b).history entry ↔
        Lasting (· = entry) (·.id = entry.id) stored ∨
          (Live l.history entry ∧ ∀ other ∈ stored, other.id ≠ entry.id) := by
  obtain ⟨stored, rest, hentries, hrecord, hrest⟩ :=
    b.exists_record (fun n => ids (l.drawn + n)) 0 b.vectors.length l.history
  refine ⟨stored, rest, hentries, hrest, fun entry => ?_⟩
  rw [addBatch]
  dsimp only
  rw [hrecord]
  exact live_append_added

end Ledger

/-- The ledger after an operation.  All additions are batches, for some of which ids are drawn
beforehand. -/
def Operation.record (ids : Nat → String) (l : Ledger) : Operation → Ledger
  | add vector => (l.draw 1).addBatch ids (.single (ids l.drawn) vector none)
  | addWithId id vector => l.addBatch ids (.single id vector none)
  | addWithMetadata vector metadata =>
    (l.draw 1).addBatch ids (.single (ids l.drawn) vector (some metadata))
  | addBatch vectors metadata =>
    (l.draw vectors.length).addBatch ids
      (.named ((List.range' l.drawn vectors.length).map ids) vectors metadata)
  | addBatchWithIds given vectors metadata => l.addBatch ids ⟨given, vectors, metadata⟩
  | remove id => l.note [.removed id]
  | removeBatch listed => l.note (listed.map .removed)
  | removeAll => l.note [.cleared]
  | search _ => l

/-- The ledger of operations on a set that was empty. -/
def ledger (ids : Nat → String) (ops : List Operation) : Ledger :=
  ops.foldl (Operation.record ids) ⟨[], 0⟩

/-- An entry is live after operations on a set that was empty. -/
def LiveAfter (ids : Nat → String) (ops : List Operation) (entry : Entry) : Prop :=
  Live (ledger ids ops).history entry

section Laws

variable {ids : Nat → String} {ops : List Operation} {entry : Entry}

theorem ledger_snoc (op : Operation) :
    ledger ids (ops ++ [op]) = op.record ids (ledger ids ops) := List.foldl_concat _ _ _ _

/-- The ids that a batch lists are not live after it, and everything else is as before. -/
theorem liveAfter_removeBatch (listed : List String) :
    LiveAfter ids (ops ++ [.removeBatch listed]) entry ↔
      LiveAfter ids ops entry ∧ entry.id ∉ listed := by
  rw [LiveAfter, ledger_snoc]
  exact live_append_removed

theorem liveAfter_remove (id : String) :
    LiveAfter ids (ops ++ [.remove id]) entry ↔ LiveAfter ids ops entry ∧ entry.id ≠ id := by
  rw [LiveAfter, ledger_snoc, ne_eq, ← List.mem_singleton]
  exact @live_append_removed (ledger ids ops).history [id] entry

theorem not_liveAfter_removeAll : ¬ LiveAfter ids (ops ++ [.removeAll]) entry := by
  rw [LiveAfter, ledger_snoc]
  exact not_live_append_cleared

theorem liveAfter_search (request : Option SearchRequest) :
    LiveAfter ids (ops ++ [.search request]) entry ↔ LiveAfter ids ops entry := by
  rw [LiveAfter, ledger_snoc]
  rfl

end Laws

/-! ## The memory beside the ledger -/

namespace Memory

/-- The elements under a key are the live entries. -/
structure Reflects (key : String) (history : List Change) (m : Memory) : Prop where
  sound : m.WellFormed
  holds : ∀ id element, m.element? key id = some element ↔
    ∃ entry, Live history entry ∧ entry.id = id ∧ entry.element = element

section Reflects

variable {key : String} {history : List Change} {m : Memory} {entry : Entry}

theorem reflects_empty (key : String) : Reflects key [] empty where
  sound := wellFormed_empty
  holds id element := by simp [Live, not_lasting_nil]

theorem Reflects.element?_of_live (h : Reflects key history m) (hlive : Live history entry) :
    m.element? key entry.id = some entry.element :=
  (h.holds entry.id entry.element).2 ⟨entry, hlive, rfl, rfl⟩

/-- A change to the elements under the key keeps them in step, if it leaves what it adds and what was
there and it does not settle. -/
theorem Reflects.change (h : Reflects key history m) {c : Change} {after : Memory}
    (hsound : after.WellFormed)
    (hchange : ∀ id element, after.element? key id = some element ↔
      (∃ entry, c = .added entry ∧ entry.id = id ∧ entry.element = element) ∨
        (m.element? key id = some element ∧ ¬ c.Settles id)) :
    Reflects key (history ++ [c]) after where
  sound := hsound
  holds id element := by
    rw [hchange, h.holds]
    simp only [live_append, live_singleton, List.forall_mem_singleton]
    constructor
    · rintro (⟨entry, hadded, hid, helement⟩ | ⟨⟨entry, hlive, hid, helement⟩, hkept⟩)
      · exact ⟨entry, .inl hadded, hid, helement⟩
      · exact ⟨entry, .inr ⟨hlive, hid ▸ hkept⟩, hid, helement⟩
    · rintro ⟨entry, hadded | ⟨hlive, hkept⟩, hid, helement⟩
      · exact .inl ⟨entry, hadded, hid, helement⟩
      · exact .inr ⟨⟨entry, hlive, hid, helement⟩, hid ▸ hkept⟩

/-- An entry that fits is added. -/
theorem Reflects.add_of_fits (h : Reflects key history m) (hfits : fits history entry = true) :
    (m.add key entry).1 = .ok true ∧
      Reflects key (history ++ [.added entry]) (m.add key entry).2 := by
  have hdim : m.Fits key entry.vector.dimension := by
    intro id element helement
    obtain ⟨live, hlive, -, rfl⟩ := (h.holds id element).1 helement
    exact of_decide_eq_true (List.all_eq_true.1 hfits live (mem_liveEntries.2 hlive))
  refine ⟨hdim.add_fst rfl, h.change (h.sound.add entry) fun id element => ?_⟩
  rw [hdim.element?_add rfl]
  by_cases hid : entry.id = id <;> simp [hid, Change.Settles]

/-- An entry that does not fit is refused. -/
theorem Reflects.add_of_misfit (h : Reflects key history m) (hmisfit : fits history entry = false) :
    ∃ e, m.add key entry = (.error e, m) := by
  rw [fits, List.all_eq_false] at hmisfit
  obtain ⟨live, hmem, hother⟩ := hmisfit
  have helement := h.element?_of_live (mem_liveEntries.1 hmem)
  have hrefused := (h.sound.add_eq_error_iff key entry _).2
    ⟨_, h.sound.hasDimension helement, of_decide_eq_false (Bool.eq_false_iff.2 hother), rfl⟩
  have hsame := answer_unchanged m (c := .add key entry) (.inr ⟨_, hrefused⟩)
  exact ⟨_, Prod.ext hrefused hsame⟩

theorem Reflects.remove (h : Reflects key history m) (id : String) :
    Reflects key (history ++ [.removed id]) (m.remove key id).2 := by
  refine h.change (wellFormed_answer h.sound (.remove key id)) fun other element => ?_
  rw [element?_remove]
  by_cases hid : id = other <;> simp [hid, Change.Settles]

theorem Reflects.removeEach (h : Reflects key history m) (listed : List String) :
    Reflects key (history ++ listed.map .removed) (Memory.removeEach key listed m).2 := by
  induction listed generalizing history m with
  | nil => simpa [Memory.removeEach] using h
  | cons id rest ih =>
    rw [List.map_cons, List.append_cons]
    exact ih (h.remove id)

theorem Reflects.delete (h : Reflects key history m) :
    Reflects key (history ++ [.cleared]) (m.delete key) := by
  refine h.change (wellFormed_answer h.sound (.delete key)) fun id element => ?_
  rw [element?_delete, if_pos rfl]
  simp [Change.Settles]

end Reflects

end Memory

/-! ## Operations beside the ledger -/

namespace VectorSet

variable {embedder : String → Except StoreError FeatureVector} {ids : Nat → String}
  {set : VectorSet} {l : Ledger} {w : World Memory}

/-- The places of a batch go in memory as they are recorded. -/
theorem exists_leads_record (b : Batch) (drawn i n : Nat) {history : List Change} {m : Memory}
    (h : m.Reflects set.key history) :
    ∃ moments result after,
      Leads (Memory.environment embedder ids) (set.addItems ((List.range' i n).map b.item))
        ⟨m, drawn + b.unnamed i⟩ moments result
        ⟨after, drawn + b.unnamed (b.record (fun n => ids (drawn + n)) i n history).2⟩ ∧
      after.Reflects set.key (b.record (fun n => ids (drawn + n)) i n history).1 := by
  induction n generalizing i history m with
  | zero => exact ⟨[], .ok 0, m, leads_pure 0, h⟩
  | succ n ih =>
    rw [List.range'_succ, List.map_cons, Batch.record]
    cases hresolve : b.resolve (fun n => ids (drawn + n)) i with
    | error warning =>
      obtain ⟨moments, result, after, hrest, hafter⟩ := ih (i + 1) h
      have hitem := leads_addItem_skipped (Memory.environment embedder ids) set b drawn i m hresolve
      exact ⟨_, _, after, leads_addItems_cons _ set hitem hrest, hafter⟩
    | ok entry =>
      dsimp only
      split
      · next hfits =>
        obtain ⟨hok, hadded⟩ := h.add_of_fits hfits
        obtain ⟨moments, result, after, hrest, hafter⟩ := ih (i + 1) hadded
        have hitem := leads_addItem_answered (Memory.environment embedder ids) set b drawn i m
          hresolve hok
        exact ⟨_, _, after, leads_addItems_cons _ set hitem hrest, hafter⟩
      · next hmisfit =>
        obtain ⟨e, he⟩ := h.add_of_misfit (Bool.not_eq_true _ ▸ hmisfit)
        have hafter : (m.add set.key entry).2.Reflects set.key history := by
          rw [he]
          exact h
        have hitem := leads_addItem_failed (Memory.environment embedder ids) set b drawn i m
          hresolve (congrArg Prod.fst he)
        exact ⟨_, _, _, hitem.bind_error, hafter⟩

/-- A ledger tells what a world is: which entries are stored, and how many ids are drawn. -/
structure Tracks (set : VectorSet) (l : Ledger) (w : World Memory) : Prop where
  reflects : w.state.Reflects set.key l.history
  drawn : w.drawn = l.drawn

section Tracks

theorem Tracks.addBatch (h : set.Tracks l w) (b : Batch) :
    set.Tracks (l.addBatch ids b)
      ((set.addBatchWithIds b.ids b.vectors b.metadata).run
        (Memory.environment embedder ids) w).world := by
  obtain ⟨moments, result, after, hitems, hafter⟩ :=
    exists_leads_record b l.drawn 0 b.vectors.length h.reflects
  have hstart : (⟨w.state, l.drawn + b.unnamed 0⟩ : World Memory) = w := by
    rw [← h.drawn]
    rfl
  rw [← b.batchItems_eq, hstart] at hitems
  have hbatch := hitems.closing (fun succeeded => .batchAdded set.key succeeded b.vectors.length)
    fun _ => ()
  have hworld : ((set.addBatchWithIds b.ids b.vectors b.metadata).run
      (Memory.environment embedder ids) w).world = _ := hbatch.world
  rw [hworld]
  exact ⟨hafter, rfl⟩

theorem Tracks.draw (h : set.Tracks l w) (n : Nat) :
    set.Tracks (l.draw n) ⟨w.state, w.drawn + n⟩ :=
  ⟨h.reflects, congrArg (· + n) h.drawn⟩

/-- What adds a batch after it has drawn ids does to the world what the batch does. -/
theorem Tracks.adds {α : Type} {p : Program α} {n : Nat} {b : Batch} {entries : List Entry}
    {returned : α} {moments : List Moment} (h : set.Tracks l w)
    (hadds : set.Adds (Memory.environment embedder ids) p w n b entries returned moments) :
    set.Tracks ((l.draw n).addBatch ids b) (p.run (Memory.environment embedder ids) w).world := by
  rw [hadds.core]
  exact (h.draw n).addBatch b

theorem Tracks.removeBatch (h : set.Tracks l w) (listed : List String) :
    set.Tracks (l.note (listed.map .removed))
      ((set.removeBatch listed).run (Memory.environment embedder ids) w).world := by
  have hstate : ((set.removeBatch listed).run (Memory.environment embedder ids) w).world.state =
      _ := (set.runRemovals_eq embedder ids listed w).2.1
  refine ⟨?_, ((set.within_removeBatch listed).drawn_run _ w).trans h.drawn⟩
  rw [hstate]
  exact h.reflects.removeEach listed

theorem Tracks.removeAll (h : set.Tracks l w) :
    set.Tracks (l.note [.cleared])
      (set.removeAll.run (Memory.environment embedder ids) w).world :=
  ⟨h.reflects.delete, h.drawn⟩

theorem Tracks.search (h : set.Tracks l w) (request : Option SearchRequest) :
    set.Tracks l ((set.search request).run (Memory.environment embedder ids) w).world := by
  rw [Memory.world_run_of_reads (set.reads_search request)]
  exact h

/-- Every operation does to the world what is recorded of it. -/
theorem Tracks.operation (h : set.Tracks l w) (op : Operation) :
    set.Tracks (op.record ids l)
      ((op.program set).run (Memory.environment embedder ids) w).world := by
  let env := Memory.environment embedder ids
  obtain ⟨history, drawn⟩ := l
  obtain rfl : w.drawn = drawn := h.drawn
  cases op with
  | add vector =>
    obtain ⟨moments, hone⟩ := exists_addsOne_addFresh env set vector none w
    rw [Operation.program, Program.world_map]
    exact h.adds hone.adds
  | addWithId id vector =>
    exact h.addBatch (.single id vector none)
  | addWithMetadata vector metadata =>
    obtain ⟨moments, hone⟩ := exists_addsOne_addFresh env set vector (some metadata) w
    rw [Operation.program, Program.world_map, ← addFresh_some]
    exact h.adds hone.adds
  | addBatch vectors metadata =>
    obtain ⟨moments, hadds⟩ := exists_adds_addBatch env set vectors metadata w
    rw [Operation.program, Program.world_map]
    exact h.adds hadds
  | addBatchWithIds given vectors metadata => exact h.addBatch ⟨given, vectors, metadata⟩
  | remove id => exact h.removeBatch [id]
  | removeBatch listed => exact h.removeBatch listed
  | removeAll => exact h.removeAll
  | search request =>
    rw [Operation.program, Program.world_map]
    exact h.search request

theorem Tracks.perform (h : set.Tracks l w) (ops : List Operation) :
    set.Tracks (ops.foldl (Operation.record ids) l) (set.perform embedder ids ops w).1 := by
  induction ops generalizing l w with
  | nil => exact h
  | cons op ops ih => exact ih (h.operation op)

end Tracks

section After

variable (embedder ids set)

/-- After any operations the memory holds exactly the live entries. -/
theorem element?_worldAfter (ops : List Operation) (id : String) (element : Element) :
    (set.worldAfter embedder ids ops).state.element? set.key id = some element ↔
      ∃ entry, LiveAfter ids ops entry ∧ entry.id = id ∧ entry.element = element := by
  have h : set.Tracks ⟨[], 0⟩ ⟨Memory.empty, 0⟩ := ⟨Memory.reflects_empty set.key, rfl⟩
  exact (h.perform ops).reflects.holds id element

/-- The live entries are those whose last addition that the memory answered without an error is not
followed by a removal of their id or a deletion of the key. -/
theorem liveAfter_iff_standing (ops : List Operation) (entry : Entry) :
    LiveAfter ids ops entry ↔ Standing (set.exchanges embedder ids ops) set.key entry := by
  have hlive := set.element?_worldAfter embedder ids ops entry.id entry.element
  have hstanding := set.records_worldAfter embedder ids ops set.key entry.id entry.element
  have same {other : Entry} (hid : other.id = entry.id) (helement : other.element = entry.element) :
      other = entry := Entry.eq_of_element hid helement
  constructor
  · intro h
    obtain ⟨other, hother, hid, helement⟩ := hstanding.1 (hlive.2 ⟨entry, h, rfl, rfl⟩)
    exact same hid helement ▸ hother
  · intro h
    obtain ⟨other, hother, hid, helement⟩ := hlive.1 (hstanding.2 ⟨entry, h, rfl, rfl⟩)
    exact same hid helement ▸ hother

end After

end VectorSet

end SimilarityStore.Store
