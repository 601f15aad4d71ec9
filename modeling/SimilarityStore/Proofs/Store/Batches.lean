import SimilarityStore.Proofs.Store.Dialogue
import SimilarityStore.Store.VectorSet

/-
  Batches of additions over any backend.  A batch goes through the places of its vectors in order:
  each is skipped with a warning, or its entry is offered to the backend, whose error ends the batch
  (`Batch.Course`).  The steps are `leads_addItem_skipped`, `leads_addItem_answered` and
  `leads_addItem_failed`, and a run is `leads_addBatchWithIds`.  What follows from the course alone
  is said apart (`Course.attempted`, `Course.length_reports`).  Main statement:
  `batch_over_any_backend`.
-/

namespace SimilarityStore.Store

open Program (Leads Accounts closing leads_pure leads_freshId leads_report leads_reportIf
  leads_perform)

/-- The parts of a batch: lists of any lengths, with holes. -/
structure Batch where
  ids : List (Option String)
  vectors : List (Option FeatureVector)
  metadata : List (Option Metadata)

namespace Batch

/-- The id given at a place, if there is one. -/
def id? (b : Batch) (i : Nat) : Option String := (b.ids[i]?).join

/-- The vector at a place, if there is one. -/
def vector? (b : Batch) (i : Nat) : Option FeatureVector := (b.vectors[i]?).join

/-- The metadata at a place, if there are any. -/
def metadata? (b : Batch) (i : Nat) : Option Metadata := (b.metadata[i]?).join

/-- The number of places without an id before a place. -/
def unnamed (b : Batch) (i : Nat) : Nat := (List.range i).countP fun j => (b.id? j).isNone

/-- The id that a place goes by: the given one, or the next one that is drawn. -/
def idAt (b : Batch) (drawn : Nat → String) (i : Nat) : String :=
  (b.id? i).getD (drawn (b.unnamed i))

/-- The entry of a place, or the warning that it is skipped with. -/
def resolve (b : Batch) (drawn : Nat → String) (i : Nat) : Except Event Entry :=
  match b.vector? i with
  | none => .error (.vectorMissing i)
  | some vector =>
    match vector.fault? with
    | some fault => .error (.vectorInvalid i (b.idAt drawn i) fault)
    | none => .ok ⟨b.idAt drawn i, vector, b.metadata? i⟩

/-- The entries of the places from one on, in order, without those that are skipped. -/
def entries (b : Batch) (drawn : Nat → String) (i n : Nat) : List Entry :=
  (List.range' i n).filterMap fun j => (b.resolve drawn j).toOption

/-- The report that an entry was not added. -/
def declined (key : String) (entry : Entry) : Event :=
  .entryDeclined key entry.id entry.vector.dimension entry.metadata.isSome

/-- How a number of places from one on are gone through under a key: what is said and reported, and
what the backend answered to the entries that it was offered. -/
inductive Course (key : String) (b : Batch) (drawn : Nat → String) :
    Nat → Nat → List Moment → Except StoreError (List Bool) → Prop where
  | done (i : Nat) : Course key b drawn i 0 [] (.ok [])
  | skipped {i n : Nat} {moments : List Moment} {answers : Except StoreError (List Bool)}
      {warning : Event} (h : b.resolve drawn i = .error warning)
      (rest : Course key b drawn (i + 1) n moments answers) :
      Course key b drawn i (n + 1) (.report warning :: moments) answers
  | added {i n : Nat} {moments : List Moment} {answers : Except StoreError (List Bool)}
      {entry : Entry} (h : b.resolve drawn i = .ok entry) (events : List Event)
      (rest : Course key b drawn (i + 1) n moments answers) :
      Course key b drawn i (n + 1) (.turn ⟨.add key entry, .ok true, events⟩ :: moments)
        (answers.map (true :: ·))
  | declined {i n : Nat} {moments : List Moment} {answers : Except StoreError (List Bool)}
      {entry : Entry} (h : b.resolve drawn i = .ok entry) (events : List Event)
      (rest : Course key b drawn (i + 1) n moments answers) :
      Course key b drawn i (n + 1)
        (.turn ⟨.add key entry, .ok false, events⟩ :: .report (declined key entry) :: moments)
        (answers.map (false :: ·))
  | failed {i : Nat} (n : Nat) {entry : Entry} (h : b.resolve drawn i = .ok entry)
      (events : List Event) (e : StoreError) :
      Course key b drawn i (n + 1) [.turn ⟨.add key entry, .error e, events⟩] (.error e)

/-! ## What follows from a course -/

theorem level_resolve {b : Batch} {drawn : Nat → String} {i : Nat} {warning : Event}
    (h : b.resolve drawn i = .error warning) : warning.level = .warning := by
  unfold resolve at h
  split at h
  · obtain rfl := Except.error.inj h
    rfl
  · split at h
    · obtain rfl := Except.error.inj h
      rfl
    · cases h

section Course

variable {key : String} {b : Batch} {drawn : Nat → String} {i n : Nat} {moments : List Moment}
  {answers : Except StoreError (List Bool)}

theorem entries_skipped {warning : Event} (h : b.resolve drawn i = .error warning) :
    b.entries drawn i (n + 1) = b.entries drawn (i + 1) n := by
  rw [entries, List.range'_succ, List.filterMap_cons_none]
  · rfl
  · rw [h]
    rfl

theorem entries_offered {entry : Entry} (h : b.resolve drawn i = .ok entry) :
    b.entries drawn i (n + 1) = entry :: b.entries drawn (i + 1) n := by
  rw [entries, List.range'_succ, List.filterMap_cons_some]
  · rfl
  · rw [h]
    rfl

/-- The entries of the places are offered in order, up to the first error. -/
theorem Course.attempted (h : Course key b drawn i n moments answers) :
    Attempted (fun entry : Entry => .add key entry) (fun _ (added : Bool) => added)
      (b.entries drawn i n) (turnsOf moments) answers := by
  induction h with
  | done i => exact .done
  | skipped h rest ih =>
    rw [entries_skipped h]
    exact ih
  | added h events rest ih =>
    rw [entries_offered h]
    exact .answered _ true events ih
  | declined h events rest ih =>
    rw [entries_offered h]
    exact .answered _ false events ih
  | failed n h events e =>
    rw [entries_offered h]
    exact .failed _ _ e events

/-- All that is reported on the way are warnings. -/
theorem Course.level_of_mem (h : Course key b drawn i n moments answers) :
    ∀ event ∈ reportsOf moments, event.level = .warning := by
  induction h with
  | done i => simp [reportsOf]
  | skipped h rest ih =>
    intro event hevent
    rcases List.mem_cons.1 hevent with rfl | hrest
    · exact level_resolve h
    · exact ih event hrest
  | added h events rest ih => exact ih
  | declined h events rest ih =>
    intro event hevent
    rcases List.mem_cons.1 hevent with rfl | hrest
    · rfl
    · exact ih event hrest
  | failed n h events e => simp [reportsOf]

theorem ok_of_map {α β ε : Type} {r : Except ε α} {g : α → β} {y : β} (h : r.map g = .ok y) :
    ∃ x, r = .ok x ∧ g x = y := by
  cases r with
  | error e => cases h
  | ok x => exact ⟨x, rfl, Except.ok.inj h⟩

/-- Every place is reported, or its entry is added, unless an error ends the batch. -/
theorem Course.length_reports (h : Course key b drawn i n moments answers) {added : List Bool}
    (hok : answers = .ok added) : (reportsOf moments).length + added.count true = n := by
  induction h generalizing added with
  | done i =>
    obtain rfl := Except.ok.inj hok
    rfl
  | skipped h rest ih =>
    have hrest := ih hok
    simp only [reportsOf, List.filterMap_cons, List.length_cons] at hrest ⊢
    omega
  | added h events rest ih =>
    obtain ⟨more, hmore, rfl⟩ := ok_of_map hok
    have hrest := ih hmore
    simp only [reportsOf, List.filterMap_cons, List.count_cons_self] at hrest ⊢
    omega
  | declined h events rest ih =>
    obtain ⟨more, hmore, rfl⟩ := ok_of_map hok
    have hrest := ih hmore
    have hcount : (false :: more).count true = more.count true :=
      List.count_cons_of_ne (by decide)
    simp only [reportsOf, List.filterMap_cons, List.length_cons, hcount] at hrest ⊢
    omega
  | failed n h events e => cases hok

end Course

/-! ## Items -/

/-- The item of a place. -/
def item (b : Batch) (i : Nat) : BatchItem := ⟨i, b.id? i, b.vector? i, b.metadata? i⟩

/-- The items of a batch are those of the places of its vectors. -/
theorem batchItems_eq (b : Batch) :
    batchItems b.ids b.vectors b.metadata = (List.range' 0 b.vectors.length).map b.item := by
  refine List.ext_getElem? fun i => ?_
  rw [batchItems, List.getElem?_mapIdx, List.getElem?_map]
  by_cases hi : i < b.vectors.length
  · have hplace : (List.range' 0 b.vectors.length)[i]? = some i := by
      rw [List.getElem?_range' hi, Nat.one_mul, Nat.zero_add]
    rw [List.getElem?_eq_getElem hi, hplace, Option.map_some, Option.map_some, item, vector?,
      List.getElem?_eq_getElem hi]
    rfl
  · have hplace : (List.range' 0 b.vectors.length)[i]? = none :=
      List.getElem?_eq_none (by rw [List.length_range']; omega)
    rw [List.getElem?_eq_none (Nat.le_of_not_lt hi), hplace]
    rfl

theorem unnamed_succ (b : Batch) (i : Nat) :
    b.unnamed (i + 1) = b.unnamed i + if (b.id? i).isNone then 1 else 0 := by
  rw [unnamed, unnamed, List.range_succ, List.countP_append, List.countP_singleton]

end Batch

namespace VectorSet

/-- The id of an item, which is drawn if it has none. -/
def nameItem (item : BatchItem) : Program String :=
  match item.id with
  | some id => pure id
  | none => Program.freshId

/-- What is done with an item that goes by an id. -/
def addNamed (set : VectorSet) (item : BatchItem) (id : String) : Program Bool :=
  match item.vector with
  | none => do
    Program.report (.vectorMissing item.index)
    return false
  | some vector =>
    match vector.fault? with
    | some fault => do
      Program.report (.vectorInvalid item.index id fault)
      return false
    | none => do
      let added ← Program.perform (.add set.key ⟨id, vector, item.metadata⟩)
      Program.reportIf (!added)
        (.entryDeclined set.key id vector.dimension item.metadata.isSome)
      return added

theorem addItem_eq (set : VectorSet) (item : BatchItem) :
    set.addItem item = nameItem item >>= set.addNamed item := by
  unfold addItem nameItem
  cases item.id <;> rfl

section Steps

variable {σ : Type} (env : Environment σ) (set : VectorSet) (b : Batch) (drawn i : Nat)

/-- An item without an id draws the next one. -/
theorem leads_nameItem (state : σ) :
    Leads env (nameItem (b.item i)) ⟨state, drawn + b.unnamed i⟩ []
      (.ok (b.idAt (fun n => env.ids (drawn + n)) i)) ⟨state, drawn + b.unnamed (i + 1)⟩ := by
  rw [b.unnamed_succ, Batch.idAt, nameItem, Batch.item]
  dsimp only
  cases b.id? i with
  | some id => exact leads_pure id
  | none => exact leads_freshId

/-- An item that is skipped is reported, and the backend is not asked. -/
theorem leads_addItem_skipped (state : σ) {warning : Event}
    (h : b.resolve (fun n => env.ids (drawn + n)) i = .error warning) :
    Leads env (set.addItem (b.item i)) ⟨state, drawn + b.unnamed i⟩ [.report warning] (.ok false)
      ⟨state, drawn + b.unnamed (i + 1)⟩ := by
  rw [addItem_eq]
  refine (leads_nameItem env b drawn i state).bind_of_silent ?_
  unfold addNamed Batch.item
  unfold Batch.resolve at h
  dsimp only
  split at h
  · obtain rfl := Except.error.inj h
    exact (leads_report _).bind (leads_pure false)
  · split at h
    · obtain rfl := Except.error.inj h
      exact (leads_report _).bind (leads_pure false)
    · cases h

/-- The entry of an item that is not skipped is offered to the backend. -/
theorem addNamed_offered {ids : Nat → String} {entry : Entry} (h : b.resolve ids i = .ok entry) :
    set.addNamed (b.item i) (b.idAt ids i) = (do
      let added ← Program.perform (.add set.key entry)
      Program.reportIf (!added) (Batch.declined set.key entry)
      return added) := by
  unfold addNamed Batch.item
  unfold Batch.resolve at h
  dsimp only
  split at h
  · cases h
  · split at h
    · cases h
    · obtain rfl := Except.ok.inj h
      rfl

/-- An entry that the backend declines is reported. -/
theorem leads_addItem_answered (state : σ) {entry : Entry} {added : Bool}
    (h : b.resolve (fun n => env.ids (drawn + n)) i = .ok entry)
    (hanswer : (env.backend.answer (.add set.key entry) state).1 = .ok added) :
    Leads env (set.addItem (b.item i)) ⟨state, drawn + b.unnamed i⟩
      (.turn ⟨.add set.key entry, .ok added,
          (env.backend.answer (.add set.key entry) state).2.2⟩ ::
        if added then [] else [.report (Batch.declined set.key entry)])
      (.ok added)
      ⟨env.backend.next (.add set.key entry) state, drawn + b.unnamed (i + 1)⟩ := by
  have hcall := leads_perform env ⟨state, drawn + b.unnamed (i + 1)⟩ (.add set.key entry)
  rw [Backend.turn, hanswer] at hcall
  rw [addItem_eq]
  refine (leads_nameItem env b drawn i state).bind_of_silent ?_
  rw [addNamed_offered set b i h]
  cases added with
  | true => exact hcall.bind ((leads_reportIf _ _).bind (leads_pure true))
  | false => exact hcall.bind ((leads_reportIf _ _).bind (leads_pure false))

/-- An error of the backend is that of the item. -/
theorem leads_addItem_failed (state : σ) {entry : Entry} {e : StoreError}
    (h : b.resolve (fun n => env.ids (drawn + n)) i = .ok entry)
    (hanswer : (env.backend.answer (.add set.key entry) state).1 = .error e) :
    Leads env (set.addItem (b.item i)) ⟨state, drawn + b.unnamed i⟩
      [.turn ⟨.add set.key entry, .error e,
        (env.backend.answer (.add set.key entry) state).2.2⟩]
      (.error e) ⟨env.backend.next (.add set.key entry) state, drawn + b.unnamed (i + 1)⟩ := by
  have hcall := leads_perform env ⟨state, drawn + b.unnamed (i + 1)⟩ (.add set.key entry)
  rw [Backend.turn, hanswer] at hcall
  rw [addItem_eq]
  refine (leads_nameItem env b drawn i state).bind_of_silent ?_
  rw [addNamed_offered set b i h]
  exact hcall.bind_error

end Steps

section Runs

variable {σ : Type} (env : Environment σ) (set : VectorSet) (b : Batch)

/-- After an item that did not fail a batch goes on with the others. -/
theorem leads_addItems_cons {item : BatchItem} {items : List BatchItem} {w u v : World σ}
    {before after : List Moment} {added : Bool} {result : Except StoreError Nat}
    (hitem : Leads env (set.addItem item) w before (.ok added) u)
    (hrest : Leads env (set.addItems items) u after result v) :
    Leads env (set.addItems (item :: items)) w (before ++ after)
      (result.map (added.toNat + ·)) v := hitem.bind (hrest.map _)

theorem count_true_cons (answer : Bool) (answers : List Bool) :
    (answer :: answers).count true = answer.toNat + answers.count true := by
  cases answer with
  | true => rw [List.count_cons_self, Bool.toNat_true, Nat.add_comm]
  | false => rw [List.count_cons_of_ne Bool.false_ne_true, Bool.toNat_false, Nat.zero_add]

theorem map_count_cons (added : Bool) (answers : Except StoreError (List Bool)) :
    (answers.map (List.count true)).map (added.toNat + ·) =
      (answers.map (added :: ·)).map (List.count true) := by
  cases answers with
  | error e => rfl
  | ok more => exact congrArg Except.ok (count_true_cons added more).symm

/-- The items of places that follow each other lead through a course, and those that were added are
counted. -/
theorem leads_addItems (drawn i n : Nat) (state : σ) :
    ∃ moments answers v,
      Leads env (set.addItems ((List.range' i n).map b.item)) ⟨state, drawn + b.unnamed i⟩ moments
        (answers.map (List.count true)) v ∧
      Batch.Course set.key b (fun n => env.ids (drawn + n)) i n moments answers := by
  induction n generalizing i state with
  | zero => exact ⟨[], .ok [], _, leads_pure 0, .done i⟩
  | succ n ih =>
    rw [List.range'_succ, List.map_cons]
    cases hresolve : b.resolve (fun n => env.ids (drawn + n)) i with
    | error warning =>
      obtain ⟨moments, answers, v, hrest, hcourse⟩ := ih (i + 1) state
      have hitem := leads_addItem_skipped env set b drawn i state hresolve
      have hall := leads_addItems_cons env set hitem hrest
      refine ⟨_, answers, v, ?_, .skipped hresolve hcourse⟩
      cases answers with
      | error e => exact hall
      | ok added =>
        simp only [Except.map, Bool.toNat_false, Nat.zero_add] at hall
        exact hall
    | ok entry =>
      cases hanswer : (env.backend.answer (.add set.key entry) state).1 with
      | error e =>
        have hitem := leads_addItem_failed env set b drawn i state hresolve hanswer
        exact ⟨_, .error e, _, hitem.bind_error, .failed n hresolve _ e⟩
      | ok added =>
        obtain ⟨moments, answers, v, hrest, hcourse⟩ :=
          ih (i + 1) (env.backend.next (.add set.key entry) state)
        have hitem := leads_addItem_answered env set b drawn i state hresolve hanswer
        have hall := leads_addItems_cons env set hitem hrest
        rw [map_count_cons] at hall
        cases added with
        | true => exact ⟨_, _, v, hall, .added hresolve _ hcourse⟩
        | false => exact ⟨_, _, v, hall, .declined hresolve _ hcourse⟩

/-- A batch leads through the course of its places to the answers of the backend.  Unless an error
ended it, how many entries were added is reported at the end. -/
theorem leads_addBatchWithIds (w : World σ) :
    ∃ moments answers v,
      Leads env (set.addBatchWithIds b.ids b.vectors b.metadata) w
        (moments ++ (closing (fun succeeded => .batchAdded set.key succeeded b.vectors.length)
          (answers.map (List.count true))).map .report) (answers.map fun _ => ()) v ∧
      Batch.Course set.key b (fun n => env.ids (w.drawn + n)) 0 b.vectors.length moments
        answers := by
  obtain ⟨moments, answers, v, hitems, hcourse⟩ :=
    leads_addItems env set b w.drawn 0 b.vectors.length w.state
  rw [← b.batchItems_eq] at hitems
  have hbatch := hitems.closing (fun succeeded => .batchAdded set.key succeeded b.vectors.length)
    fun _ => ()
  refine ⟨moments, answers, v, ?_, hcourse⟩
  have hresult : (answers.map (List.count true)).map (fun _ => ()) = answers.map fun _ => () := by
    cases answers <;> rfl
  rwa [hresult] at hbatch

end Runs

/-! ## The whole batch -/

/-- How the batch of some lists goes from a world: the moments up to its closing report, and the
answers to the entries that it offers. -/
structure BatchAccount {σ : Type} (env : Environment σ) (set : VectorSet) (b : Batch) (w : World σ)
    (moments : List Moment) (answers : Except StoreError (List Bool)) : Prop where
  /-- The run says and reports nothing else, and the backend itself answers. -/
  accounts : Accounts env (set.addBatchWithIds b.ids b.vectors b.metadata) w
    (moments ++ (closing (fun succeeded => .batchAdded set.key succeeded b.vectors.length)
      (answers.map (List.count true))).map .report)
  /-- It ends with the first error of the backend, and otherwise well. -/
  result : ((set.addBatchWithIds b.ids b.vectors b.metadata).run env w).result =
    answers.map fun _ => ()
  /-- The calls are the additions of the entries of all places, in order, up to the first error. -/
  calls : Attempted (fun entry : Entry => .add set.key entry) (fun _ (added : Bool) => added)
    (b.entries (fun n => env.ids (w.drawn + n)) 0 b.vectors.length) (turnsOf moments) answers
  /-- Reports come between the calls, one for each place that is skipped or declined. -/
  course : Batch.Course set.key b (fun n => env.ids (w.drawn + n)) 0 b.vectors.length moments
    answers
  /-- All of them are warnings. -/
  warnings : ∀ event ∈ reportsOf moments, event.level = .warning
  /-- There are as many as places that were not added. -/
  balance : ∀ added, answers = .ok added →
    (reportsOf moments).length + added.count true = b.vectors.length
  /-- Ids and metadata beyond the vectors do not matter. -/
  beyond : set.addBatchWithIds (b.ids.take b.vectors.length) b.vectors
    (b.metadata.take b.vectors.length) = set.addBatchWithIds b.ids b.vectors b.metadata

theorem batchItems_take (b : Batch) :
    batchItems (b.ids.take b.vectors.length) b.vectors (b.metadata.take b.vectors.length) =
      batchItems b.ids b.vectors b.metadata := by
  refine List.ext_getElem? fun i => ?_
  rw [batchItems, batchItems, List.getElem?_mapIdx, List.getElem?_mapIdx]
  by_cases hi : i < b.vectors.length
  · rw [List.getElem?_take_of_lt hi, List.getElem?_take_of_lt hi]
  · rw [List.getElem?_eq_none (Nat.le_of_not_lt hi)]
    rfl

/-- A batch over any backend, whatever it answers, and whatever the lengths of its lists and the
holes in them: the entries of its places are offered in order, up to the first error, which is the
result.  An entry that is declined does not end the batch.  Each place that is skipped or declined
is reported in its order, and how many were added at the end. -/
theorem batch_over_any_backend {σ : Type} (env : Environment σ) (set : VectorSet)
    (ids : List (Option String)) (vectors : List (Option FeatureVector))
    (metadata : List (Option Metadata)) (w : World σ) :
    ∃ moments answers, BatchAccount env set ⟨ids, vectors, metadata⟩ w moments answers := by
  let b : Batch := ⟨ids, vectors, metadata⟩
  obtain ⟨moments, answers, v, hbatch, hcourse⟩ := leads_addBatchWithIds env set b w
  refine ⟨moments, answers, ?_⟩
  exact {
    accounts := hbatch.accounts
    result := hbatch.result
    calls := hcourse.attempted
    course := hcourse
    warnings := hcourse.level_of_mem
    balance := fun added h => hcourse.length_reports h
    beyond := by rw [addBatchWithIds, batchItems_take b, addBatchWithIds] }

end VectorSet

end SimilarityStore.Store
