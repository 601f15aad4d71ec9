import SimilarityStore.Proofs.Store.Batches
import SimilarityStore.Proofs.Store.Dimensions
import SimilarityStore.Proofs.Store.Operations
import Mathlib.Data.Finset.Card

/-
  Batches of removals.  Over any backend a batch asks for one id after the other, up to the first
  error, with a warning behind each id that was not removed (`leads_removeIds`).  In memory every
  removal is answered, and a batch takes exactly the ids that are listed out of its set, whatever
  their order and however often they are listed (`element?_removeEach`, `count_removeEach`).  Main
  statement: `removal_batch_takes_listed_ids`.
-/

namespace SimilarityStore.Store

open Program (Leads Accounts closing leads_pure leads_reportIf leads_perform)

/-! ## Over any backend -/

/-- A turn, with the warning behind it if it is a removal of an id that was not there. -/
def Turn.withWarning : Turn → List Moment
  | ⟨.remove key id, .ok false, events⟩ =>
    [.turn ⟨.remove key id, .ok false, events⟩, .report (.idNotRemoved key id)]
  | turn => [.turn turn]

namespace VectorSet

section AnyBackend

variable {σ : Type} (env : Environment σ) (set : VectorSet)

/-- How a batch of removals goes from a world: the turns with the backend, and what it answered. -/
structure RemovalAccount (listed : List String) (w : World σ) (turns : List Turn)
    (answers : Except StoreError (List Bool)) : Prop where
  /-- The run has these turns with their warnings and, unless it failed, a closing report with the
  number of ids that were removed and of all that were listed. -/
  accounts : Accounts env (set.removeBatch listed) w
    (turns.flatMap Turn.withWarning ++
      (closing (fun succeeded => .batchRemoved set.key succeeded listed.length)
        (answers.map (List.count true))).map .report)
  /-- It ends with the first error of the backend, and otherwise well. -/
  result : ((set.removeBatch listed).run env w).result = answers.map fun _ => ()
  /-- The calls are one removal for each id, in order, up to the first error. -/
  calls : Attempted (fun id : String => .remove set.key id) (fun _ (removed : Bool) => removed)
    listed turns answers
  /-- There is one warning for each id that was not removed, in order. -/
  warnings : ∀ removed, answers = .ok removed →
    reportsOf (turns.flatMap Turn.withWarning) =
      ((listed.zip removed).filter fun place => !place.2).map fun place =>
        .idNotRemoved set.key place.1

/-- An id that is asked for, with the warning if it was not removed, and then those behind it. -/
theorem leads_removeIds_cons {id : String} {rest : List String} {w v : World σ}
    {turns : List Turn} {answers : Except StoreError (List Bool)} {removed : Bool}
    (hanswer : (env.backend.answer (.remove set.key id) w.state).1 = .ok removed)
    (hrest : Leads env (set.removeIds rest)
      ⟨env.backend.next (.remove set.key id) w.state, w.drawn⟩
      (turns.flatMap Turn.withWarning) (answers.map (List.count true)) v) :
    Leads env (set.removeIds (id :: rest)) w
      ((⟨.remove set.key id, .ok removed,
        (env.backend.answer (.remove set.key id) w.state).2.2⟩ :: turns).flatMap
          Turn.withWarning)
      ((answers.map (removed :: ·)).map (List.count true)) v := by
  have hcall := leads_perform env w (.remove set.key id)
  rw [Backend.turn, hanswer] at hcall
  rw [← map_count_cons]
  cases removed with
  | true => exact hcall.bind ((leads_reportIf _ _).bind (hrest.map _))
  | false => exact hcall.bind ((leads_reportIf _ _).bind (hrest.map _))

/-- Ids are asked for in order, up to the first error, and those that were removed are counted. -/
theorem leads_removeIds (listed : List String) (w : World σ) :
    ∃ turns answers v,
      Leads env (set.removeIds listed) w (turns.flatMap Turn.withWarning)
        (answers.map (List.count true)) v ∧
      Attempted (fun id : String => .remove set.key id) (fun _ (removed : Bool) => removed)
        listed turns answers := by
  induction listed generalizing w with
  | nil => exact ⟨[], .ok [], w, leads_pure 0, .done⟩
  | cons id rest ih =>
    cases hanswer : (env.backend.answer (.remove set.key id) w.state).1 with
    | error e =>
      have hcall := leads_perform env w (.remove set.key id)
      rw [Backend.turn, hanswer] at hcall
      exact ⟨_, .error e, _, hcall.bind_error, .failed id rest e _⟩
    | ok removed =>
      obtain ⟨turns, answers, v, hrest, hcalls⟩ :=
        ih ⟨env.backend.next (.remove set.key id) w.state, w.drawn⟩
      exact ⟨_, _, v, leads_removeIds_cons env set hanswer hrest, .answered id removed _ hcalls⟩

variable {set}

/-- Reports are made behind the removals that are answered with no, and only there. -/
theorem reportsOf_withWarning {listed : List String} {turns : List Turn}
    {answers : Except StoreError (List Bool)} {removed : List Bool}
    (h : Attempted (fun id : String => .remove set.key id) (fun _ (removed : Bool) => removed)
      listed turns answers) (hok : answers = .ok removed) :
    reportsOf (turns.flatMap Turn.withWarning) =
      ((listed.zip removed).filter fun place => !place.2).map fun place =>
        .idNotRemoved set.key place.1 := by
  induction h generalizing removed with
  | done =>
    obtain rfl := Except.ok.inj hok
    rfl
  | @answered rest turns answers id answer events hrest ih =>
    obtain ⟨more, hmore, rfl⟩ := Batch.ok_of_map hok
    have htail := ih hmore
    rw [reportsOf] at htail ⊢
    cases answer with
    | true => exact htail
    | false => exact congrArg (Event.idNotRemoved set.key id :: ·) htail
  | failed id rest e events => cases hok

/-- Turns with their warnings have the same turns. -/
theorem turnsOf_withWarning (turns : List Turn) :
    turnsOf (turns.flatMap Turn.withWarning) = turns := by
  induction turns with
  | nil => rfl
  | cons turn rest ih =>
    have hturn : turnsOf turn.withWarning = [turn] := by
      unfold Turn.withWarning
      split <;> rfl
    rw [List.flatMap_cons, turnsOf, List.filterMap_append]
    exact congrArg₂ (· ++ ·) hturn ih

variable (set)

theorem removal_account (listed : List String) (w : World σ) :
    ∃ turns answers, set.RemovalAccount env listed w turns answers := by
  obtain ⟨turns, answers, v, hids, hcalls⟩ := leads_removeIds env set listed w
  have hbatch := hids.closing (fun succeeded => .batchRemoved set.key succeeded listed.length)
    fun _ => ()
  have hresult : (answers.map (List.count true)).map (fun _ => ()) = answers.map fun _ => () := by
    cases answers <;> rfl
  rw [hresult] at hbatch
  exact ⟨turns, answers, {
    accounts := hbatch.accounts
    result := hbatch.result
    calls := hcalls
    warnings := fun removed hok => reportsOf_withWarning hcalls hok }⟩

end AnyBackend

end VectorSet

/-! ## In memory -/

namespace Memory

/-- Removes ids under a key in order, and tells of each whether it was there. -/
def removeEach (key : String) : List String → Memory → List Bool × Memory
  | [], m => ([], m)
  | id :: rest, m =>
    let (removed, after) := m.remove key id
    let (more, final) := removeEach key rest after
    (removed :: more, final)

/-- How many different ids of a list are there under a key. -/
def storedAmong (m : Memory) (key : String) (listed : List String) : Nat :=
  (listed.toFinset.filter fun id => (m.element? key id).isSome).card

section RemoveEach

variable {m : Memory} {key : String}

/-- Exactly the ids of the list are gone afterwards, and everything else stays as it was. -/
theorem element?_removeEach (listed : List String) (other id : String) :
    (removeEach key listed m).2.element? other id =
      if other = key ∧ id ∈ listed then none else m.element? other id := by
  induction listed generalizing m with
  | nil => simp [removeEach]
  | cons first rest ih =>
    rw [removeEach, ih, element?_remove]
    by_cases hkey : other = key
    · subst hkey
      by_cases hrest : id ∈ rest
      · simp [hrest]
      · simp [hrest, eq_comm]
    · simp [hkey, Ne.symm hkey]

/-- An id that is taken out is there for no later place of the list. -/
theorem storedAmong_remove (id : String) (rest : List String) :
    (m.remove key id).1.toNat + (m.remove key id).2.storedAmong key rest =
      m.storedAmong key (id :: rest) := by
  have hrest : (rest.toFinset.filter fun other =>
      ((m.remove key id).2.element? key other).isSome) =
      (rest.toFinset.filter fun other => (m.element? key other).isSome).erase id := by
    ext other
    simp only [element?_remove, Finset.mem_filter, Finset.mem_erase, true_and]
    by_cases hother : id = other
    · simp [hother]
    · simp [hother, Ne.symm hother]
  rw [storedAmong, storedAmong, hrest, remove_fst, List.toFinset_cons, Finset.filter_insert]
  cases hid : (m.element? key id).isSome with
  | true =>
    rw [if_pos rfl, ← Finset.erase_insert_eq_erase,
      ← Finset.card_erase_add_one (Finset.mem_insert_self id _), Bool.toNat_true, Nat.add_comm]
  | false =>
    have habsent : id ∉ rest.toFinset.filter fun other => (m.element? key other).isSome := by
      simp [hid]
    rw [if_neg Bool.false_ne_true, Finset.erase_eq_of_notMem habsent, Bool.toNat_false,
      Nat.zero_add]

/-- An id counts once, however often it is listed, and only if it was there. -/
theorem count_removeEach (listed : List String) :
    (removeEach key listed m).1.count true = m.storedAmong key listed := by
  induction listed generalizing m with
  | nil => rfl
  | cons id rest ih =>
    have hcons : (removeEach key (id :: rest) m).1 =
        (m.remove key id).1 :: (removeEach key rest (m.remove key id).2).1 := rfl
    rw [hcons, VectorSet.count_true_cons, ih, storedAmong_remove]

theorem WellFormed.removeEach (h : m.WellFormed) (listed : List String) :
    (removeEach key listed m).2.WellFormed := by
  induction listed generalizing m with
  | nil => exact h
  | cons id rest ih => exact ih (wellFormed_answer h (.remove key id))

theorem storedAmong_congr {listed other : List String} (h : ∀ id, id ∈ other ↔ id ∈ listed) :
    m.storedAmong key other = m.storedAmong key listed := by
  have hsame : other.toFinset = listed.toFinset := by
    ext id
    rw [List.mem_toFinset, List.mem_toFinset, h]
  rw [storedAmong, storedAmong, hsame]

/-- Neither the order of a list nor what stands in it twice matters. -/
theorem WellFormed.removeEach_congr (hm : m.WellFormed) {listed other : List String}
    (h : ∀ id, id ∈ other ↔ id ∈ listed) :
    (Memory.removeEach key other m).2 = (Memory.removeEach key listed m).2 := by
  refine (hm.removeEach other).ext (hm.removeEach listed) fun k id => ?_
  simp only [element?_removeEach, h]

/-- Ids that are asked of the memory are all removed, one after the other. -/
theorem removeEach_of_attempted {listed : List String} {turns : List Turn}
    {answers : Except StoreError (List Bool)} {n : Memory}
    (h : Attempted (fun id : String => .remove key id) (fun _ (removed : Bool) => removed) listed
      turns answers)
    (hturns : Conversation backend m turns n) :
    answers = .ok (Memory.removeEach key listed m).1 ∧
      n = (Memory.removeEach key listed m).2 := by
  induction h generalizing m with
  | done =>
    cases hturns
    exact ⟨rfl, rfl⟩
  | answered id removed events rest ih =>
    obtain ⟨hanswer, hrest⟩ : Except.ok (m.remove key id).1 = .ok removed ∧ _ := hturns.answered
    obtain ⟨rfl, hfinal⟩ := ih hrest
    obtain rfl := Except.ok.inj hanswer
    exact ⟨rfl, hfinal⟩
  | failed id rest e events =>
    obtain ⟨hanswer, -⟩ : Except.ok (m.remove key id).1 = .error e ∧ _ := hturns.answered
    cases hanswer

end RemoveEach

end Memory

namespace VectorSet

section Effect

variable (embedder : String → Except StoreError FeatureVector) (ids : Nat → String)
  (set : VectorSet)

/-- The run of a batch of removals on the memory. -/
def runRemovals (listed : List String) (w : World Memory) : Outcome Memory Unit :=
  (set.removeBatch listed).run (Memory.environment embedder ids) w

/-- What a batch of removals does to the memory. -/
structure RemovalEffect (listed : List String) (w : World Memory) : Prop where
  /-- It always ends well. -/
  result : (set.runRemovals embedder ids listed w).result = .ok ()
  /-- The listed ids are gone, and all other elements are as they were. -/
  contents : ∀ key id, (set.runRemovals embedder ids listed w).world.state.element? key id =
    if key = set.key ∧ id ∈ listed then none else w.state.element? key id
  /-- The report at the end tells how many different listed ids were there. -/
  summary : (set.runRemovals embedder ids listed w).trace.getLast? =
    some (.log (.batchRemoved set.key (w.state.storedAmong set.key listed) listed.length))
  /-- Another order of the ids, and ids that are listed more than once, change neither what is left
  nor how many are said to be removed. -/
  unordered : ∀ other : List String, (∀ id, id ∈ other ↔ id ∈ listed) →
    (set.runRemovals embedder ids other w).world.state =
        (set.runRemovals embedder ids listed w).world.state ∧
      (set.runRemovals embedder ids other w).trace.getLast? =
        some (.log (.batchRemoved set.key (w.state.storedAmong set.key listed) other.length))

/-- A batch removes its ids one after the other and ends with their number. -/
theorem runRemovals_eq (listed : List String) (w : World Memory) :
    (set.runRemovals embedder ids listed w).result = .ok () ∧
      (set.runRemovals embedder ids listed w).world.state =
        (Memory.removeEach set.key listed w.state).2 ∧
      (set.runRemovals embedder ids listed w).trace.getLast? =
        some (.log (.batchRemoved set.key (w.state.storedAmong set.key listed)
          listed.length)) := by
  obtain ⟨turns, answers, account⟩ :=
    set.removal_account (Memory.environment embedder ids) listed w
  have hturns := account.accounts.conversation
  rw [turnsOf_append_reports, turnsOf_withWarning] at hturns
  obtain ⟨rfl, hstate⟩ := Memory.removeEach_of_attempted account.calls hturns
  refine ⟨account.result, hstate, ?_⟩
  have htrace := account.accounts.trace
  rw [List.flatMap_append] at htrace
  rw [runRemovals, htrace, ← Memory.count_removeEach]
  exact List.getLast?_concat

theorem removalEffect (listed : List String) {w : World Memory} (hw : w.state.WellFormed) :
    set.RemovalEffect embedder ids listed w where
  result := (set.runRemovals_eq embedder ids listed w).1
  contents key id := by
    rw [(set.runRemovals_eq embedder ids listed w).2.1, Memory.element?_removeEach]
  summary := (set.runRemovals_eq embedder ids listed w).2.2
  unordered other hsame := by
    obtain ⟨-, hstate, hsummary⟩ := set.runRemovals_eq embedder ids other w
    rw [hstate, (set.runRemovals_eq embedder ids listed w).2.1, hw.removeEach_congr hsame]
    rw [hsummary, Memory.storedAmong_congr hsame]
    exact ⟨rfl, rfl⟩

/-- A batch of removals asks any backend for each id in order, up to the first error, which is the
result; an id that is not removed is reported and does not end it.  On a memory that any calls have
led to it always ends well and takes out exactly the ids that are listed, whatever their order and
however often they are listed. -/
theorem removal_batch_takes_listed_ids (listed : List String) :
    (∀ {σ : Type} (env : Environment σ) (w : World σ),
        ∃ turns answers, set.RemovalAccount env listed w turns answers) ∧
      ∀ (embedder : String → Except StoreError FeatureVector) (ids : Nat → String)
        (calls : List Call) (drawn : Nat),
        set.RemovalEffect embedder ids listed
          ⟨(Memory.session calls Memory.empty).2, drawn⟩ := by
  refine ⟨fun env w => set.removal_account env listed w, fun embedder ids calls drawn => ?_⟩
  exact set.removalEffect embedder ids listed
    (Memory.wellFormed_session Memory.wellFormed_empty calls)

end Effect

end VectorSet

end SimilarityStore.Store
