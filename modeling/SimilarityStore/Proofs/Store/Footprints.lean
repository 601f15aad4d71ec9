import SimilarityStore.Proofs.Store.NewIds
import SimilarityStore.Proofs.Store.Operations
import SimilarityStore.Proofs.Store.Searching

/-
  What programs ask for.  A program stays within some calls when it makes no others, whatever it is
  answered, and never asks the embedder; it may draw ids or not (`Program.Within`).  What stays
  within fetches and searches and draws no id leaves a world with the memory as it is
  (`Memory.world_run_of_reads`).
-/

namespace SimilarityStore.Store

namespace Program

variable {σ α β : Type} {calls : Call → Prop} {draws : Prop}

/-- A program makes only some calls, draws ids only if it may, and never asks the embedder. -/
inductive Within (calls : Call → Prop) (draws : Prop) : Program α → Prop where
  | done (result : Except StoreError α) : Within calls draws (done result)
  | call {c : Call} {next : Except StoreError c.Answer → Program α} (allowed : calls c)
      (rest : ∀ answer, Within calls draws (next answer)) : Within calls draws (call c next)
  | fresh {next : String → Program α} (allowed : draws)
      (rest : ∀ id, Within calls draws (next id)) : Within calls draws (fresh next)
  | log (event : Event) {next : Program α} (rest : Within calls draws next) :
      Within calls draws (log event next)

theorem within_pure (a : α) : (pure a : Program α).Within calls draws := .done (.ok a)

theorem within_freshId (allowed : draws) : freshId.Within calls draws :=
  .fresh allowed fun id => .done (.ok id)

theorem within_perform {c : Call} (allowed : calls c) : (perform c).Within calls draws :=
  .call allowed .done

theorem within_report (event : Event) : (report event).Within calls draws :=
  .log event (.done (.ok ()))

theorem within_reportIf (condition : Bool) (event : Event) :
    (reportIf condition event).Within calls draws := by
  cases condition
  · exact within_pure ()
  · exact within_report event

theorem Within.bind {p : Program α} {f : α → Program β} (hp : p.Within calls draws)
    (hf : ∀ a, (f a).Within calls draws) : (p >>= f).Within calls draws := by
  induction hp with
  | done result =>
    cases result with
    | error e => exact .done (.error e)
    | ok a => exact hf a
  | call allowed _ ih => exact .call allowed ih
  | fresh allowed _ ih => exact .fresh allowed ih
  | log event _ ih => exact .log event ih

theorem Within.mono {p : Program α} (hp : p.Within calls draws) {more : Call → Prop}
    {drawing : Prop} (hcalls : ∀ c, calls c → more c) (hdraws : draws → drawing) :
    p.Within more drawing := by
  induction hp with
  | done result => exact .done result
  | @call c _ allowed _ ih => exact .call (hcalls c allowed) ih
  | fresh allowed _ ih => exact .fresh (hdraws allowed) ih
  | log event _ ih => exact .log event ih

/-- What draws no ids leaves those that are drawn next. -/
theorem Within.drawn_run {p : Program α} (hp : p.Within calls False) (env : Environment σ)
    (w : World σ) : (p.run env w).world.drawn = w.drawn := by
  induction hp generalizing w with
  | done result => rfl
  | call _ _ ih =>
    rw [run_call, Outcome.world_after]
    exact ih _ _
  | fresh allowed _ _ => exact allowed.elim
  | log event _ ih => exact ih w

/-- A program never asks the embedder. -/
def NeverAsks (p : Program α) : Prop := p.Within (fun _ => True) True

/-- A program makes only calls that ask, and draws no ids. -/
def Reads (p : Program α) : Prop := p.Within (fun c => c.isReading = true) False

theorem reads_perform {c : Call} (h : c.isReading = true) : (perform c).Reads := within_perform h

theorem Reads.neverAsks {p : Program α} (hp : p.Reads) : p.NeverAsks :=
  hp.mono (fun _ _ => trivial) fun _ => trivial

end Program

/-- What only reads leaves the memory as it is, and the ids that are drawn next. -/
theorem Memory.world_run_of_reads {α : Type} {p : Program α} (hp : p.Reads)
    (embedder : String → Except StoreError FeatureVector) (ids : Nat → String) (w : World Memory) :
    (p.run (environment embedder ids) w).world = w := by
  induction hp with
  | done result => rfl
  | @call c next allowed _ ih =>
    have hstate : (answer c w.state).2 = w.state := answer_unchanged w.state (.inl allowed)
    rw [Program.run_call, Outcome.world_after]
    exact (congrArg (fun m => ((next _).run (environment embedder ids) ⟨m, w.drawn⟩).world)
      hstate).trans (ih _)
  | fresh allowed _ _ => exact allowed.elim
  | log event _ ih => exact ih

/-! ## Operations of vector sets -/

namespace VectorSet

open Program

variable (set : VectorSet)

theorem neverAsks_addItem (item : BatchItem) : (set.addItem item).NeverAsks := by
  rw [addItem_eq]
  refine Within.bind ?_ fun id => ?_
  · unfold nameItem
    split
    · exact within_pure _
    · exact within_freshId trivial
  · unfold addNamed
    split
    · exact (within_report _).bind fun _ => within_pure false
    · split
      · exact (within_report _).bind fun _ => within_pure false
      · refine (within_perform trivial).bind fun added => ?_
        exact (within_reportIf _ _).bind fun _ => within_pure added

theorem neverAsks_addItems (items : List BatchItem) : (set.addItems items).NeverAsks := by
  induction items with
  | nil => exact within_pure 0
  | cons item rest ih =>
    exact (set.neverAsks_addItem item).bind fun _ => ih.bind fun _ => within_pure _

theorem neverAsks_addFresh (vector : FeatureVector) (metadata : Option Metadata) :
    (set.addFresh vector metadata).NeverAsks := by
  refine (within_freshId trivial).bind fun id => Within.bind ?_ fun _ => within_pure id
  exact (set.neverAsks_addItems _).bind fun _ => within_report _

theorem within_removeIds (listed : List String) :
    (set.removeIds listed).Within (fun _ => True) False := by
  induction listed with
  | nil => exact within_pure 0
  | cons id rest ih =>
    refine (within_perform trivial).bind fun removed => ?_
    exact (within_reportIf _ _).bind fun _ => ih.bind fun _ => within_pure _

theorem within_removeBatch (listed : List String) :
    (set.removeBatch listed).Within (fun _ => True) False :=
  (set.within_removeIds listed).bind fun _ => within_report _

theorem reads_filterText (filter : Option Filter.Expr) : (set.filterText filter).Reads := by
  cases filter with
  | none => exact within_pure none
  | some filter =>
    rw [filterText_some]
    split
    · exact within_pure _
    · exact (within_report _).bind fun _ => (within_report _).bind fun _ => within_pure none

theorem reads_reconstructAll (hits : List Hit) : (set.reconstructAll hits).Reads := by
  induction hits with
  | nil => exact within_pure []
  | cons hit rest ih =>
    refine Within.bind ?_ fun _ => ih.bind fun _ => within_pure _
    rw [reconstruct_eq]
    split
    · exact within_pure none
    · exact Within.bind (reads_perform rfl) fun _ => within_pure _

theorem reads_search (request : Option SearchRequest) : (set.search request).Reads := by
  unfold search
  split
  · exact within_pure []
  · split
    · exact within_pure []
    · refine Within.bind (.done _) fun _ => ?_
      refine (set.reads_filterText _).bind fun filter => ?_
      refine Within.bind (reads_perform rfl) fun hits => ?_
      exact (set.reads_reconstructAll hits).bind fun found =>
        (within_report _).bind fun _ => within_pure found

end VectorSet

end SimilarityStore.Store
