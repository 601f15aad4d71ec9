import SimilarityStore.Proofs.Store.Dialogue

/-
  Two programs that share a backend.  Each goes its own way, and their steps come in any order
  between each other; a call of the backend is one step.  `Interleaves` says which runs there are.
  They are those that schedules lead to (`interleaves_iff_scheduled`).  A program that keeps to
  calls of one kind (`KeepsTo`) never leaves what such calls preserve, and neither do two of them
  (`Interleaves.invariant`).
-/

namespace SimilarityStore.Store.Program

variable {σ α β : Type}

/-! ## In turn -/

/-- Runs a program for what it ends with, be it an error. -/
def attempt : Program α → Program (Except StoreError α)
  | done result => done (.ok result)
  | call c next => call c fun answer => (next answer).attempt
  | embed text next => embed text fun answer => (next answer).attempt
  | fresh next => fresh fun id => (next id).attempt
  | log event next => log event next.attempt

/-- Runs programs one after the other, also past those that fail. -/
def inTurn : List (Program α) → Program (List (Except StoreError α))
  | [] => pure []
  | p :: rest => do
    let result ← p.attempt
    let results ← inTurn rest
    return result :: results

/-! ## Interleavings -/

/-- One step of a program: what shows of it, what is left of the program, and the world after. -/
inductive Move (env : Environment σ) :
    Program α → World σ → List Moment → Program α → World σ → Prop where
  | call (c : Call) (next : Except StoreError c.Answer → Program α) (w : World σ) :
      Move env (call c next) w [.turn (env.backend.turn c w.state)]
        (next (env.backend.answer c w.state).1) ⟨env.backend.next c w.state, w.drawn⟩
  | embed (text : String) (next : Except StoreError FeatureVector → Program α) (w : World σ) :
      Move env (embed text next) w [.embed text] (next (env.embedder text)) w
  | fresh (next : String → Program α) (w : World σ) :
      Move env (fresh next) w [] (next (env.ids w.drawn)) ⟨w.state, w.drawn + 1⟩
  | log (event : Event) (next : Program α) (w : World σ) :
      Move env (log event next) w [.report event] next w

/-- What a program did among others: its own moments, and what it ended with. -/
structure Conduct (α : Type) where
  moments : List Moment
  result : Except StoreError α

/-- Something is said before all else. -/
def Conduct.after (before : List Moment) (a : Conduct α) : Conduct α :=
  ⟨before ++ a.moments, a.result⟩

/-- Two programs share a backend: from a world on, their steps come in some order until both have
ended, and leave another world. -/
inductive Interleaves (env : Environment σ) :
    Program α → Program β → World σ → Conduct α → Conduct β → World σ → Prop where
  | ended (r : Except StoreError α) (s : Except StoreError β) (w : World σ) :
      Interleaves env (done r) (done s) w ⟨[], r⟩ ⟨[], s⟩ w
  | left {p rest : Program α} {q : Program β} {w u v : World σ} {before : List Moment}
      {a : Conduct α} {b : Conduct β} (move : Move env p w before rest u)
      (others : Interleaves env rest q u a b v) : Interleaves env p q w (a.after before) b v
  | right {p : Program α} {q rest : Program β} {w u v : World σ} {before : List Moment}
      {a : Conduct α} {b : Conduct β} (move : Move env q w before rest u)
      (others : Interleaves env p rest u a b v) : Interleaves env p q w a (b.after before) v

variable {env : Environment σ} {p : Program α} {q : Program β} {w u v : World σ}
  {a : Conduct α} {b : Conduct β}

/-- Neither side is preferred. -/
theorem Interleaves.swap (h : Interleaves env p q w a b v) : Interleaves env q p w b a v := by
  induction h with
  | ended r s w => exact .ended s r w
  | left move _ ih => exact .right move ih
  | right move _ ih => exact .left move ih

/-- A step and what the rest of the program leads to. -/
theorem Leads.cons {rest : Program α} {before after : List Moment} {result : Except StoreError α}
    (move : Move env p w before rest u) (h : Leads env rest u after result v) :
    Leads env p w (before ++ after) result v := by
  obtain ⟨rfl, rfl, rfl⟩ := h
  cases move with
  | call c next w => exact ⟨rfl, by rw [run_call]; rfl, by rw [run_call]; rfl⟩
  | embed text next w => exact ⟨rfl, rfl, rfl⟩
  | fresh next w => exact ⟨rfl, rfl, rfl⟩
  | log event next w => exact ⟨rfl, rfl, rfl⟩

/-- Going one after the other is one way of sharing a backend. -/
theorem Leads.interleaves {before after : List Moment} {r : Except StoreError α}
    {s : Except StoreError β} (hp : Leads env p w before r u) (hq : Leads env q u after s v) :
    Interleaves env p q w ⟨before, r⟩ ⟨after, s⟩ v := by
  obtain ⟨rfl, rfl, rfl⟩ := hp
  obtain ⟨rfl, rfl, rfl⟩ := hq
  induction p generalizing w with
  | done r =>
    induction q generalizing w with
    | done s => exact .ended r s w
    | call c next ih => exact .right (.call c next w) (ih _)
    | embed text next ih => exact .right (.embed text next w) (ih _)
    | fresh next ih => exact .right (.fresh next w) (ih _)
    | log event next ih => exact .right (.log event next w) ih
  | call c next ih => exact .left (.call c next w) (ih _)
  | embed text next ih => exact .left (.embed text next w) (ih _)
  | fresh next ih => exact .left (.fresh next w) (ih _)
  | log event next ih => exact .left (.log event next w) ih

/-! ## Schedules -/

/-- The next step of a program that has not ended. -/
def step? (env : Environment σ) :
    Program α → World σ → Option (List Moment × Program α × World σ)
  | done _, _ => none
  | call c next, w =>
    some ([.turn (env.backend.turn c w.state)], next (env.backend.answer c w.state).1,
      ⟨env.backend.next c w.state, w.drawn⟩)
  | embed text next, w => some ([.embed text], next (env.embedder text), w)
  | fresh next, w => some ([], next (env.ids w.drawn), ⟨w.state, w.drawn + 1⟩)
  | log event next, w => some ([.report event], next, w)

theorem step?_eq_some_iff {before : List Moment} {rest : Program α} :
    p.step? env w = some (before, rest, u) ↔ Move env p w before rest u := by
  constructor
  · intro h
    cases p with
    | done result => cases h
    | call c next =>
      cases h
      exact .call c _ w
    | embed text next =>
      cases h
      exact .embed text _ w
    | fresh next =>
      cases h
      exact .fresh _ w
    | log event next =>
      cases h
      exact .log event _ w
  · rintro ⟨⟩ <;> rfl

/-- Which of two programs comes next. -/
inductive Side where
  | left
  | right

/-- The steps of two programs come as a schedule says; one that has ended is passed over.  When the
schedule ends, the left program goes on to its end, and then the right one. -/
def scheduled (env : Environment σ) :
    List Side → Program α → Program β → World σ → Conduct α × Conduct β × World σ
  | [], p, q, w =>
    let first := p.run env w
    let second := q.run env first.world
    (⟨p.dialogue env w, first.result⟩, ⟨q.dialogue env first.world, second.result⟩, second.world)
  | .left :: schedule, p, q, w =>
    match p.step? env w with
    | none => scheduled env schedule p q w
    | some (before, rest, u) =>
      let (a, b, v) := scheduled env schedule rest q u
      (a.after before, b, v)
  | .right :: schedule, p, q, w =>
    match q.step? env w with
    | none => scheduled env schedule p q w
    | some (before, rest, u) =>
      let (a, b, v) := scheduled env schedule p rest u
      (a, b.after before, v)

theorem interleaves_scheduled (schedule : List Side) (p : Program α) (q : Program β)
    (w : World σ) :
    Interleaves env p q w (scheduled env schedule p q w).1 (scheduled env schedule p q w).2.1
      (scheduled env schedule p q w).2.2 := by
  induction schedule generalizing p q w with
  | nil => exact Leads.interleaves ⟨rfl, rfl, rfl⟩ ⟨rfl, rfl, rfl⟩
  | cons side schedule ih =>
    cases side with
    | left =>
      rw [scheduled]
      split
      · exact ih p q w
      · next h => exact .left (step?_eq_some_iff.1 h) (ih _ _ _)
    | right =>
      rw [scheduled]
      split
      · exact ih p q w
      · next h => exact .right (step?_eq_some_iff.1 h) (ih _ _ _)

/-- The ways of sharing a backend are those that schedules lead to. -/
theorem interleaves_iff_scheduled :
    Interleaves env p q w a b v ↔ ∃ schedule, scheduled env schedule p q w = (a, b, v) := by
  constructor
  · intro h
    induction h with
    | ended r s w => exact ⟨[], rfl⟩
    | left move _ ih =>
      obtain ⟨schedule, hschedule⟩ := ih
      refine ⟨.left :: schedule, ?_⟩
      simp only [scheduled, step?_eq_some_iff.2 move, hschedule]
    | right move _ ih =>
      obtain ⟨schedule, hschedule⟩ := ih
      refine ⟨.right :: schedule, ?_⟩
      simp only [scheduled, step?_eq_some_iff.2 move, hschedule]
  · rintro ⟨schedule, hschedule⟩
    have h : Interleaves env p q w _ _ _ := interleaves_scheduled schedule p q w
    rw [hschedule] at h
    exact h

/-! ## In either order -/

/-- Both programs go as they go one after the other, in either order, and leave the same world. -/
structure AsInTurn (env : Environment σ) (p : Program α) (q : Program β) (w : World σ)
    (a : Conduct α) (b : Conduct β) (v : World σ) : Prop where
  leftFirst : ∃ u, Leads env p w a.moments a.result u ∧ Leads env q u b.moments b.result v
  rightFirst : ∃ u, Leads env q w b.moments b.result u ∧ Leads env p u a.moments a.result v

/-! ## Programs that keep to calls of one kind -/

/-- A program only makes allowed calls and reports, and if no call fails it ends with a good
result. -/
inductive KeepsTo (allowed : Call → Prop) (good : α → Prop) : Program α → Prop where
  | done {a : α} (h : good a) : KeepsTo allowed good (done (.ok a))
  | call {c : Call} {next : Except StoreError c.Answer → Program α} (h : allowed c)
      (rest : ∀ answer, KeepsTo allowed good (next (.ok answer))) :
      KeepsTo allowed good (call c next)
  | log (event : Event) {next : Program α} (rest : KeepsTo allowed good next) :
      KeepsTo allowed good (log event next)

section KeepsTo

variable {allowed : Call → Prop} {good : α → Prop} {fine : β → Prop}

theorem keepsTo_pure {a : α} (h : good a) : KeepsTo allowed good (pure a) := .done h

theorem keepsTo_report (event : Event) : KeepsTo allowed (fun _ => True) (report event) :=
  .log event (.done trivial)

theorem keepsTo_reportIf (condition : Bool) (event : Event) :
    KeepsTo allowed (fun _ => True) (reportIf condition event) := by
  cases condition
  · exact keepsTo_pure trivial
  · exact keepsTo_report event

theorem keepsTo_perform {c : Call} (h : allowed c) :
    KeepsTo allowed (fun _ => True) (perform c) :=
  .call h fun _ => .done trivial

theorem KeepsTo.bind {f : α → Program β} (h : p.KeepsTo allowed good)
    (hf : ∀ a, good a → (f a).KeepsTo allowed fine) : (p >>= f).KeepsTo allowed fine := by
  induction h with
  | done h => exact hf _ h
  | call h _ ih => exact .call h ih
  | log event _ ih => exact .log event ih

theorem KeepsTo.attempt (h : p.KeepsTo allowed good) :
    p.attempt.KeepsTo allowed fun r => ∃ a, good a ∧ r = .ok a := by
  induction h with
  | done h => exact .done ⟨_, h, rfl⟩
  | call h _ ih => exact .call h ih
  | log event _ ih => exact .log event ih

/-- Operations that keep to allowed calls do so in turn, and all of them end well. -/
theorem keepsTo_inTurn {programs : List (Program Unit)}
    (h : ∀ p ∈ programs, p.KeepsTo allowed fun _ => True) :
    (inTurn programs).KeepsTo allowed (· = List.replicate programs.length (.ok ())) := by
  induction programs with
  | nil => exact keepsTo_pure rfl
  | cons p rest ih =>
    refine (h p List.mem_cons_self).attempt.bind ?_
    rintro _ ⟨-, -, rfl⟩
    refine (ih fun q hq => h q (List.mem_cons_of_mem p hq)).bind ?_
    rintro _ rfl
    exact keepsTo_pure rfl

variable {permitted : Call → Prop}

/-- What holds of a world, and is preserved by every call of two programs, holds as long as they
go on.  While it holds, no call may fail. -/
theorem Interleaves.invariant {I : World σ → Prop} (h : Interleaves env p q w a b v)
    (hp : p.KeepsTo allowed good) (hq : q.KeepsTo permitted fine)
    (hcall : ∀ c u, allowed c ∨ permitted c → I u →
      (∃ answer, (env.backend.answer c u.state).1 = .ok answer) ∧
        I ⟨env.backend.next c u.state, u.drawn⟩)
    (hw : I w) : I v := by
  induction h with
  | ended r s w => exact hw
  | left move _ ih =>
    cases move with
    | call c next =>
      cases hp with
      | call hc hrest =>
        obtain ⟨⟨answer, hanswer⟩, hnext⟩ := hcall c _ (.inl hc) hw
        exact ih (hanswer ▸ hrest answer) hq hnext
    | embed text next => cases hp
    | fresh next => cases hp
    | log event next =>
      cases hp with
      | log _ hrest => exact ih hrest hq hw
  | right move _ ih =>
    cases move with
    | call c next =>
      cases hq with
      | call hc hrest =>
        obtain ⟨⟨answer, hanswer⟩, hnext⟩ := hcall c _ (.inr hc) hw
        exact ih hp (hanswer ▸ hrest answer) hnext
    | embed text next => cases hq
    | fresh next => cases hq
    | log event next =>
      cases hq with
      | log _ hrest => exact ih hp hrest hw

end KeepsTo

end SimilarityStore.Store.Program
