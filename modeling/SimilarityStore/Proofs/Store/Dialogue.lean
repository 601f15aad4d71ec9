import SimilarityStore.Store.Run

/-
  Dialogues: runs seen as what a program says to the backend, what it is answered, and what it
  reports itself.  The steps of a run are those of its dialogue (`Program.trace_run`), and the
  answers are the backend's own, one after the other (`Program.conversation_dialogue`).  `Leads`
  follows a program part by part, and `Attempted` says how planned calls go that are made until one
  fails.
-/

namespace SimilarityStore.Store

/-- A call of the backend, its answer, and the events that the backend reported with it. -/
structure Turn where
  call : Call
  answer : Except StoreError call.Answer
  events : List Event

/-- One moment of a run. -/
inductive Moment where
  /-- The backend is called and answers. -/
  | turn (turn : Turn)
  /-- The embedder is asked for the vector of a text. -/
  | embed (text : String)
  /-- The program itself reports an event. -/
  | report (event : Event)

/-- The steps of a moment that can be seen from outside. -/
def Moment.steps : Moment → List Step
  | turn t => .call t.call :: t.events.map .log
  | embed text => [.embed text]
  | report event => [.log event]

/-- The turns of a dialogue. -/
def turnsOf (moments : List Moment) : List Turn :=
  moments.filterMap fun
    | .turn t => some t
    | _ => none

/-- What the program itself reports in a dialogue. -/
def reportsOf (moments : List Moment) : List Event :=
  moments.filterMap fun
    | .report event => some event
    | _ => none

/-- Reports at the end of a dialogue are no turns. -/
theorem turnsOf_append_reports (moments : List Moment) (events : List Event) :
    turnsOf (moments ++ events.map .report) = turnsOf moments := by
  have hnone : turnsOf (events.map .report) = [] := by
    rw [turnsOf, List.filterMap_map, List.filterMap_eq_nil_iff]
    exact fun _ _ => rfl
  rw [turnsOf, List.filterMap_append]
  exact (congrArg (turnsOf moments ++ ·) hnone).trans (List.append_nil _)

/-- The turn that a call makes in a state of a backend. -/
def Backend.turn {σ : Type} (b : Backend σ) (c : Call) (state : σ) : Turn :=
  ⟨c, (b.answer c state).1, (b.answer c state).2.2⟩

/-- The state of a backend after a call. -/
def Backend.next {σ : Type} (b : Backend σ) (c : Call) (state : σ) : σ := (b.answer c state).2.1

/-- The turns are what a backend answers to their calls, one after the other, between two of its
states. -/
inductive Conversation {σ : Type} (b : Backend σ) : σ → List Turn → σ → Prop where
  | done (state : σ) : Conversation b state [] state
  | turn {state final : σ} {turns : List Turn} (c : Call)
      (rest : Conversation b (b.next c state) turns final) :
      Conversation b state (b.turn c state :: turns) final

section Conversation

variable {σ : Type} {b : Backend σ} {state final : σ} {turns : List Turn}

/-- The first turn of a conversation is the backend's own, and the others follow it. -/
theorem Conversation.head {turn : Turn} (h : Conversation b state (turn :: turns) final) :
    turn = b.turn turn.call state ∧ Conversation b (b.next turn.call state) turns final := by
  cases h with
  | turn c rest => exact ⟨rfl, rest⟩

/-- The first answer of a conversation is the backend's own. -/
theorem Conversation.answered {c : Call} {answer : Except StoreError c.Answer}
    {events : List Event} (h : Conversation b state (⟨c, answer, events⟩ :: turns) final) :
    (b.answer c state).1 = answer ∧ Conversation b (b.next c state) turns final := by
  obtain ⟨hturn, hrest⟩ := h.head
  simp only [Backend.turn, Turn.mk.injEq, heq_eq_eq, true_and] at hturn
  exact ⟨hturn.1.symm, hrest⟩

end Conversation

namespace Program

variable {σ α β : Type}

/-- The dialogue of a run. -/
def dialogue (env : Environment σ) : Program α → World σ → List Moment
  | done _, _ => []
  | call c next, w =>
    .turn (env.backend.turn c w.state) ::
      (next (env.backend.answer c w.state).1).dialogue env
        ⟨env.backend.next c w.state, w.drawn⟩
  | embed text next, w => .embed text :: (next (env.embedder text)).dialogue env w
  | fresh next, w => (next (env.ids w.drawn)).dialogue env { w with drawn := w.drawn + 1 }
  | log event next, w => .report event :: next.dialogue env w

variable (env : Environment σ)

/-- The steps of a run are those of its dialogue. -/
theorem trace_run (p : Program α) (w : World σ) :
    (p.run env w).trace = (p.dialogue env w).flatMap Moment.steps := by
  induction p generalizing w with
  | done result => rfl
  | call c next ih =>
    rw [run_call, Outcome.trace_after, ih]
    rfl
  | embed text next ih =>
    rw [run, Outcome.trace_after, ih]
    rfl
  | fresh next ih => exact ih _ _
  | log event next ih =>
    rw [run, Outcome.trace_after, ih]
    rfl

/-- The turns of a run are answered by the backend. -/
theorem conversation_dialogue (p : Program α) (w : World σ) :
    Conversation env.backend w.state (turnsOf (p.dialogue env w)) (p.run env w).world.state := by
  induction p generalizing w with
  | done result => exact .done _
  | call c next ih => exact .turn c (ih _ ⟨env.backend.next c w.state, w.drawn⟩)
  | embed text next ih => exact ih _ w
  | fresh next ih => exact ih _ ⟨w.state, w.drawn + 1⟩
  | log event next ih => exact ih w

theorem dialogue_bind (p : Program α) (f : α → Program β) (w : World σ) :
    (p >>= f).dialogue env w = p.dialogue env w ++
      match (p.run env w).result with
      | .ok a => (f a).dialogue env (p.run env w).world
      | .error _ => [] := by
  induction p generalizing w with
  | done result => cases result <;> rfl
  | call c next ih =>
    rw [call_bind, dialogue, ih]
    rfl
  | embed text next ih =>
    rw [embed_bind, dialogue, ih]
    rfl
  | fresh next ih =>
    rw [fresh_bind, dialogue, ih]
    rfl
  | log event next ih =>
    rw [log_bind, dialogue, ih]
    rfl

/-! ## Following a program -/

/-- A program that is run in a world leads through a dialogue to a result and another world. -/
structure Leads (env : Environment σ) (p : Program α) (w : World σ) (moments : List Moment)
    (result : Except StoreError α) (v : World σ) : Prop where
  dialogue : p.dialogue env w = moments
  result : (p.run env w).result = result
  world : (p.run env w).world = v

section Leads

variable {env} {w v u : World σ} {p : Program α} {f : α → Program β}
  {before after : List Moment}

theorem leads_ofExcept (env : Environment σ) (w : World σ) (r : Except StoreError α) :
    Leads env (ofExcept r) w [] r w := ⟨rfl, rfl, rfl⟩

theorem leads_pure (a : α) : Leads env (pure a) w [] (.ok a) w := ⟨rfl, rfl, rfl⟩

theorem leads_freshId : Leads env freshId w [] (.ok (env.ids w.drawn)) ⟨w.state, w.drawn + 1⟩ :=
  ⟨rfl, rfl, rfl⟩

theorem leads_report (event : Event) : Leads env (report event) w [.report event] (.ok ()) w :=
  ⟨rfl, rfl, rfl⟩

theorem leads_reportIf (condition : Bool) (event : Event) :
    Leads env (reportIf condition event) w (if condition then [.report event] else []) (.ok ())
      w := by
  cases condition
  · exact leads_pure ()
  · exact leads_report event

theorem leads_perform (env : Environment σ) (w : World σ) (c : Call) :
    Leads env (perform c) w
      [.turn (env.backend.turn c w.state)] (env.backend.answer c w.state).1
      ⟨env.backend.next c w.state, w.drawn⟩ := by
  refine ⟨rfl, ?_, ?_⟩
  · rw [run_perform]
  · rw [run_perform]
    rfl

/-- A program that succeeds hands its result and its world to what follows it. -/
theorem Leads.bind {a : α} {result : Except StoreError β} (hp : Leads env p w before (.ok a) v)
    (hf : Leads env (f a) v after result u) :
    Leads env (p >>= f) w (before ++ after) result u := by
  obtain ⟨hdialogue, hresult, hworld⟩ := hp
  refine ⟨?_, ?_, ?_⟩
  · rw [dialogue_bind, hdialogue, hresult, hworld]
    exact congrArg (before ++ ·) hf.dialogue
  · rw [run_bind, Outcome.andThen, hresult, hworld]
    exact hf.result
  · rw [run_bind, Outcome.andThen, hresult, hworld]
    exact hf.world

/-- What follows a program that says nothing says all. -/
theorem Leads.bind_of_silent {a : α} {result : Except StoreError β}
    (hp : Leads env p w [] (.ok a) v) (hf : Leads env (f a) v after result u) :
    Leads env (p >>= f) w after result u := hp.bind hf

/-- Nothing follows a program that fails. -/
theorem Leads.bind_error {e : StoreError} (hp : Leads env p w before (.error e) v) :
    Leads env (p >>= f) w before (.error e) v := by
  obtain ⟨hdialogue, hresult, hworld⟩ := hp
  refine ⟨?_, ?_, ?_⟩
  · rw [dialogue_bind, hdialogue, hresult]
    exact List.append_nil before
  · rw [run_bind, Outcome.andThen, hresult]
  · rw [run_bind, Outcome.andThen, hresult]
    exact hworld

/-- What is made of the result of a program changes nothing else. -/
theorem Leads.map {result : Except StoreError α} (hp : Leads env p w before result v) (g : α → β) :
    Leads env (p >>= fun a => pure (g a)) w before (result.map g) v := by
  cases result with
  | error e => exact hp.bind_error
  | ok a =>
    have h : Leads env (p >>= fun a => pure (g a)) w (before ++ []) (.ok (g a)) v :=
      hp.bind (leads_pure (g a))
    rwa [List.append_nil] at h

/-- The report at the end of a run that did not fail. -/
def closing (event : α → Event) : Except StoreError α → List Event
  | .ok a => [event a]
  | .error _ => []

/-- A program that reports its result at its end does so unless it failed. -/
theorem Leads.closing {result : Except StoreError α} (hp : Leads env p w before result v)
    (event : α → Event) (g : α → β) :
    Leads env (p >>= fun a => report (event a) >>= fun _ => pure (g a)) w
      (before ++ (Program.closing event result).map .report) (result.map g) v := by
  cases result with
  | error e =>
    rw [Program.closing, List.map_nil, List.append_nil]
    exact hp.bind_error
  | ok a => exact hp.bind ((leads_report _).bind (leads_pure (g a)))

end Leads

/-- The whole run: what it comes to, and the steps that can be seen. -/
theorem Leads.run_eq {env : Environment σ} {p : Program α} {w v : World σ} {moments : List Moment}
    {result : Except StoreError α} (h : Leads env p w moments result v) :
    p.run env w = ⟨result, v, moments.flatMap Moment.steps⟩ := by
  rw [← h.result, ← h.world, ← h.dialogue, ← trace_run]

/-- A dialogue accounts for a run: it has the steps that can be seen, and its answers are the
backend's own. -/
structure Accounts (env : Environment σ) (p : Program α) (w : World σ) (moments : List Moment) :
    Prop where
  trace : (p.run env w).trace = moments.flatMap Moment.steps
  conversation :
    Conversation env.backend w.state (turnsOf moments) (p.run env w).world.state

theorem Leads.accounts {env : Environment σ} {p : Program α} {w v : World σ}
    {moments : List Moment} {result : Except StoreError α} (h : Leads env p w moments result v) :
    Accounts env p w moments where
  trace := by rw [trace_run, h.dialogue]
  conversation := by
    rw [← h.dialogue]
    exact conversation_dialogue env p w

end Program

/-! ## Planned calls -/

/-- The calls of some items are made in order, cut off right after the first that is answered with
an error.  That error is the result; otherwise what is made of each item and its answer is. -/
inductive Attempted {ι β : Type} (call : ι → Call) (made : (i : ι) → (call i).Answer → β) :
    List ι → List Turn → Except StoreError (List β) → Prop where
  | done : Attempted call made [] [] (.ok [])
  | answered {items : List ι} {turns : List Turn} {result : Except StoreError (List β)} (i : ι)
      (answer : (call i).Answer) (events : List Event)
      (rest : Attempted call made items turns result) :
      Attempted call made (i :: items) (⟨call i, .ok answer, events⟩ :: turns)
        (result.map (made i answer :: ·))
  | failed (i : ι) (items : List ι) (e : StoreError) (events : List Event) :
      Attempted call made (i :: items) [⟨call i, .error e, events⟩] (.error e)

section Attempted

variable {ι β : Type} {call : ι → Call} {made : (i : ι) → (call i).Answer → β} {items : List ι}
  {turns : List Turn} {result : Except StoreError (List β)}

/-- The calls that are made are the first of the planned ones. -/
theorem Attempted.calls_prefix (h : Attempted call made items turns result) :
    turns.map Turn.call <+: items.map call := by
  induction h with
  | done => exact List.prefix_rfl
  | answered i answer events rest ih => exact (List.prefix_cons_inj _).2 ih
  | failed i items e events => exact ⟨items.map call, rfl⟩

/-- Unless an error cut them off, all planned calls are made. -/
theorem Attempted.calls_of_ok (h : Attempted call made items turns result) {results : List β}
    (hok : result = .ok results) : turns.map Turn.call = items.map call := by
  induction h generalizing results with
  | done => rfl
  | @answered items turns result i answer events rest ih =>
    cases hresult : result with
    | error e =>
      rw [hresult] at hok
      cases hok
    | ok more => exact congrArg (call i :: ·) (ih hresult)
  | failed i items e events => cases hok

/-- The result is an error exactly when a call is answered with it. -/
theorem Attempted.error_iff (h : Attempted call made items turns result) (e : StoreError) :
    result = .error e ↔ ∃ turn ∈ turns, turn.answer = .error e := by
  induction h with
  | done => simp
  | @answered items turns result i answer events rest ih =>
    have hmap : result.map (made i answer :: ·) = .error e ↔ result = .error e := by
      cases result <;> simp [Except.map]
    rw [hmap, ih]
    simp
  | failed i items error events => simp

end Attempted

end SimilarityStore.Store
