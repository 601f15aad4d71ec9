import SimilarityStore.Store.Program

/-
  Running programs.  A program is run with a backend, an embedder and a supply of ids; the outcome
  has its result, the world after it, and every step that can be seen from outside.  Main
  statement: `run_bind`, a program and what follows it are run one after the other.
-/

namespace SimilarityStore.Store

/-- A backend with states of type `σ`: its answer to each call, its next state, and the events that
it reports itself. -/
structure Backend (σ : Type) where
  answer : (c : Call) → σ → Except StoreError c.Answer × σ × List Event

/-- What a program is run with: a backend, an embedder, and the ids that are drawn. -/
structure Environment (σ : Type) where
  backend : Backend σ
  embedder : String → Except StoreError FeatureVector
  ids : Nat → String

/-- The state between programs: the backend's, and the number of ids drawn so far. -/
structure World (σ : Type) where
  state : σ
  drawn : Nat

/-- One step that can be seen from outside. -/
inductive Step where
  | call (c : Call)
  | embed (text : String)
  | log (event : Event)
deriving DecidableEq

/-- The outcome of a run: the result, the world after it, and the steps in order. -/
structure Outcome (σ α : Type) where
  result : Except StoreError α
  world : World σ
  trace : List Step

namespace Outcome

variable {σ α β : Type}

/-- An outcome with steps put before its own. -/
def after (steps : List Step) (o : Outcome σ α) : Outcome σ α :=
  { o with trace := steps ++ o.trace }

/-- The outcome of going on from an outcome, unless it failed. -/
def andThen (o : Outcome σ α) (next : α → World σ → Outcome σ β) : Outcome σ β :=
  match o.result with
  | .ok a => (next a o.world).after o.trace
  | .error e => ⟨.error e, o.world, o.trace⟩

@[simp] theorem result_after (steps : List Step) (o : Outcome σ α) :
    (o.after steps).result = o.result := rfl

@[simp] theorem world_after (steps : List Step) (o : Outcome σ α) :
    (o.after steps).world = o.world := rfl

@[simp] theorem trace_after (steps : List Step) (o : Outcome σ α) :
    (o.after steps).trace = steps ++ o.trace := rfl

@[simp] theorem after_nil (o : Outcome σ α) : o.after [] = o := rfl

theorem after_after (earlier later : List Step) (o : Outcome σ α) :
    (o.after later).after earlier = o.after (earlier ++ later) := by
  simp [after]

theorem andThen_after (steps : List Step) (o : Outcome σ α)
    (next : α → World σ → Outcome σ β) :
    (o.after steps).andThen next = (o.andThen next).after steps := by
  unfold andThen
  rw [result_after]
  cases o.result with
  | ok a => simp [after]
  | error e => rfl

end Outcome

namespace Program

variable {σ α β : Type}

/-- Runs a program. -/
def run (env : Environment σ) : Program α → World σ → Outcome σ α
  | done result, w => ⟨result, w, []⟩
  | call c next, w =>
    let (answer, state, events) := env.backend.answer c w.state
    ((next answer).run env { w with state := state }).after (.call c :: events.map .log)
  | embed text next, w => ((next (env.embedder text)).run env w).after [.embed text]
  | fresh next, w => (next (env.ids w.drawn)).run env { w with drawn := w.drawn + 1 }
  | log event next, w => (next.run env w).after [.log event]

variable (env : Environment σ) (w : World σ)

@[simp] theorem run_pure (a : α) : (pure a : Program α).run env w = ⟨.ok a, w, []⟩ := rfl

@[simp] theorem run_fail (e : StoreError) :
    (fail e : Program α).run env w = ⟨.error e, w, []⟩ := rfl

@[simp] theorem run_ofExcept (r : Except StoreError α) :
    (ofExcept r).run env w = ⟨r, w, []⟩ := rfl

theorem run_call (c : Call) (next : Except StoreError c.Answer → Program α) :
    (call c next).run env w =
      ((next (env.backend.answer c w.state).1).run env
        ⟨(env.backend.answer c w.state).2.1, w.drawn⟩).after
        (.call c :: (env.backend.answer c w.state).2.2.map .log) := rfl

@[simp] theorem run_perform (c : Call) :
    (perform c).run env w =
      ⟨(env.backend.answer c w.state).1, ⟨(env.backend.answer c w.state).2.1, w.drawn⟩,
        .call c :: (env.backend.answer c w.state).2.2.map .log⟩ := by
  simp [perform, run_call, run, Outcome.after]

@[simp] theorem run_vectorOf (text : String) :
    (vectorOf text).run env w = ⟨env.embedder text, w, [.embed text]⟩ := rfl

@[simp] theorem run_freshId :
    freshId.run env w = ⟨.ok (env.ids w.drawn), ⟨w.state, w.drawn + 1⟩, []⟩ := rfl

@[simp] theorem run_report (event : Event) :
    (report event).run env w = ⟨.ok (), w, [.log event]⟩ := rfl

/-- A program and what follows it are run one after the other. -/
theorem run_bind (p : Program α) (f : α → Program β) :
    (p >>= f).run env w = (p.run env w).andThen fun a v => (f a).run env v := by
  induction p generalizing w with
  | done result => cases result <;> rfl
  | call c next ih =>
    rw [call_bind, run_call, run_call, Outcome.andThen_after, ih]
  | embed text next ih =>
    rw [embed_bind, run, run, Outcome.andThen_after, ih]
  | fresh next ih =>
    rw [fresh_bind, run, run, ih]
  | log event next ih =>
    rw [log_bind, run, run, Outcome.andThen_after, ih]

/-- What is made of a result does not show in the world. -/
theorem world_map (f : α → β) (p : Program α) :
    ((f <$> p).run env w).world = (p.run env w).world := by
  rw [map_eq_pure_bind, run_bind, Outcome.andThen]
  cases (p.run env w).result <;> rfl

/-! ## Programs that succeed -/

/-- A program that is run in a world succeeds with a result and leaves another world. -/
def Returns (env : Environment σ) (p : Program α) (w : World σ) (a : α) (v : World σ) : Prop :=
  (p.run env w).result = .ok a ∧ (p.run env w).world = v

theorem returns_pure {env : Environment σ} {w : World σ} (a : α) :
    Returns env (pure a) w a w := ⟨rfl, rfl⟩

/-- A program that succeeds hands its result and its world to what follows it. -/
theorem Returns.bind {env : Environment σ} {w v u : World σ} {p : Program α}
    {f : α → Program β} {a : α} {b : β} (hp : Returns env p w a v)
    (hf : Returns env (f a) v b u) : Returns env (p >>= f) w b u := by
  obtain ⟨hresult, hworld⟩ := hp
  unfold Returns
  rw [run_bind, Outcome.andThen, hresult]
  dsimp only
  rw [hworld, Outcome.result_after, Outcome.world_after]
  exact hf

end Program

end SimilarityStore.Store
