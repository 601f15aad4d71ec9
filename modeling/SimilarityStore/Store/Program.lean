import SimilarityStore.Store.Event
import SimilarityStore.Store.Search

/-
  Programs: operations as trees of what they ask of their surroundings.  A program calls the
  backend of a vector set, asks an embedder for the vector of a text, draws a new id, or reports an
  event; it says how it goes on for every answer.  So an operation is one value, whatever backend
  it is run with, and the calls that it makes can be told from the tree.
-/

namespace SimilarityStore.Store

/-- A call of a backend. -/
inductive Call where
  /-- Adds an entry under a key, or replaces the one with its id. -/
  | add (key : String) (entry : Entry)
  /-- Removes an id from a key. -/
  | remove (key id : String)
  /-- Looks up the vector of an id. -/
  | fetch (key id : String)
  /-- Looks for the elements nearest to a vector. -/
  | search (key : String) (query : FeatureVector) (parameters : Parameters)
  /-- Deletes a key with all its elements. -/
  | delete (key : String)
deriving DecidableEq

/-- What a call is answered with. -/
@[reducible] def Call.Answer : Call → Type
  | add _ _ => Bool
  | remove _ _ => Bool
  | fetch _ _ => Option FeatureVector
  | search _ _ _ => List Hit
  | delete _ => Unit

/-- An operation with a result of type `α`. -/
inductive Program (α : Type) : Type where
  /-- Nothing more to do. -/
  | done (result : Except StoreError α)
  /-- Calls the backend. -/
  | call (c : Call) (next : Except StoreError c.Answer → Program α)
  /-- Asks the embedder for the vector of a text. -/
  | embed (text : String) (next : Except StoreError FeatureVector → Program α)
  /-- Draws an id that was not drawn before. -/
  | fresh (next : String → Program α)
  /-- Reports an event. -/
  | log (event : Event) (next : Program α)

namespace Program

variable {α β σ : Type}

/-- Goes on with the result of a program, unless it failed. -/
def bind (p : Program α) (f : α → Program β) : Program β :=
  match p with
  | done (.ok a) => f a
  | done (.error e) => done (.error e)
  | call c next => call c fun answer => bind (next answer) f
  | embed text next => embed text fun answer => bind (next answer) f
  | fresh next => fresh fun id => bind (next id) f
  | log event next => log event (bind next f)

instance : Monad Program where
  pure a := done (.ok a)
  bind := bind

/-- The program that fails. -/
def fail (e : StoreError) : Program α := done (.error e)

/-- The program with a known outcome. -/
def ofExcept (r : Except StoreError α) : Program α := done r

/-- Calls the backend; its error is the program's. -/
def perform (c : Call) : Program c.Answer := call c done

/-- Asks the embedder for the vector of a text; its error is the program's. -/
def vectorOf (text : String) : Program FeatureVector := embed text done

/-- Draws a new id. -/
def freshId : Program String := fresh fun id => done (.ok id)

/-- Reports an event. -/
def report (event : Event) : Program Unit := log event (done (.ok ()))

/-- Reports an event if a condition holds. -/
def reportIf (condition : Bool) (event : Event) : Program Unit :=
  if condition then report event else pure ()

/-! ## Laws -/

@[simp] theorem fail_bind (e : StoreError) (f : α → Program β) :
    (fail e : Program α) >>= f = fail e := rfl

@[simp] theorem call_bind (c : Call) (next : Except StoreError c.Answer → Program α)
    (f : α → Program β) : call c next >>= f = call c fun answer => next answer >>= f := rfl

@[simp] theorem embed_bind (text : String)
    (next : Except StoreError FeatureVector → Program α) (f : α → Program β) :
    embed text next >>= f = embed text fun answer => next answer >>= f := rfl

@[simp] theorem fresh_bind (next : String → Program α) (f : α → Program β) :
    fresh next >>= f = fresh fun id => next id >>= f := rfl

@[simp] theorem log_bind (event : Event) (next : Program α) (f : α → Program β) :
    log event next >>= f = log event (next >>= f) := rfl

theorem bind_pure (p : Program α) : p >>= pure = p := by
  induction p with
  | done result => cases result <;> rfl
  | call c next ih => exact congrArg (call c) (funext ih)
  | embed text next ih => exact congrArg (embed text) (funext ih)
  | fresh next ih => exact congrArg fresh (funext ih)
  | log event next ih => exact congrArg (log event) ih

theorem bind_assoc {γ : Type} (p : Program α) (f : α → Program β) (g : β → Program γ) :
    p >>= f >>= g = p >>= fun a => f a >>= g := by
  induction p with
  | done result => cases result <;> rfl
  | call c next ih => exact congrArg (call c) (funext ih)
  | embed text next ih => exact congrArg (embed text) (funext ih)
  | fresh next ih => exact congrArg fresh (funext ih)
  | log event next ih => exact congrArg (log event) ih

instance : LawfulMonad Program :=
  LawfulMonad.mk' Program bind_pure (fun _ _ => rfl) bind_assoc

end Program

end SimilarityStore.Store
