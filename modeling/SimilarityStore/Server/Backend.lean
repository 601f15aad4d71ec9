import SimilarityStore.Server.Command
import SimilarityStore.Server.Reply
import SimilarityStore.Store.Config
import SimilarityStore.Store.Run
import SimilarityStore.Store.VectorSet

/-
  The backend on a server: every call is one command, whose reply is read.  What carries commands
  and replies is a client of the server, and so is what reads truth values and numbers out of
  replies; only the hits of a search are decoded here.
-/

namespace SimilarityStore.Server

open SimilarityStore.Numeric SimilarityStore.Store

/-- A client's link to a server with states of type `σ`. -/
structure Link (σ : Type) where
  writer : NumberWriter
  /-- The reply to a command, or an error when none comes or a refusal is in it, and the state
  after it. -/
  exchange : Command → σ → Except StoreError Reply × σ
  /-- The truth value that a reply stands for. -/
  readFlag : Reply → Except StoreError Bool
  /-- The numbers that a reply stands for; some replies stand for none. -/
  readNumbers : Reply → Except StoreError (Option (List Float))

/-- What a reply to a call says. -/
def answerOf {σ : Type} (link : Link σ) (c : Call) (reply : Reply) : Except StoreError c.Answer :=
  match c with
  | .add _ _ => link.readFlag reply
  | .remove _ _ => link.readFlag reply
  | .fetch _ _ =>
    (link.readNumbers reply).map fun numbers => numbers.map fun xs => ⟨xs.map FloatingPoint.convert⟩
  | .search _ _ _ => .ok reply.hits
  | .delete _ => .ok ()

/-- The events that the answer to a call is reported with. -/
def eventsOf (c : Call) (answer : Except StoreError c.Answer) : List Event :=
  match c, answer with
  | .search key _ _, .ok hits => [.serverSearched key hits.length]
  | _, _ => []

/-- The server behind a link as a backend. -/
def backend {σ : Type} (link : Link σ) : Backend σ where
  answer c state :=
    let (reply, after) := link.exchange (command link.writer c) state
    let answer := reply.bind (answerOf link c)
    (answer, after, eventsOf c answer)

/-- Opens the vector set that a configuration names.  `dial` opens a link to a server and is not
tried for a configuration with a fault. -/
def connect {σ : Type} (dial : Config → Except StoreError σ) (config : Config) :
    Except StoreError (VectorSet × σ) := do
  config.validate
  let state ← dial config
  return (⟨config.key⟩, state)

end SimilarityStore.Server
