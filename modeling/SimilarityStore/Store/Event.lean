import SimilarityStore.Filter.Compile
import SimilarityStore.Store.Error

/-
  Events: what operations report while they run, by cause, with their level, wording and fields.
-/

namespace SimilarityStore.Store

open SimilarityStore.Numeric SimilarityStore.Text

/-- How important an event is. -/
inductive Level where
  | warning
  | debug
deriving DecidableEq, Repr

/-- Something that an operation reports. -/
inductive Event where
  /-- A filter has no text. -/
  | filterObstacle (obstacle : Filter.Obstacle)
  /-- A search goes on without its filter. -/
  | filterDropped (key : String)
  /-- An element of a batch has no vector. -/
  | vectorMissing (index : Nat)
  /-- An element of a batch has a vector that cannot be stored. -/
  | vectorInvalid (index : Nat) (id : String) (fault : InputFault)
  /-- The backend did not add an entry. -/
  | entryDeclined (key id : String) (dimension : Nat) (hasMetadata : Bool)
  /-- A batch of additions is complete. -/
  | batchAdded (key : String) (succeeded attempted : Nat)
  /-- A search is complete. -/
  | searched (key : String) (returned matched : Nat)
  /-- The backend did not remove an id. -/
  | idNotRemoved (key id : String)
  /-- A batch of removals is complete. -/
  | batchRemoved (key : String) (succeeded attempted : Nat)
  /-- A whole vector set is deleted. -/
  | setDeleted (key : String)
  /-- A text is stored. -/
  | textIndexed (id : String)
  /-- A configured timeout is no positive number. -/
  | timeoutIgnored (setting raw : String)
  /-- A similarity search on a server is answered. -/
  | serverSearched (key : String) (hits : Nat)
deriving DecidableEq

namespace Event

/-- The level of an event. -/
def level : Event → Level
  | filterObstacle _ | filterDropped _ | vectorMissing _ | vectorInvalid _ _ _
  | entryDeclined _ _ _ _ | idNotRemoved _ _ | timeoutIgnored _ _ => .warning
  | batchAdded _ _ _ | searched _ _ _ | batchRemoved _ _ _ | setDeleted _ | textIndexed _
  | serverSearched _ _ => .debug

/-- The wording of an event. -/
def message : Event → String
  | filterObstacle (.unsupported _) => "Filter type not supported"
  | filterObstacle (.notFinite _) => "Non-finite number in filter"
  | filterDropped _ => "Filter could not be compiled; searching without it"
  | vectorMissing _ => "Skipping element since its vector is missing"
  | vectorInvalid _ _ _ => "Skipping element since its vector is invalid"
  | entryDeclined _ _ _ _ => "Entry not added to the vector set"
  | batchAdded _ _ _ => "Batch add completed"
  | searched _ _ _ => "Search completed"
  | idNotRemoved _ _ => "Id not removed from the vector set"
  | batchRemoved _ _ _ => "Batch remove completed"
  | setDeleted _ => "Vector set deleted"
  | textIndexed _ => "Text indexed"
  | timeoutIgnored _ _ => "invalid connect timeout env value; using default"
  | serverSearched _ _ => "VSIM completed"

/-- The fields of an event, by name. -/
def fields : Event → List (String × String)
  | filterObstacle (.unsupported leaf) => [("kind", leaf.kind.tag), ("filter", leaf.describe)]
  | filterObstacle (.notFinite x) => [("value", NumberStyle.plain.spell x)]
  | filterDropped key => [("key", key)]
  | vectorMissing index => [("index", decimalText index)]
  | vectorInvalid index id fault =>
    [("index", decimalText index), ("id", id),
      ("error", ((StoreError.invalidInput fault.message).message?).getD "")]
  | entryDeclined key id dimension hasMetadata =>
    [("key", key), ("id", id), ("dimensions", decimalText dimension),
      ("has_metadata", describeBool hasMetadata)]
  | batchAdded key succeeded attempted | batchRemoved key succeeded attempted =>
    [("key", key), ("succeeded", decimalText succeeded), ("attempted", decimalText attempted)]
  | searched key returned matched =>
    [("key", key), ("returned", decimalText returned), ("matched", decimalText matched)]
  | idNotRemoved key id => [("key", key), ("id", id)]
  | setDeleted key => [("key", key)]
  | textIndexed id => [("id", id)]
  | timeoutIgnored setting raw => [("env_var", setting), ("value", raw)]
  | serverSearched key hits => [("key", key), ("hits", decimalText hits)]

end Event

end SimilarityStore.Store
