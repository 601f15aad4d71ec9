import SimilarityStore.Numeric.Literal
import SimilarityStore.Store.Event
import SimilarityStore.Text.Blank

/-
  Configurations: where the server of a store is, under which key, and how long to wait for it.
-/

namespace SimilarityStore.Store

open SimilarityStore.Numeric SimilarityStore.Text

/-- The configuration of a store. -/
structure Config where
  url : String := "redis://127.0.0.1:6379"
  key : String := "vset:vectors"
  /-- Seconds to wait for a connection. -/
  timeout : Nat := 5
deriving DecidableEq, Repr

namespace Config

/-- The variable that holds the server's URL. -/
def urlVariable : String := "VSET_REDIS_URL"

/-- The variable that holds the key of the set. -/
def keyVariable : String := "VSET_INDEX_KEY"

/-- The variable that holds the timeout. -/
def timeoutVariable : String := "VSET_CONNECT_TIMEOUT_SECS"

/-- The trimmed value of a variable; a blank one counts as unset. -/
def setting? (settings : String → Option String) (name : String) : Option String :=
  (settings name).bind fun raw => if isBlankText raw then none else some (trim raw)

/-- The timeout in a text: a positive 64-bit number. -/
def readTimeout? (raw : String) : Option Nat :=
  (readWord64? raw.toList).filter (0 < ·)

/-- The configuration in variables, with defaults for those that are unset.  A timeout that is no
positive number is reported and ignored. -/
def ofVariables (settings : String → Option String) : Config × List Event :=
  let defaults : Config := {}
  let url := (setting? settings urlVariable).getD defaults.url
  let key := (setting? settings keyVariable).getD defaults.key
  match setting? settings timeoutVariable with
  | none => (⟨url, key, defaults.timeout⟩, [])
  | some raw =>
    match readTimeout? raw with
    | some timeout => (⟨url, key, timeout⟩, [])
    | none => (⟨url, key, defaults.timeout⟩, [.timeoutIgnored timeoutVariable raw])

/-- The first fault of a configuration, if it has one. -/
def fault? (c : Config) : Option ConfigFault :=
  if isBlankText c.url then some .blankUrl
  else if isBlankText c.key then some .blankKey
  else if c.timeout = 0 then some .zeroTimeout
  else none

/-- Checks that a store can be opened with the configuration. -/
def validate (c : Config) : Except StoreError Unit :=
  match c.fault? with
  | some fault => .error (.config fault.message)
  | none => .ok ()

end Config

end SimilarityStore.Store
