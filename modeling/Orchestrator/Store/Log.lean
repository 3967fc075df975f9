/-
# Events and transitions

The records of `internal/store/store.go` that are only ever appended and listed: the events and the
transitions of the control plane.  Their keys start with the time, so the store lists them in the
order of the texts of their times.  Nothing else in the store has a key with one of their prefixes.

Where a function reads the clock, the reading is an argument.
-/
import Orchestrator.Store.Keys

namespace Orchestrator

open Lib

/-- `EventLevel`. -/
inductive EventLevel
  | info
  | warn
  | error
  | other (s : String)
deriving DecidableEq, Repr

/-- `Event`. -/
structure EventRecord where
  id : String := ""
  timestamp : Time := Time.zero
  level : EventLevel
  type : String
  reason : String
  message : String
  deploymentID : String := ""
  workloadID : String := ""
  nodeID : String := ""
deriving DecidableEq, Repr

structure ControlPlaneTransition where
  id : String := ""
  nodeID : String
  term : Int64
  action : String
  description : String
  createdAt : Time := Time.zero
deriving DecidableEq, Repr

def keyEvent (ts : Time) (eventID : String) : String :=
  "event:" ++ formatRFC3339Nano ts ++ ":" ++ eventID

def keyControlPlaneTransition (ts : Time) (id : String) : String :=
  "transition:" ++ formatRFC3339Nano ts ++ ":" ++ id

/-- The events in the store. -/
abbrev EventLog := Table EventRecord fun e => keyEvent e.timestamp e.id

/-- The transitions in the store. -/
abbrev TransitionLog :=
  Table ControlPlaneTransition fun t => keyControlPlaneTransition t.createdAt t.id

/-- The event as `AppendEvent` stores it. -/
def EventRecord.recorded (e : EventRecord) (nano now : Time) : EventRecord :=
  { e with
    id := if e.id = "" then "evt-" ++ toString nano else e.id
    timestamp := if e.timestamp.isZero then now else e.timestamp }

/-- `AppendEvent`.  The clock is read for the id and once more for the timestamp. -/
def appendEvent (nano now : Time) (e : EventRecord) (log : EventLog) : EventLog :=
  log.put (e.recorded nano now)

/-- The transition as `AppendControlPlaneTransition` stores it. -/
def ControlPlaneTransition.recorded (t : ControlPlaneTransition) (now : Time) :
    ControlPlaneTransition :=
  let createdAt := if t.createdAt.isZero then now else t.createdAt
  { t with
    -- `UnixNano` is a 64-bit number, whatever the year
    id := if blank t.id then "tr-" ++ toString (wrap64 createdAt) else t.id
    createdAt := createdAt }

/-- `AppendControlPlaneTransition`. -/
def appendControlPlaneTransition (now : Time) (t : ControlPlaneTransition) (log : TransitionLog) :
    TransitionLog :=
  log.put (t.recorded now)

/-- The number of records that a limit stands for. -/
def effectiveLimit (limit : ℤ) : ℕ := (if limit ≤ 0 then 100 else limit).toNat

/-- The last records of a listing, 100 when `limit ≤ 0`. -/
def lastOf {α : Type} (limit : ℤ) (items : List α) : List α :=
  items.drop (items.length - effectiveLimit limit)

def listEvents (limit : ℤ) (log : EventLog) : List EventRecord := lastOf limit log.rows

def listControlPlaneTransitions (limit : ℤ) (log : TransitionLog) : List ControlPlaneTransition :=
  lastOf limit log.rows

end Orchestrator
