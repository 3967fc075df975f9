/-
# Leader election of the controllers

The controllers share one lease record.  A controller acquires the lease when there is none,
when the stored one has expired, or when it holds it already; a takeover raises the term.  A
controller that stops deletes the lease it holds.

The control-plane transition log, which is only written here, is left out.
-/
import Orchestrator.Store.State

namespace Orchestrator

open Lib

/-- The lease a controller asks for when it gives no duration: ten seconds. -/
def defaultLeaseDuration : ℤ := 10000000000

/-- The stored lease may be overwritten by a controller at a time. -/
def ControllerLease.grantable (lease : ControllerLease) (controllerID : String) (now : Time) :
    Prop :=
  blank lease.leaderID ∨ lease.expiresAt < now ∨ lease.leaderID = controllerID

instance (lease : ControllerLease) (controllerID : String) (now : Time) :
    Decidable (lease.grantable controllerID now) :=
  inferInstanceAs (Decidable (_ ∨ _ ∨ _))

/-- The lease that overwrites it. -/
def ControllerLease.next (lease : ControllerLease) (controllerID : String) (leaseDuration : ℤ)
    (now : Time) : ControllerLease :=
  { leaderID := controllerID
    expiresAt := now + leaseDuration
    term := if lease.leaderID ≠ controllerID then lease.term + 1 else lease.term
    updatedAt := now }

/-- The record that a lookup fills in: one that finds nothing leaves the zero record, whose
leader is blank. -/
def foundLease : Except Err ControllerLease → ControllerLease
  | .ok lease => lease
  | .error _ => {}

/-- Overwrite the stored lease if the controller may, at the time of the call. -/
def grantLease (lease : ControllerLease) (controllerID : String) (leaseDuration : ℤ)
    (now : Time) : M (Bool × ControllerLease) :=
  if lease.grantable controllerID now then do
    let lease := lease.next controllerID leaseDuration now
    StateStore.upsertControllerLease lease
    pure (true, lease)
  else pure (decide (lease.leaderID = controllerID), lease)

/-- The answer says whether the caller leads, and under which lease. -/
def tryAcquireControllerLeadership (controllerID : String) (leaseDuration : ℤ) :
    M (Bool × ControllerLease) := do
  if blank controllerID then Prog.fail (.message "controller id is required")
  else do
    let leaseDuration := if leaseDuration ≤ 0 then defaultLeaseDuration else leaseDuration
    let now ← timeNow
    let found ← StateStore.getControllerLease.attempt
    grantLease (foundLease found) controllerID leaseDuration now

def releaseControllerLeadership (controllerID : String) : M Unit := do
  match ← StateStore.getControllerLease.attempt with
  | .error _ => pure ()
  | .ok lease =>
    if lease.leaderID ≠ controllerID then pure ()
    else StateStore.deleteControllerLease

end Orchestrator
