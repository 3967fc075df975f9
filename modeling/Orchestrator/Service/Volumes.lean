/-
# Persistent volumes and claims

The calls of the API that store a volume or a claim.  Storing a claim runs a binding pass.
-/
import Orchestrator.Service.Controller

namespace Orchestrator

open Lib

def upsertPersistentVolume (pv : PersistentVolume) : M PersistentVolume := do
  if blank pv.name then Prog.fail (.message "persistent volume name is required")
  else if pv.capacityMB ≤ 0 then
    Prog.fail (.message "persistent volume capacityMb must be > 0")
  else do
    StateStore.upsertPersistentVolume { pv with
      phase := if pv.phase = .unset then .available else pv.phase }
    StateStore.getPersistentVolume pv.name

/-- The namespace that a claim is stored under. -/
def PersistentVolumeClaim.home (pvc : PersistentVolumeClaim) : String :=
  if blank pvc.nameSpace then "default" else pvc.nameSpace

/-- The first part of `UpsertPersistentVolumeClaim`: the checks, and the write. -/
def admitClaim (pvc : PersistentVolumeClaim) : M Unit := do
  if blank pvc.name then Prog.fail (.message "persistent volume claim name is required")
  else if pvc.requestedCapacity ≤ 0 then
    Prog.fail (.message "persistent volume claim requestedCapacityMb must be > 0")
  else do
    ensureNamespaceExists pvc.home
    StateStore.upsertPersistentVolumeClaim { pvc with
      nameSpace := pvc.home, phase := if pvc.phase = .unset then .pending else pvc.phase }

def upsertPersistentVolumeClaim (pvc : PersistentVolumeClaim) : M PersistentVolumeClaim := do
  admitClaim pvc
  reconcilePVCBindings
  StateStore.getPersistentVolumeClaim pvc.home pvc.name

end Orchestrator
