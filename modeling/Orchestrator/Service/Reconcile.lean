/-
# Reconciling one deployment

`reconcileDeployment` and `reconcileDeletion`.  The first is cut where the source has its
stages: the progress deadline, the creation of new replicas (which ends the pass at the
first failure), the termination of old ones and of the excess, and the status that is
written back.
-/
import Orchestrator.Service.Placement

namespace Orchestrator

open Lib

/-! ### The progress deadline -/

/-- `rollbackDeploymentLocked`: the deployment rolled back, if the revision is found. -/
def rollbackDeploymentLocked (dep : Deployment) (targetRevision : ℤ) (message : String) :
    M Deployment := do
  match dep.revision? targetRevision with
  | none => pure dep
  | some target =>
    let now ← timeNow
    let dep := dep.rollbackTo target now
    let dep := { dep with rolloutStatus := { dep.rolloutStatus with
      phase := .rollback, message := message, startedAt := now, lastUpdatedAt := now } }
    pure (dep.condition .progressing true "RollbackStarted" message now)

/-- Whether a rollout in progress has passed its deadline. -/
def progressDeadlineExceeded (dep : Deployment) : M Bool := do
  if isRolloutInProgress dep.rolloutStatus.phase ∧ dep.spec.rollout.progressDeadlineSeconds > 0 ∧
      dep.rolloutStatus.startedAt.isZero = false then
    let now ← timeNow
    pure (decide
      (dep.rolloutStatus.startedAt + seconds dep.spec.rollout.progressDeadlineSeconds < now))
  else pure false

/-- The branch of `reconcileDeployment` for a rollout past its deadline. -/
def failRollout (dep : Deployment) : M Unit := do
  let message := "rollout progress deadline exceeded"
  let t1 ← timeNow
  let dep := { dep with status := .failed, rolloutStatus := { dep.rolloutStatus with
    phase := .failed, message := message, lastUpdatedAt := t1 } }
  let t2 ← timeNow
  let dep := dep.condition .progressing false "ProgressDeadlineExceeded" message t2
  let t3 ← timeNow
  let dep := dep.condition .degraded true "ProgressDeadlineExceeded" message t3
  let dep ← (
    if dep.spec.rollout.autoRollbackOnFailure ∧ dep.currentRevision > 1 then
      rollbackDeploymentLocked dep (dep.currentRevision - 1)
        "Automatic rollback after progress deadline exceeded"
    else pure dep)
  let t4 ← timeNow
  StateStore.updateDeployment { dep with updatedAt := t4 }

/-! ### Creating replicas -/

/-- The loop that creates replicas; the error of the first placement that fails ends it. -/
def createReplicas (o : Config) (dep : Deployment) : ℕ → M (Option Err)
  | 0 => pure none
  | n + 1 => do
    match ← (createWorkloadForDeployment o dep).attempt with
    | .ok _ => createReplicas o dep n
    | .error e => pure (some e)

/-- The status written when a placement fails; the pass ends there. -/
def placementFailed (dep : Deployment) (phase : RolloutPhase) (e : Err) : M Unit := do
  let dep := { dep with status := .pending }
  let t1 ← timeNow
  let dep := dep.condition .progressing true "NoSchedulableNode" e.text t1
  let t2 ← timeNow
  let dep := dep.condition .degraded true "SchedulingFailed" "Scheduler could not place workload" t2
  let t3 ← timeNow
  let dep := { dep with rolloutStatus := { dep.rolloutStatus with
    phase := phase, message := "waiting for schedulable nodes", lastUpdatedAt := t3 } }
  let t4 ← timeNow
  StateStore.updateDeployment { dep with updatedAt := t4 }

/-! ### Terminating replicas -/

/-- Terminate old replicas as far as the availability budget allows, then the excess over
the wanted number of replicas; the differences are exact, as in `rolloutPlan`. -/
def scaleDown (dep : Deployment) (plan : RolloutPlan) (oldCandidates : List Workload)
    (totalActive : ℤ) : M Unit := do
  let deleteBudget := totalActive - plan.minAvailable
  let toDelete := min (oldCandidates.length : ℤ) deleteBudget
  Prog.onlyIf (deleteBudget > 0)
    (Prog.forEach (pickScaleDownVictims oldCandidates toDelete) enqueueDeleteForWorkload)
  let workloads ← StateStore.listWorkloadsByDeployment dep.id
  let activeNow := activeWorkloads workloads
  let excess := (activeNow.length : ℤ) - dep.spec.replicas.toInt
  Prog.onlyIf (excess > 0)
    (Prog.forEach (pickScaleDownVictims activeNow excess) enqueueDeleteForWorkload)

/-! ### The status of a pass -/

/-- The conditions of a completed rollout, set one after the other. -/
def markStable (dep : Deployment) : M Deployment := do
  let t1 ← timeNow
  let dep := dep.condition .progressing false "ReconciliationStable"
    "Reconciliation reached stable state" t1
  let t2 ← timeNow
  pure (dep.condition .degraded false "Healthy" "Deployment is healthy" t2)

/-- The text of a rollout that is still in progress. -/
def progressMessage (updated ready unavailable remainingOld : ℤ) : String :=
  "rollout in progress: updated=" ++ toString updated ++ " ready=" ++ toString ready ++
    " unavailable=" ++ toString unavailable ++ " old=" ++ toString remainingOld

/-- The branch of the status for a rollout that is still in progress. -/
def progressStatus (dep : Deployment) (phase : RolloutPhase) (message : String)
    (availableNow : Bool) : M Deployment := do
  let dep := { dep with status := .pending, rolloutStatus := { dep.rolloutStatus with
    phase := phase, message := message } }
  let t1 ← timeNow
  let dep := dep.condition .progressing true "RolloutInProgress" message t1
  let t2 ← timeNow
  let dep := dep.condition .available availableNow "ReplicaReadiness" "Availability evaluated" t2
  if availableNow then
    markStable { dep with status := .running, rolloutStatus := { dep.rolloutStatus with
      phase := .stable, message := "rollout complete" } }
  else pure dep

/-- The branch of the status for a completed rollout. -/
def stableStatus (dep : Deployment) : M Deployment := do
  let dep := { dep with status := .running, rolloutStatus := { dep.rolloutStatus with
    phase := .stable, message := "rollout complete" } }
  let t1 ← timeNow
  markStable (dep.condition .available true "DesiredReplicasPlaced"
    "Desired replica count has been placed" t1)

/-- The end of `reconcileDeployment`: the status computed from the active workloads, with an exact
difference, as in `rolloutPlan`. -/
def rolloutStatus (dep : Deployment) (phase : RolloutPhase) (active : List Workload) :
    M Deployment := do
  let replicas := dep.spec.replicas.toInt
  let updatedReplicas : ℤ := (activeForRevision active dep.currentRevision).length
  let readyReplicas := runningCount active
  let unavailable := max 0 (replicas - readyReplicas)
  let remainingOld : ℤ := (oldRevisionWorkloads active dep.currentRevision).length
  let dep ← (
    if remainingOld = 0 ∧ updatedReplicas ≥ replicas ∧ unavailable = 0 then stableStatus dep
    else progressStatus dep phase
      (progressMessage updatedReplicas readyReplicas unavailable remainingOld)
      (decide (readyReplicas ≥ replicas ∧ remainingOld = 0)))
  let t3 ← timeNow
  let t4 ← timeNow
  pure { dep with
    observedGeneration := dep.generation
    rolloutStatus := { dep.rolloutStatus with
      updatedReplicas := updatedReplicas, readyReplicas := readyReplicas,
      unavailableReplicas := unavailable, lastUpdatedAt := t3 }
    updatedAt := t4 }

/-! ### `reconcileDeployment` -/

/-- The deployment as `reconcileDeployment` works on it. -/
def Deployment.prepared (dep : Deployment) : Deployment :=
  { dep with
    spec := dep.spec.normalized
    currentRevision := if dep.currentRevision ≤ 0 then 1 else dep.currentRevision }

/-- The part of `reconcileDeployment` after the creation of replicas. -/
def finishPass (dep : Deployment) (plan : RolloutPlan) : M Unit := do
  let workloads ← StateStore.listWorkloadsByDeployment dep.id
  let active := activeWorkloads workloads
  let oldCandidates := oldRevisionWorkloads active dep.currentRevision
  Prog.onlyIf (plan.phase ≠ .canary) (scaleDown dep plan oldCandidates active.length)
  let workloads ← StateStore.listWorkloadsByDeployment dep.id
  let dep ← rolloutStatus dep plan.phase (activeWorkloads workloads)
  StateStore.updateDeployment dep

/-- The part of `reconcileDeployment` after the deadline. -/
def reconcileReplicas (o : Config) (dep : Deployment) : M Unit := do
  let workloads ← StateStore.listWorkloadsByDeployment dep.id
  let plan := rolloutPlan dep workloads
  match ← createReplicas o dep plan.toCreate.toNat with
  | some e => placementFailed dep plan.phase e
  | none => finishPass dep plan

def reconcileDeployment (o : Config) (deploymentID : String) : M Unit := withLock do
  let dep ← StateStore.getDeployment deploymentID
  let dep := dep.prepared
  if ← progressDeadlineExceeded dep then failRollout dep
  else reconcileReplicas o dep

/-! ### `reconcileDeletion` -/

def reconcileDeletion (deploymentID : String) : M Unit := withLock do
  let dep ← StateStore.getDeployment deploymentID
  let workloads ← StateStore.listWorkloadsByDeployment deploymentID
  Prog.forEach workloads fun w => do
    if w.status = .terminating ∨ w.status = .terminated then pure ()
    else terminateWorkload w
  -- The second loop of the source counts the statuses as they were listed.
  if workloads.any fun w => w.status ≠ .terminated then pure ()
  else do
    let finalizers := removeFinalizer dep.finalizers "workloads.cleanup"
    if finalizers ≠ [] then
      StateStore.updateDeployment { dep with finalizers := finalizers }
    else StateStore.deleteDeployment dep.id

end Orchestrator
