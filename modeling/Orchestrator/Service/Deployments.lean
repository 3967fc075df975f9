/-
# Deployments

The API calls on deployments: creation with its admission, namespace, volume and quota
checks, update, rollback, deletion, and the two calls of the worker protocol, polling and
status reports.
-/
import Orchestrator.Service.Reconcile

namespace Orchestrator

open Lib

/-! ### Checks of `CreateDeployment` -/

/-- `runAdmissionCheck`: the refusal of the admission plugin. -/
def runAdmissionCheck : M Unit := do
  match ← ask .admission with
  | some reason => Prog.fail (.message reason)
  | none => pure ()

def ensureNamespaceExists (nameSpace : String) : M Unit := do
  let trimmed := trimSpace nameSpace
  let name := if trimmed = "" then "default" else trimmed
  match ← (StateStore.getNamespace name).attempt with
  | .ok _ => pure ()
  | .error _ =>
    let createdAt ← timeNow
    let updatedAt ← timeNow
    match ← (StateStore.createNamespace
        { name := name, tenant := "default", createdAt := createdAt, updatedAt := updatedAt }).attempt with
    | .ok _ => pure ()
    | .error e =>
      -- Another caller may have created it in between.
      match ← (StateStore.getNamespace name).attempt with
      | .ok _ => pure ()
      | .error _ => Prog.fail e

/-- The loop over the volume claims of a specification. -/
def checkVolumeClaims (nameSpace : String) (claims : List String) : M Unit :=
  Prog.forEach claims fun claim => do
    match ← (StateStore.getPersistentVolumeClaim nameSpace claim).attempt with
    | .error e => Prog.fail (.wrap ("volume claim " ++ claim ++ " lookup failed") e)
    | .ok pvc =>
      if pvc.phase ≠ .bound then
        Prog.fail (.message ("volume claim " ++ claim ++ " is not bound"))
      else pure ()

/-- What the deployments of a namespace request: their number, CPU and memory, as the
64-bit sums the code computes. -/
def namespaceUsage (nameSpace : String) (deps : List Deployment) : ℤ × Int64 × Int64 :=
  let inNs := deps.filter fun d => d.spec.nameSpace = nameSpace
  (inNs.length,
    inNs.foldl (fun acc d => acc + d.spec.replicas * d.spec.resources.milliCPU) 0,
    inNs.foldl (fun acc d => acc + d.spec.replicas * d.spec.resources.memoryMB) 0)

/-- The checks of `enforceNamespaceQuota` against a quota. -/
def checkQuota (quota : NamespaceQuota) (spec : DeploymentSpec) (deps : List Deployment) :
    M Unit :=
  let (count, usedCPU, usedMem) := namespaceUsage spec.nameSpace deps
  let newCPU := usedCPU + spec.replicas * spec.resources.milliCPU
  let newMem := usedMem + spec.replicas * spec.resources.memoryMB
  if quota.maxDeployments > 0 ∧ count + 1 > quota.maxDeployments then
    Prog.fail (.message
      ("namespace quota exceeded: max deployments " ++ toString quota.maxDeployments))
  else if quota.maxMilliCPU > 0 ∧ newCPU > quota.maxMilliCPU then
    Prog.fail (.message
      ("namespace quota exceeded: max milliCPU " ++ toString quota.maxMilliCPU.toInt))
  else if quota.maxMemoryMB > 0 ∧ newMem > quota.maxMemoryMB then
    Prog.fail (.message
      ("namespace quota exceeded: max memoryMB " ++ toString quota.maxMemoryMB.toInt))
  else pure ()

def enforceNamespaceQuota (spec : DeploymentSpec) : M Unit := do
  match ← (StateStore.getNamespaceQuota spec.nameSpace).attempt with
  | .error .notFound => pure ()
  | .error e => Prog.fail e
  | .ok quota =>
    if quota.maxDeployments = 0 ∧ quota.maxMilliCPU = 0 ∧ quota.maxMemoryMB = 0 then pure ()
    else do
      let deps ← StateStore.listDeployments
      checkQuota quota spec deps

/-! ### `CreateDeployment` -/

/-- The defaults that `CreateDeployment` fills in before its checks. -/
def DeploymentSpec.withDefaults (spec : DeploymentSpec) : DeploymentSpec :=
  { spec with
    replicas := if spec.replicas ≤ 0 then 1 else spec.replicas
    resources :=
      { milliCPU := if spec.resources.milliCPU = 0 then 250 else spec.resources.milliCPU
        memoryMB := if spec.resources.memoryMB = 0 then 256 else spec.resources.memoryMB }
    nameSpace := if blank spec.nameSpace then "default" else spec.nameSpace }

/-- The specification that is stored: labels and tolerations made, rollout normalized. -/
def DeploymentSpec.admitted (spec : DeploymentSpec) : DeploymentSpec :=
  { spec with
    labels := some (spec.labels.getD Table.empty)
    tolerations := some (spec.tolerations.getD [])
    rollout := normalizeRolloutSpec spec.rollout }

/-- The record of a new deployment. -/
def newDeployment (id : String) (spec : DeploymentSpec) (now : Time) : Deployment :=
  { id := id
    spec := spec
    generation := 1
    observedGeneration := 1
    currentRevision := 1
    revisionHistory := [{ revision := 1, spec := spec, createdAt := now }]
    rolloutStatus := { phase := .stable, lastUpdatedAt := now }
    owner := "orchestrator/controller-manager"
    finalizers := ["workloads.cleanup"]
    status := .pending
    conditions :=
      [{ type := .progressing, status := true, reason := "DeploymentAccepted",
         message := "Deployment accepted and awaiting reconciliation", lastTransitionTime := now }]
    createdAt := now
    updatedAt := now }

/-- The record that `CreateDeployment` writes back and returns. -/
def createdStatus (dep : Deployment) : M Deployment := do
  let dep := { dep with status := .running }
  let t1 ← timeNow
  let dep := dep.condition .available true "ReplicasScheduled"
    "Deployment has scheduled replicas" t1
  let t2 ← timeNow
  let dep := dep.condition .progressing false "ReconciliationComplete"
    "Initial reconciliation completed" t2
  let t3 ← timeNow
  pure { dep with updatedAt := t3 }

/-- The checks that a specification passes before a deployment is made. -/
def admitSpec (spec : DeploymentSpec) : M Unit := do
  runAdmissionCheck
  ensureNamespaceExists spec.nameSpace
  checkVolumeClaims spec.nameSpace (spec.volumeClaims.getD [])
  enforceNamespaceQuota spec

def createDeployment (o : Config) (spec : DeploymentSpec) : M Deployment := do
  if blank spec.name then Prog.fail (.message "name is required")
  else if blank spec.image then Prog.fail (.message "image is required")
  else do
    let spec := spec.withDefaults
    admitSpec spec
    let spec := spec.admitted
    let now ← timeNow
    let r ← randIntn
    let dep := newDeployment (deploymentID now r) spec now
    StateStore.createDeployment dep
    reconcileDeployment o dep.id
    -- The record made above is written back as it was before the reconcile pass.
    let dep ← createdStatus dep
    (StateStore.updateDeployment dep).ignore
    pure dep

/-! ### `DeleteDeployment`, `UpdateDeployment`, `RollbackDeployment` -/

def deleteDeployment (deploymentID : String) : M Unit := withLock do
  let dep ← StateStore.getDeployment deploymentID
  let now ← timeNow
  let dep := { dep with deletionTimestamp := some now, status := .pending }
  StateStore.updateDeployment
    (dep.condition .progressing true "DeletionInProgress" "Deployment marked for deletion" now)

/-- The specification of an update, with the fields it leaves open taken from the old one. -/
def DeploymentSpec.inherit (next old : DeploymentSpec) : DeploymentSpec :=
  { next with
    rollout := normalizeRolloutSpec next.rollout
    replicas := if next.replicas ≤ 0 then old.replicas else next.replicas
    resources :=
      { milliCPU := if next.resources.milliCPU = 0 then old.resources.milliCPU
                    else next.resources.milliCPU
        memoryMB := if next.resources.memoryMB = 0 then old.resources.memoryMB
                    else next.resources.memoryMB }
    labels := if next.labels = none then old.labels else next.labels
    tolerations := if next.tolerations = none then old.tolerations else next.tolerations }

/-- A new revision is appended to the history. -/
def Deployment.appendRevision (dep : Deployment) (now : Time) : Deployment :=
  { dep with
    currentRevision := dep.currentRevision + 1
    revisionHistory := dep.revisionHistory ++
      [{ revision := dep.currentRevision + 1, spec := dep.spec, createdAt := now }] }

def appendRevisionNow (dep : Deployment) : M Deployment := do
  let now ← timeNow
  pure (dep.appendRevision now)

def updateDeployment (deploymentID : String) (nextSpec : DeploymentSpec) : M Deployment :=
  withLock do
    let dep ← StateStore.getDeployment deploymentID
    let nextSpec := nextSpec.inherit dep.spec
    let specChanged := decide (dep.spec ≠ nextSpec)
    let t1 ← timeNow
    let t2 ← timeNow
    let dep := { dep with
      spec := nextSpec
      generation := dep.generation + 1
      status := .pending
      rolloutStatus := { dep.rolloutStatus with
        phase := .progressing, message := "Deployment spec updated", startedAt := t1,
        lastUpdatedAt := t2 } }
    let t3 ← timeNow
    let dep := dep.condition .progressing true "RolloutStarted" "Deployment rollout started" t3
    let dep ← (if specChanged then appendRevisionNow dep else pure dep)
    let t5 ← timeNow
    let dep := { dep with updatedAt := t5 }
    StateStore.updateDeployment dep
    pure dep

def rollbackDeployment (deploymentID : String) (targetRevision : ℤ) : M Deployment :=
  withLock do
    let dep ← StateStore.getDeployment deploymentID
    if dep.revisionHistory = [] then Prog.fail (.message "no revision history available")
    else do
      let targetRevision :=
        if targetRevision ≤ 0 then dep.currentRevision - 1 else targetRevision
      match dep.revision? targetRevision with
      | none =>
        Prog.fail (.message ("target revision " ++ toString targetRevision ++ " not found"))
      | some target =>
        let t1 ← timeNow
        let dep := dep.rollbackTo target t1
        let t2 ← timeNow
        let t3 ← timeNow
        let dep := { dep with rolloutStatus := { dep.rolloutStatus with
          phase := .progressing,
          message := "Rollback to revision " ++ toString targetRevision ++ " started",
          startedAt := t2, lastUpdatedAt := t3 } }
        let t4 ← timeNow
        let dep := dep.condition .progressing true "RollbackStarted"
          ("Rollback started from revision " ++ toString targetRevision) t4
        let t5 ← timeNow
        let dep := { dep with updatedAt := t5 }
        StateStore.updateDeployment dep
        pure dep

/-! ### The worker protocol -/

def pollAssignments (nodeID : String) (max : ℤ) : M (List Assignment) :=
  StateStore.popAssignments nodeID (if max ≤ 0 then 10 else max).toNat

/-- A workload that its node is to have: pending, running, or on its way out. -/
def Workload.desiredOn (nodeID : String) (w : Workload) : Bool :=
  w.nodeID = nodeID && (w.status = .pending || w.status = .running || w.status = .terminating)

def listNodeWorkloads (nodeID : String) : M (List Workload) := do
  let all ← StateStore.listWorkloads
  pure (all.filter (Workload.desiredOn nodeID))

/-- The status that a termination report writes when no more than the wanted replicas are
left. -/
def settledStatus (dep : Deployment) (workloads : List Workload) : M Deployment := do
  let ready := runningCount workloads
  let active := runningOrPendingCount workloads
  let t1 ← timeNow
  let dep := { dep with status := .running, rolloutStatus := { dep.rolloutStatus with
    phase := .stable, message := "rollout complete", readyReplicas := ready,
    updatedReplicas := active, unavailableReplicas := max 0 (dep.spec.replicas.toInt - ready),
    lastUpdatedAt := t1 } }
  let t2 ← timeNow
  let dep ← markStable (dep.condition .available true "DesiredReplicasPlaced"
    "Desired replica count has been placed" t2)
  let t3 ← timeNow
  pure { dep with observedGeneration := dep.generation, updatedAt := t3 }

/-- The deployment part of a termination report. -/
def settleDeployment (deploymentID : String) : M Unit := do
  match ← (StateStore.getDeployment deploymentID).attempt with
  | .error _ => pure ()
  | .ok dep =>
    let workloads ← StateStore.listWorkloadsByDeployment dep.id
    if runningOrPendingCount workloads ≤ dep.spec.replicas.toInt then do
      let dep ← settledStatus dep workloads
      (StateStore.updateDeployment dep).ignore
    else pure ()

/-- The reservation of a workload is given back on its node, if the node is stored. -/
def releaseReservation (w : Workload) : M Unit := do
  match ← (StateStore.getNode w.nodeID).attempt with
  | .ok node => (StateStore.upsertNode { node with used := node.used.release w.resources }).ignore
  | .error _ => pure ()

/-- The branch of `ReportWorkloadStatus` for `Terminated`. -/
def reportTerminated (w : Workload) : M Unit := do
  releaseReservation w
  StateStore.deleteWorkload w.id
  settleDeployment w.deploymentID

/-- A workload as a status report leaves it. -/
def Workload.reported (w : Workload) (status : WorkloadStatus) (containerID : String) : Workload :=
  { w with
    status := status
    containerID := containerID
    restartCount := if status = .failed then w.restartCount + 1 else w.restartCount }

def reportWorkloadStatus (workloadID : String) (status : WorkloadStatus) (containerID : String) :
    M Unit := do
  match ← (StateStore.getWorkload workloadID).attempt with
  | .error .notFound => pure ()
  | .error e => Prog.fail e
  | .ok w =>
    if status = .terminated then reportTerminated w
    else StateStore.upsertWorkload (w.reported status containerID)

end Orchestrator
