/-
# Placing and terminating workloads

`createWorkloadForDeployment` with what it calls (`SelectNode`, `tryPreemptForPriority`,
`resolveSecretFilesForDeployment`), and the ways in which the control plane marks a
workload as terminating and asks its node to delete it.
-/
import Orchestrator.Service.Rollout

namespace Orchestrator

open Lib

/-! ### Termination -/

/-- The delete assignment for a workload. -/
def deleteAssignment (w : Workload) : Assignment :=
  { action := .delete, nodeID := w.nodeID, workloadID := w.id, containerID := w.containerID,
    resources := w.resources }

/-- Mark a workload as terminating and enqueue its deletion: the body of
`enqueueDeleteForWorkload`, which `reconcileDeletion`, `remediateUnhealthyNode` and
`rebalanceWorkloads` repeat. -/
def terminateWorkload (w : Workload) : M Unit := do
  StateStore.upsertWorkload { w with status := .terminating }
  StateStore.enqueueAssignment (deleteAssignment w)

def enqueueDeleteForWorkload (victim : Workload) : M Unit := terminateWorkload victim

/-! ### Secrets -/

/-- The files of one mounted secret. -/
def secretFilesOf (decrypt : StrMap → StrMap) (mountPath : String) (secret : Secret) :
    List SecretFile :=
  let base := trimRightSlash (trimSpace mountPath)
  let base := if base = "" then "/etc/secrets" else base
  (decrypt secret.data).rows.map fun (k, v) => { path := base ++ "/" ++ k, content := v }

/-- The loop of `resolveSecretFilesForDeployment`. -/
def collectSecretFiles (o : Config) (nameSpace : String) :
    List SecretMountSpec → List SecretFile → M (List SecretFile)
  | [], files => pure files
  | sm :: rest, files =>
    if blank sm.secretName then collectSecretFiles o nameSpace rest files
    else do
      let secret ← StateStore.getSecret nameSpace sm.secretName
      collectSecretFiles o nameSpace rest
        (files ++ secretFilesOf o.decryptSecretData sm.mountPath secret)

def resolveSecretFilesForDeployment (o : Config) (dep : Deployment) : M (List SecretFile) := do
  let files ← collectSecretFiles o dep.spec.nameSpace (dep.spec.secretMounts.getD []) []
  pure (sortStable (fun a b => decide (a.path < b.path)) files)

/-! ### Preemption -/

/-- The comparison of `tryPreemptForPriority`: lowest priority first, then the youngest. -/
def preemptBefore (a b : Workload) : Bool :=
  if a.priority ≠ b.priority then a.priority < b.priority else b.createdAt < a.createdAt

/-- The node of a victim, if it is ready and has room for `req` without the victim. -/
def preemptionNode (nodes : List Node) (req : Resource) (victim : Workload) : Option Node :=
  (nodes.find? fun n => n.id = victim.nodeID).filter fun node =>
    node.status = .ready &&
    req.milliCPU ≤ node.allocatable.milliCPU - node.used.milliCPU + victim.resources.milliCPU &&
    req.memoryMB ≤ node.allocatable.memoryMB - node.used.memoryMB + victim.resources.memoryMB

/-- The first candidate whose removal makes room, with its node. -/
def preemptionVictim (dep : Deployment) (req : Resource) (workloads : List Workload)
    (nodes : List Node) : Option (Workload × Node) :=
  let candidates := workloads.filter fun w =>
    w.priority < dep.spec.priority && w.deploymentID ≠ dep.id
  (sortStable preemptBefore candidates).findSome? fun victim =>
    (preemptionNode nodes req victim).map fun node => (victim, node)

def tryPreemptForPriority (dep : Deployment) (req : Resource) : M Bool := do
  let workloads ← StateStore.listWorkloads
  let nodes ← StateStore.listNodes
  match preemptionVictim dep req workloads nodes with
  | some (victim, node) =>
    StateStore.upsertNode { node with used := node.used.release victim.resources }
    StateStore.deleteWorkload victim.id
    pure true
  | none => pure false

/-! ### Placement -/

/-- `o.scheduler.SelectNode` on the stored nodes, for a replica of `dep`. -/
def selectNode (o : Config) (dep : Deployment) : M (Option Node) := do
  let nodes ← StateStore.listNodes
  let ext ← ask .external
  pure (o.scheduler.selectNode o.fl ext nodes dep.spec.resources
    (dep.spec.labels.getD Table.empty) (dep.spec.tolerations.getD []))

/-- The first part of `createWorkloadForDeployment`: the node for a new replica, after a
preemption if need be. -/
def chooseNode (o : Config) (dep : Deployment) : M Node := do
  match ← selectNode o dep with
  | some node => pure node
  | none =>
    let preempted ←
      (if dep.spec.priority > 0 then tryPreemptForPriority dep dep.spec.resources else pure false)
    if preempted then
      match ← selectNode o dep with
      | some node => pure node
      | none => Prog.fail .noSchedulableNode
    else Prog.fail .noSchedulableNode

/-- The record of a new replica. -/
def newWorkload (dep : Deployment) (node : Node) (id : String) (createdAt updatedAt : Time) :
    Workload :=
  { id := id, deploymentID := dep.id, priority := dep.spec.priority, nodeID := node.id,
    image := dep.spec.image, resources := dep.spec.resources, status := .pending,
    version := dep.currentRevision, createdAt := createdAt, updatedAt := updatedAt }

/-- The create assignment for a new replica. -/
def createAssignment (dep : Deployment) (w : Workload) (secretFiles : List SecretFile) :
    Assignment :=
  { action := .create, nodeID := w.nodeID, workloadID := w.id, image := w.image,
    imagePullSecret := dep.spec.imagePullSecret, secretFiles := secretFiles,
    volumeMounts := (dep.spec.volumeClaims.getD []).map fun claim =>
      { claimName := claim, mountPath := "/mnt/pv/" ++ claim, readOnly := false }
    resources := w.resources }

def createWorkloadForDeployment (o : Config) (dep : Deployment) : M Unit := do
  let node ← chooseNode o dep
  let nano ← timeNow
  let r ← randIntn
  let createdAt ← timeNow
  let updatedAt ← timeNow
  let workload := newWorkload dep node (workloadID nano r) createdAt updatedAt
  StateStore.upsertWorkload workload
  StateStore.upsertNode { node with used := node.used.reserve dep.spec.resources }
  -- A missing secret ends the placement here: the reservation stays, nothing is enqueued.
  let secretFiles ← resolveSecretFilesForDeployment o dep
  StateStore.enqueueAssignment (createAssignment dep workload secretFiles)

end Orchestrator
