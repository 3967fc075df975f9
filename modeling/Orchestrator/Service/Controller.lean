/-
# The controller pass

`ReconcileAll` and the stages it runs after the deployments: autoscaling, workload health
with automatic rollback, service endpoints, volume claims, jobs, node health.
-/
import Orchestrator.Service.Autoscaling
import Orchestrator.Service.Deployments
import Orchestrator.Service.Nodes

namespace Orchestrator

open Lib

/-! ### Service endpoints -/

def labelsMatchSelector (labels selector : StrMap) : Bool :=
  !selector.rows.isEmpty && selector.rows.all fun (k, v) => labels.lookup k = v

lemma labelsMatchSelector_iff {labels selector : StrMap} :
    labelsMatchSelector labels selector = true ↔
      selector.rows ≠ [] ∧ ∀ kv ∈ selector.rows, labels.lookup kv.1 = kv.2 := by
  simp [labelsMatchSelector, List.all_eq_true]

/-- The workloads, with their deployments, that stand behind a service. -/
def serviceBackends (svc : Service) (deployments : List Deployment) (workloads : List Workload) :
    List (Workload × Deployment) :=
  (workloads.filter Workload.active).filterMap fun w =>
    match deployments.find? fun d => d.id = w.deploymentID with
    | none => none
    | some dep =>
      if trimSpace dep.spec.nameSpace = trimSpace svc.spec.nameSpace ∧
          labelsMatchSelector (dep.spec.labels.getD Table.empty) svc.spec.selector then
        some (w, dep)
      else none

/-- Whether an endpoint is ready; a readiness probe reads the clock. -/
def endpointReady (w : Workload) (dep : Deployment) : M Bool := do
  if dep.spec.readinessProbe.enabled then
    let now ← timeNow
    pure (w.status = .running &&
      seconds dep.spec.readinessProbe.initialDelaySeconds ≤ Time.sub now w.createdAt)
  else pure (w.status = .running)

def reconcileServiceEndpoints (serviceID : String) : M Unit := do
  let svc ← StateStore.getService serviceID
  let deployments ← StateStore.listDeployments
  let workloads ← StateStore.listWorkloads
  let nodes ← StateStore.listNodes
  let now ← timeNow
  let backends := serviceBackends svc deployments workloads
  let targets := backends.flatMap fun (w, dep) => svc.spec.ports.map fun p => (w, dep, p)
  let endpoints ← Prog.mapEach targets fun (w, dep, p) => do
    let address := ((nodes.find? fun n => n.id = w.nodeID).map Node.address).getD ""
    let ready ← endpointReady w dep
    pure ({ id := endpointID svc.id w.id p.targetPort, serviceID := svc.id, workloadID := w.id,
            nodeID := w.nodeID, address := if blank address then w.nodeID else address,
            port := p.targetPort, protocol := p.protocol, ready := ready,
            updatedAt := now } : ServiceEndpoint)
  StateStore.replaceServiceEndpoints svc.id endpoints

def reconcileAllServiceEndpoints : M Unit := do
  let services ← StateStore.listServices
  Prog.forEach services fun svc => reconcileServiceEndpoints svc.id

/-! ### Workload health -/

/-- `maybeAutoRollbackForFailures`, on the deployment as it was listed. -/
def maybeAutoRollbackForFailures (dep : Deployment) : M Unit := do
  if dep.spec.rollout.autoRollbackOnFailure = false ∨ dep.currentRevision ≤ 1 then pure ()
  else do
    let threshold :=
      if dep.spec.rollout.maxFailedWorkloads ≤ 0 then 1 else dep.spec.rollout.maxFailedWorkloads
    let workloads ← StateStore.listWorkloadsByDeployment dep.id
    let failed : ℤ := workloads.countP fun w =>
      w.version = dep.currentRevision && w.status = .failed
    if failed < threshold then pure ()
    else (rollbackDeployment dep.id (dep.currentRevision - 1)).ignore

/-- The deployment whose liveness probe a workload fails, if there is one. -/
def livenessFailure (now : Time) (deployments : List Deployment) (w : Workload) :
    Option Deployment :=
  (deployments.find? fun d => d.id = w.deploymentID).filter fun dep =>
    dep.spec.livenessProbe.enabled && w.status = .running &&
    seconds dep.spec.livenessProbe.initialDelaySeconds ≤ Time.sub now w.createdAt &&
    blank w.containerID

def evaluateWorkloadHealth : M Unit := do
  let workloads ← StateStore.listWorkloads
  let deployments ← StateStore.listDeployments
  let now ← timeNow
  Prog.forEach workloads fun w => do
    match livenessFailure now deployments w with
    | none => pure ()
    | some dep =>
      StateStore.upsertWorkload { w with
        status := .failed, restartCount := w.restartCount + 1 }
      maybeAutoRollbackForFailures dep

/-! ### Volume claims -/

/-- Whether a volume can serve a claim. -/
def volumeMatches (pvc : PersistentVolumeClaim) (pv : PersistentVolume) : Bool :=
  pv.phase = .available && pvc.requestedCapacity ≤ pv.capacityMB &&
  (blank pvc.storageClass || blank pv.storageClass || pvc.storageClass = pv.storageClass) &&
  (blank pvc.accessMode || blank pv.accessMode || pvc.accessMode = pv.accessMode)

/-- The loop body of `reconcilePVCBindings`.  The listed volumes are not updated when one
of them is bound. -/
def bindClaim (pvs : List PersistentVolume) (pvc : PersistentVolumeClaim) : M Unit := do
  if pvc.phase = .bound ∧ blank pvc.volumeName = false then pure ()
  else
    match pvs.find? (volumeMatches pvc) with
    | none => pure ()
    | some pv => do
      StateStore.upsertPersistentVolume { pv with
        phase := .bound, claimNamespace := pvc.nameSpace, claimName := pvc.name }
      StateStore.upsertPersistentVolumeClaim { pvc with volumeName := pv.name, phase := .bound }


def reconcilePVCBindings : M Unit := do
  let pvs ← StateStore.listPersistentVolumes
  let first ← StateStore.listPersistentVolumeClaims "default"
  let namespaces ← StateStore.listNamespaces
  let rest ← Prog.mapEach namespaces fun ns => StateStore.listPersistentVolumeClaims ns.name
  let sorted := sortStable (fun a b => decide (a.capacityMB < b.capacityMB)) pvs
  Prog.forEach (first ++ rest.flatten) (bindClaim sorted)

/-! ### Jobs -/

/-- `UpsertJob`. -/
def upsertJob (job : Job) : M Job := do
  if blank job.spec.name then Prog.fail (.message "job name is required")
  else do
    let spec := { job.spec with
      nameSpace := if blank job.spec.nameSpace then "default" else job.spec.nameSpace
      completions := if job.spec.completions ≤ 0 then 1 else job.spec.completions
      backoffLimit := if job.spec.backoffLimit < 0 then 0 else job.spec.backoffLimit }
    let id ← (if blank job.id then jobID <$> timeNow else pure job.id)
    StateStore.upsertJob { job with
      id := id, spec := spec, status := if job.status = .unset then .pending else job.status }
    StateStore.getJob id

/-- The job that a cron job starts at time `now`. -/
def CronJob.instantiate (cj : CronJob) (now : Time) : Job :=
  { spec := { cj.template with
      nameSpace := cj.nameSpace
      name := cj.name ++ "-" ++ toString (now / 1000000000)
      scheduleReason := "cron" }
    status := .pending }

/-- The loop body for cron jobs. -/
def runCronJob (now : Time) (cj : CronJob) : M Unit := do
  if cj.suspend = false ∧ (cj.lastRunAt.isZero ∨
      seconds cj.scheduleEveryS ≤ Time.sub now cj.lastRunAt) then
    match ← (upsertJob (cj.instantiate now)).attempt with
    | .ok _ => (StateStore.upsertCronJob { cj with lastRunAt := now }).ignore
    | .error _ => pure ()
  else pure ()

/-- The specification of a job's deployment. -/
def Job.deploymentSpec (job : Job) : DeploymentSpec :=
  { job.spec.template with
    nameSpace := job.spec.nameSpace, name := "job-" ++ job.id, replicas := 1 }

/-- A pending job without a deployment gets one. -/
def startJob (o : Config) (job : Job) : M Unit := do
  if blank job.deployment then
    match ← (createDeployment o job.deploymentSpec).attempt with
    | .ok dep => (StateStore.upsertJob { job with deployment := dep.id, status := .running }).ignore
    | .error _ => pure ()
  else pure ()

/-- The job after one of its workloads has failed. -/
def Job.afterFailure (job : Job) (now : Time) : Job :=
  if job.failed + 1 > job.spec.backoffLimit then
    { job with failed := job.failed + 1, status := .failed, completedAt := now }
  else { job with failed := job.failed + 1, status := .pending, deployment := "" }

/-- A running job is settled by its first workload that is running or failed. -/
def watchJob (now : Time) (job : Job) : M Unit := do
  if blank job.deployment then pure ()
  else do
    let workloads ← StateStore.listWorkloadsByDeployment job.deployment
    match workloads.find? fun w => w.status = .running || w.status = .failed with
    | none => pure ()
    | some w =>
      let job' :=
        if w.status = .running then
          { job with succeeded := job.succeeded + 1, runCount := job.runCount + 1,
                     status := .succeeded, completedAt := now }
        else job.afterFailure now
      (StateStore.upsertJob job').ignore
      -- After a retry the deployment named here is already the empty one.
      (deleteDeployment job'.deployment).ignore

/-- The loop body for jobs. -/
def reconcileJob (o : Config) (now : Time) (job : Job) : M Unit :=
  match job.status with
  | .pending => startJob o job
  | .running => watchJob now job
  | .succeeded | .failed =>
    if job.spec.ttlSeconds > 0 ∧ job.completedAt.isZero = false ∧
        seconds job.spec.ttlSeconds ≤ Time.sub now job.completedAt then
      (StateStore.deleteJob job.id).ignore
    else pure ()
  | .unset => pure ()

def reconcileJobsAndCron (o : Config) : M Unit := do
  let firstCron ← StateStore.listCronJobs "default"
  let namespaces ← StateStore.listNamespaces
  let restCron ← Prog.mapEach namespaces fun ns => StateStore.listCronJobs ns.name
  let now ← timeNow
  Prog.forEach (firstCron ++ restCron.flatten) (runCronJob now)
  let firstJobs ← StateStore.listJobs "default"
  let restJobs ← Prog.mapEach namespaces fun ns => StateStore.listJobs ns.name
  Prog.forEach (firstJobs ++ restJobs.flatten) (reconcileJob o now)

/-! ### `ReconcileAll` -/

/-- The loop body of `ReconcileAll`, on the deployment as it was listed. -/
def reconcileListed (o : Config) (dep : Deployment) : M Unit :=
  if dep.deletionTimestamp.isSome then (reconcileDeletion dep.id).ignore
  else (reconcileDeployment o dep.id).ignore

def reconcileAll (o : Config) : M Unit := do
  let deps ← StateStore.listDeployments
  Prog.forEach deps (reconcileListed o)
  (reconcileAutoscaling o).ignore
  evaluateWorkloadHealth.ignore
  reconcileAllServiceEndpoints.ignore
  reconcilePVCBindings.ignore
  (reconcileJobsAndCron o).ignore
  updateNodeHealth o

end Orchestrator
