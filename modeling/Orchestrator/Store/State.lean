/-
# The state store and its calls

The Badger store of `internal/store/store.go` as one table per kind of record, and the
atomic calls a control-plane function makes: the transactions of the store, readings of
the clock and of the random source, answers of the external plugins, and the acquisition
and release of the mutex `o.mu`.  Store calls do not fail, apart from a lookup that finds
nothing.

A function of the control plane is a program over these calls (`M`).  The methods of the
`StateStore` interface are such programs too; they keep the names of the source.
-/
import Orchestrator.Lib.Prog
import Orchestrator.Store.Keys

namespace Orchestrator

open Lib

/-! ### Tables -/

/-- The kinds of records. -/
inductive Tbl
  | node
  | deployment
  | workload
  | service
  | endpoint
  | nameSpace
  | quota
  | secret
  | volume
  | claim
  | job
  | cronJob
  | policy
  | metric
  | assignment
  | lease
  | networkPolicy
  | roleBinding
deriving DecidableEq, Repr

namespace Tbl

/-- The records of a kind. -/
abbrev Val : Tbl → Type
  | node => Node
  | deployment => Deployment
  | workload => Workload
  | service => Service
  | endpoint => ServiceEndpoint
  | nameSpace => Namespace
  | quota => NamespaceQuota
  | secret => Secret
  | volume => PersistentVolume
  | claim => PersistentVolumeClaim
  | job => Job
  | cronJob => CronJob
  | policy => AutoscalerPolicy
  | metric => DeploymentMetricSample
  | assignment => Assignment
  | lease => ControllerLease
  | networkPolicy => NetworkPolicy
  | roleBinding => RoleBinding

instance decidableEqVal : (t : Tbl) → DecidableEq t.Val
  | node => inferInstanceAs (DecidableEq Node)
  | deployment => inferInstanceAs (DecidableEq Deployment)
  | workload => inferInstanceAs (DecidableEq Workload)
  | service => inferInstanceAs (DecidableEq Service)
  | endpoint => inferInstanceAs (DecidableEq ServiceEndpoint)
  | nameSpace => inferInstanceAs (DecidableEq Namespace)
  | quota => inferInstanceAs (DecidableEq NamespaceQuota)
  | secret => inferInstanceAs (DecidableEq Secret)
  | volume => inferInstanceAs (DecidableEq PersistentVolume)
  | claim => inferInstanceAs (DecidableEq PersistentVolumeClaim)
  | job => inferInstanceAs (DecidableEq Job)
  | cronJob => inferInstanceAs (DecidableEq CronJob)
  | policy => inferInstanceAs (DecidableEq AutoscalerPolicy)
  | metric => inferInstanceAs (DecidableEq DeploymentMetricSample)
  | assignment => inferInstanceAs (DecidableEq Assignment)
  | lease => inferInstanceAs (DecidableEq ControllerLease)
  | networkPolicy => inferInstanceAs (DecidableEq NetworkPolicy)
  | roleBinding => inferInstanceAs (DecidableEq RoleBinding)

/-- The key a record is stored under. -/
def key : (t : Tbl) → t.Val → String
  | node => Node.id
  | deployment => Deployment.id
  | workload => Workload.id
  | service => Service.id
  | endpoint => fun e => keyServiceEndpoint e.serviceID e.id
  | nameSpace => Namespace.name
  | quota => NamespaceQuota.nameSpace
  | secret => fun s => keySecret s.nameSpace s.name
  | volume => PersistentVolume.name
  | claim => fun c => keyPersistentVolumeClaim c.nameSpace c.name
  | job => Job.id
  | cronJob => fun c => keyCronJob c.nameSpace c.name
  | policy => AutoscalerPolicy.id
  | metric => fun m => keyDeploymentMetric m.deploymentID m.timestamp m.id
  | assignment => fun a => keyAssignment a.nodeID a.id
  | lease => fun _ => keyControllerLease
  | networkPolicy => fun p => keyNetworkPolicy p.nameSpace p.name
  | roleBinding => fun b => keyRoleBinding b.nameSpace b.name

/-- What a record is read back as. -/
def viaJSON : (t : Tbl) → t.Val → t.Val
  | deployment => Deployment.viaJSON
  | job => Job.viaJSON
  | cronJob => CronJob.viaJSON
  | node | workload | service | endpoint | nameSpace | quota | secret | volume | claim | policy
  | metric | assignment | lease | networkPolicy | roleBinding => id

end Tbl

/-- The contents of the store. -/
abbrev Store := (t : Tbl) → Table t.Val t.key

namespace Store

/-- The store without records. -/
def empty : Store := fun _ => Table.empty

/-- Replace one table. -/
def set (s : Store) (t : Tbl) (T : Table t.Val t.key) : Store :=
  fun t' => if h : t' = t then h ▸ T else s t'

@[simp] lemma set_self (s : Store) (t : Tbl) (T : Table t.Val t.key) : s.set t T t = T := by
  simp [set]

lemma set_of_ne (s : Store) {t t' : Tbl} (T : Table t.Val t.key) (h : t' ≠ t) :
    s.set t T t' = s t' := by
  simp [set, h]

/-- Store a record. -/
def put (s : Store) (t : Tbl) (v : t.Val) : Store := s.set t ((s t).put (t.viaJSON v))

/-- Delete the record under a key. -/
def del (s : Store) (t : Tbl) (k : String) : Store := s.set t ((s t).del k)

/-- `BadgerStateStore.DeleteDeployment`: one transaction that removes the record and every
workload that names it. -/
def deleteDeployment (s : Store) (id : String) : Store :=
  (s.del .deployment id).set .workload
    ((s .workload).delWhere fun w => decide (Workload.deploymentID w = id))

/-- The records `PopAssignments` takes: the first `max` in key order under the node's
prefix. -/
def popped (s : Store) (nodeID : String) (max : ℕ) : List Assignment :=
  ((s .assignment).rows.filter fun a =>
    hasPrefix (Tbl.key .assignment a) (keyAssignmentPrefix nodeID)).take max

/-- `BadgerStateStore.PopAssignments`: one transaction that takes these records out. -/
def popAssignments (s : Store) (nodeID : String) (max : ℕ) : Store :=
  s.set .assignment ((s .assignment).delWhere fun a => decide (a ∈ s.popped nodeID max))

/-- `BadgerStateStore.ReplaceServiceEndpoints`: one transaction that removes the records
under the service's prefix and stores the given ones. -/
def replaceServiceEndpoints (s : Store) (serviceID : String) (endpoints : List ServiceEndpoint) :
    Store :=
  s.set .endpoint <| endpoints.foldl (fun (T : Table (Tbl.Val .endpoint) (Tbl.key .endpoint)) e =>
      T.put e) <|
    (s .endpoint).delWhere fun e =>
      hasPrefix (Tbl.key .endpoint e) (keyServiceEndpointPrefix serviceID)

end Store

/-! ### Calls -/

/-- What the control plane cannot control: the clock, the random source and the answers of
the external plugins.  The `k`-th reading made in a run is the one with index `k`. -/
structure Env where
  /-- `time.Now()`. -/
  clock : ℕ → Time
  /-- `rand.Intn(9999)`. -/
  rand : ℕ → ℕ
  /-- The admission plugin: the text of its refusal, if it refuses. -/
  admission : ℕ → Option String
  /-- The external scoring plugin: a score, or nothing when it fails. -/
  external : ℕ → Node → Resource → Option ℚ

/-- The shared state of a run: the store, and how many readings have been made. -/
structure World where
  store : Store
  tick : ℕ

/-- The atomic calls. -/
inductive Call
  /-- `time.Now()`. -/
  | now
  /-- `rand.Intn(9999)`. -/
  | rand
  /-- A run of the admission plugin. -/
  | admission
  /-- The runs of the external scoring plugin that one `SelectNode` makes. -/
  | external
  /-- `o.mu.Lock()`. -/
  | lock
  /-- `o.mu.Unlock()`. -/
  | unlock
  | get (t : Tbl) (k : String)
  | put (t : Tbl) (v : t.Val)
  | del (t : Tbl) (k : String)
  /-- All records of a kind whose key has a given prefix, in key order. -/
  | list (t : Tbl) (pfx : String)
  | deleteDeployment (id : String)
  | popAssignments (nodeID : String) (max : ℕ)
  | replaceServiceEndpoints (serviceID : String) (endpoints : List ServiceEndpoint)

/-- The answer to a call. -/
abbrev Call.Res : Call → Type
  | now => Time
  | rand => ℕ
  | admission => Option String
  | external => Node → Resource → Option ℚ
  | get t _ => Option t.Val
  | list t _ => List t.Val
  | popAssignments _ _ => List Assignment
  | lock | unlock | put _ _ | del _ _ | deleteDeployment _ | replaceServiceEndpoints _ _ => Unit

/-- The records of a kind whose key has a given prefix. -/
def Store.list (s : Store) (t : Tbl) (pfx : String) : List t.Val :=
  if pfx = "" then (s t).rows else (s t).rows.filter fun v => hasPrefix (t.key v) pfx

/-- Read index `w.tick` of an oracle, and count the reading. -/
def World.read {α : Type} (w : World) (f : ℕ → α) : α × World :=
  (f w.tick, { w with tick := w.tick + 1 })

/-- The effect of a call that only changes the store. -/
def World.write (w : World) (s : Store) : Unit × World := ((), { w with store := s })

/-- The answer and the effect of a call in a run that is not interrupted. -/
def exec (env : Env) : (c : Call) → World → c.Res × World
  | .now, w => w.read env.clock
  | .rand, w => w.read env.rand
  | .admission, w => w.read env.admission
  | .external, w => w.read env.external
  | .lock, w => ((), w)
  | .unlock, w => ((), w)
  | .get t k, w => ((w.store t).get k, w)
  | .put t v, w => w.write (w.store.put t v)
  | .del t k, w => w.write (w.store.del t k)
  | .list t pfx, w => (w.store.list t pfx, w)
  | .deleteDeployment id, w => w.write (w.store.deleteDeployment id)
  | .popAssignments node max, w =>
      (w.store.popped node max, { w with store := w.store.popAssignments node max })
  | .replaceServiceEndpoints id eps, w => w.write (w.store.replaceServiceEndpoints id eps)

/-! ### Programs -/

/-- The errors of the modelled functions. -/
inductive Err
  /-- `store.ErrNotFound`. -/
  | notFound
  /-- `scheduler.ErrNoSchedulableNode`. -/
  | noSchedulableNode
  | message (s : String)
  /-- `fmt.Errorf("s: %w", e)`. -/
  | wrap (s : String) (e : Err)
deriving DecidableEq, Repr

/-- `err.Error()`. -/
def Err.text : Err → String
  | notFound => "not found"
  | noSchedulableNode => "no schedulable node"
  | message s => s
  | wrap s e => s ++ ": " ++ e.text

/-- A function of the control plane that returns an `α` or an error. -/
abbrev M (α : Type) := Prog Call.Res Err α

/-- Make one call. -/
def ask (c : Call) : M c.Res := Prog.issue c

/-- `time.Now()`. -/
def timeNow : M Time := ask .now

/-- `rand.Intn(9999)`. -/
def randIntn : M ℕ := ask .rand

/-- Run a body with `o.mu` held (`o.mu.Lock()` and `defer o.mu.Unlock()`). -/
def withLock {α : Type} (p : M α) : M α := do
  ask .lock
  let r ← p.attempt
  ask .unlock
  Prog.ret r

/-- A field that the store fills in when it is the zero time. -/
def orNow (t : Time) : M Time := if t.isZero then timeNow else pure t

namespace StateStore

/-- A lookup whose failure is `ErrNotFound`. -/
def find (t : Tbl) (k : String) : M t.Val := do
  match ← ask (.get t k) with
  | some v => pure v
  | none => Prog.fail .notFound

def store (t : Tbl) (v : t.Val) : M Unit := ask (.put t v)

def upsertNode (node : Node) : M Unit := do
  let lastSeen ← orNow node.lastSeen
  store .node { node with lastSeen := lastSeen }

def getNode (id : String) : M Node := find .node id

def listNodes : M (List Node) := ask (.list .node "")

def createDeployment (dep : Deployment) : M Unit := do
  match ← ask (.get .deployment dep.id) with
  | some _ => Prog.fail (.message ("deployment " ++ dep.id ++ " already exists"))
  | none => store .deployment dep

def deleteDeployment (id : String) : M Unit := ask (.deleteDeployment id)

def getDeployment (id : String) : M Deployment := find .deployment id

def listDeployments : M (List Deployment) := ask (.list .deployment "")

def updateDeployment (dep : Deployment) : M Unit := store .deployment dep

def upsertWorkload (w : Workload) : M Unit := do
  let now ← timeNow
  store .workload { w with updatedAt := now }

def getWorkload (id : String) : M Workload := find .workload id

def listWorkloads : M (List Workload) := ask (.list .workload "")

def listWorkloadsByDeployment (deploymentID : String) : M (List Workload) := do
  let items ← listWorkloads
  pure (items.filter fun w => w.deploymentID = deploymentID)

def deleteWorkload (id : String) : M Unit := ask (.del .workload id)

def getService (id : String) : M Service := find .service id

def listServices : M (List Service) := ask (.list .service "")

def createService (svc : Service) : M Unit := do
  match ← ask (.get .service svc.id) with
  | some _ => Prog.fail (.message ("service " ++ svc.id ++ " already exists"))
  | none => store .service svc

def createNamespace (ns : Namespace) : M Unit := do
  match ← ask (.get .nameSpace ns.name) with
  | some _ => Prog.fail (.message ("namespace " ++ ns.name ++ " already exists"))
  | none =>
    let createdAt ← orNow ns.createdAt
    let updatedAt := if ns.updatedAt.isZero then createdAt else ns.updatedAt
    store .nameSpace { ns with createdAt := createdAt, updatedAt := updatedAt }

def getNamespace (name : String) : M Namespace := find .nameSpace name

def listNamespaces : M (List Namespace) := ask (.list .nameSpace "")

def getNamespaceQuota (nameSpace : String) : M NamespaceQuota := find .quota nameSpace

def upsertNamespaceQuota (quota : NamespaceQuota) : M Unit := do
  let createdAt ← orNow quota.createdAt
  let updatedAt ← timeNow
  store .quota { quota with createdAt := createdAt, updatedAt := updatedAt }

def listNamespaceQuotas : M (List NamespaceQuota) := ask (.list .quota "")

def upsertSecret (secret : Secret) : M Unit := do
  let createdAt ← orNow secret.createdAt
  let updatedAt ← timeNow
  store .secret { secret with createdAt := createdAt, updatedAt := updatedAt }

def listSecrets (nameSpace : String) : M (List Secret) :=
  ask (.list .secret (keySecretPrefix nameSpace))

def getSecret (nameSpace name : String) : M Secret := find .secret (keySecret nameSpace name)

def upsertPersistentVolume (pv : PersistentVolume) : M Unit := do
  let createdAt ← orNow pv.createdAt
  let updatedAt ← timeNow
  let phase := if pv.phase = .unset then .available else pv.phase
  store .volume { pv with createdAt := createdAt, updatedAt := updatedAt, phase := phase }

def getPersistentVolume (name : String) : M PersistentVolume := find .volume name

def listPersistentVolumes : M (List PersistentVolume) := ask (.list .volume "")

def upsertPersistentVolumeClaim (pvc : PersistentVolumeClaim) : M Unit := do
  let createdAt ← orNow pvc.createdAt
  let updatedAt ← timeNow
  let phase := if pvc.phase = .unset then .pending else pvc.phase
  store .claim { pvc with createdAt := createdAt, updatedAt := updatedAt, phase := phase }

def getPersistentVolumeClaim (nameSpace name : String) : M PersistentVolumeClaim :=
  find .claim (keyPersistentVolumeClaim nameSpace name)

def listPersistentVolumeClaims (nameSpace : String) : M (List PersistentVolumeClaim) :=
  ask (.list .claim (keyPersistentVolumeClaimPrefix nameSpace))

def upsertJob (job : Job) : M Unit := do
  let createdAt ← orNow job.createdAt
  let updatedAt ← timeNow
  let status := if job.status = .unset then .pending else job.status
  store .job { job with createdAt := createdAt, updatedAt := updatedAt, status := status }

def getJob (id : String) : M Job := find .job id

/-- `ListJobs`: a blank namespace stands for all of them; otherwise namespaces are
compared up to case. -/
def listJobs (nameSpace : String) : M (List Job) := do
  let jobs ← ask (.list .job "")
  if blank nameSpace then pure jobs
  else pure (jobs.filter fun j => equalFold (trimSpace j.spec.nameSpace) (trimSpace nameSpace))

def deleteJob (id : String) : M Unit := ask (.del .job id)

def upsertCronJob (cj : CronJob) : M Unit := do
  let createdAt ← orNow cj.createdAt
  let updatedAt ← timeNow
  let every := if cj.scheduleEveryS ≤ 0 then 60 else cj.scheduleEveryS
  store .cronJob { cj with createdAt := createdAt, updatedAt := updatedAt, scheduleEveryS := every }

def getCronJob (nameSpace name : String) : M CronJob := find .cronJob (keyCronJob nameSpace name)

def listCronJobs (nameSpace : String) : M (List CronJob) :=
  ask (.list .cronJob (keyCronJobPrefix nameSpace))

/-- `ReplaceServiceEndpoints`: the transaction stores each endpoint with its id and time
filled in. -/
def replaceServiceEndpoints (serviceID : String) (endpoints : List ServiceEndpoint) : M Unit :=
  fill endpoints fun eps => ask (.replaceServiceEndpoints serviceID eps)
where
  fill : List ServiceEndpoint → (List ServiceEndpoint → M Unit) → M Unit
    | [], k => k []
    | ep :: eps, k => do
      let id := if ep.id = "" then endpointID ep.serviceID ep.workloadID ep.port else ep.id
      let updatedAt ← orNow ep.updatedAt
      fill eps fun rest => k ({ ep with id := id, updatedAt := updatedAt } :: rest)

def listServiceEndpoints (serviceID : String) : M (List ServiceEndpoint) :=
  ask (.list .endpoint (keyServiceEndpointPrefix serviceID))

def upsertAutoscalerPolicy (policy : AutoscalerPolicy) : M Unit := do
  let updatedAt ← orNow policy.updatedAt
  let createdAt := if policy.createdAt.isZero then updatedAt else policy.createdAt
  store .policy { policy with updatedAt := updatedAt, createdAt := createdAt }

def listAutoscalerPolicies : M (List AutoscalerPolicy) := ask (.list .policy "")

def deleteAutoscalerPolicy (id : String) : M Unit := ask (.del .policy id)

def appendDeploymentMetric (sample : DeploymentMetricSample) : M Unit := do
  let id ← (if sample.id = "" then do
    let nano ← timeNow
    pure ("m-" ++ toString nano) else pure sample.id)
  let timestamp ← orNow sample.timestamp
  store .metric { sample with id := id, timestamp := timestamp }

/-- `ListDeploymentMetrics`: the last `limit` samples in key order, 100 when `limit ≤ 0`. -/
def listDeploymentMetrics (deploymentID : String) (limit : ℤ) : M (List DeploymentMetricSample) := do
  let limit := if limit ≤ 0 then 100 else limit
  let items ← ask (.list .metric (keyDeploymentMetricPrefix deploymentID))
  pure (items.drop (items.length - limit.toNat))

def enqueueAssignment (a : Assignment) : M Unit := do
  if a.id = "" then
    let nano ← timeNow
    store .assignment { a with id := assignmentID a.workloadID nano }
  else
    store .assignment a

def popAssignments (nodeID : String) (max : ℕ) : M (List Assignment) :=
  ask (.popAssignments nodeID max)

def upsertControllerLease (lease : ControllerLease) : M Unit := do
  let updatedAt ← orNow lease.updatedAt
  store .lease { lease with updatedAt := updatedAt }

def getControllerLease : M ControllerLease := find .lease keyControllerLease

def deleteControllerLease : M Unit := ask (.del .lease keyControllerLease)

def upsertNetworkPolicy (policy : NetworkPolicy) : M Unit := do
  let createdAt ← orNow policy.createdAt
  let updatedAt ← timeNow
  store .networkPolicy { policy with createdAt := createdAt, updatedAt := updatedAt }

def getNetworkPolicy (nameSpace name : String) : M NetworkPolicy :=
  find .networkPolicy (keyNetworkPolicy nameSpace name)

def listNetworkPolicies (nameSpace : String) : M (List NetworkPolicy) :=
  ask (.list .networkPolicy (keyNetworkPolicyPrefix nameSpace))

def upsertRoleBinding (binding : RoleBinding) : M Unit := do
  let createdAt ← orNow binding.createdAt
  let updatedAt ← timeNow
  store .roleBinding { binding with createdAt := createdAt, updatedAt := updatedAt }

def getRoleBinding (nameSpace name : String) : M RoleBinding :=
  find .roleBinding (keyRoleBinding nameSpace name)

def listRoleBindings (nameSpace : String) : M (List RoleBinding) :=
  ask (.list .roleBinding (keyRoleBindingPrefix nameSpace))

/-- `Snapshot`: three listings, one after another. -/
def snapshot : M ClusterState := do
  let nodes ← listNodes
  let deps ← listDeployments
  let workloads ← listWorkloads
  pure { nodes := nodes, deployments := deps, workloads := workloads }

end StateStore

end Orchestrator
