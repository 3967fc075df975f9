/-
# The data model

The records of `internal/model/types.go` that the modelled functions read or write,
with their fields in source order.  Go's `int64` and `int` are `Int64` where the code
computes with them, so that resource arithmetic wraps as it does in the code, and `ℤ`
where it only compares or counts (priorities, revisions, generations).  A floating-point
value that is stored is a rational number.  A slice or map that the code compares with
`nil` is an `Option`; elsewhere a nil slice is the empty list.
-/
import Orchestrator.Lib.Table
import Mathlib.Data.Rat.Floor

namespace Orchestrator

open Lib

/-! ### Machine integers and time -/

/-- The value of a 64-bit signed addition or multiplication whose exact value is `x`. -/
def wrap64 (x : ℤ) : ℤ := (Int64.ofInt x).toInt

/-- An instant, in nanoseconds since the Unix epoch. -/
abbrev Time := ℤ

/-- The zero value of `time.Time`: January 1 of year 1. -/
def Time.zero : Time := -62135596800000000000

/-- `time.Time.IsZero`. -/
def Time.isZero (t : Time) : Bool := decide (t = Time.zero)

/-- `time.Time.Sub`: the difference, saturated at the ends of the `Duration` range. -/
def Time.sub (t u : Time) : ℤ := max (-2 ^ 63) (min (2 ^ 63 - 1) (t - u))

/-- `time.Duration(s) * time.Second`, a 64-bit product. -/
def seconds (s : Int64) : ℤ := wrap64 (s.toInt * 1000000000)

/-- The characters that `strings.TrimSpace` removes (`unicode.IsSpace`). -/
def isSpace (c : Char) : Bool :=
  c.val == 0x20 || (0x09 ≤ c.val && c.val ≤ 0x0D) || c.val == 0x85 || c.val == 0xA0 ||
    c.val == 0x1680 || (0x2000 ≤ c.val && c.val ≤ 0x200A) || c.val == 0x2028 ||
    c.val == 0x2029 || c.val == 0x202F || c.val == 0x205F || c.val == 0x3000

/-- `strings.TrimSpace`. -/
def trimSpace (s : String) : String :=
  String.ofList ((s.toList.dropWhile isSpace).reverse.dropWhile isSpace).reverse

/-- `strings.TrimSpace(s) == ""`. -/
def blank (s : String) : Bool := s.toList.all isSpace

/-- A Go `map[string]string`. -/
abbrev StrMap := Table (String × String) Prod.fst

/-- The value a Go map yields for a key: the empty string when the key is absent. -/
def StrMap.lookup (m : StrMap) (k : String) : String := ((m.get k).map Prod.snd).getD ""

instance {K V : Type} [LinearOrder K] {key : V → K} [DecidableEq V] : DecidableEq (Table V key) :=
  fun a b => decidable_of_iff (a.rows = b.rows) ⟨Table.ext, fun h => by rw [h]⟩

/-! ### Resources and nodes -/

structure Resource where
  milliCPU : Int64 := 0
  memoryMB : Int64 := 0
deriving DecidableEq, Repr

structure Taint where
  key : String
  value : String
  effect : String
deriving DecidableEq, Repr

structure Toleration where
  key : String
  value : String := ""
  effect : String := ""
  operator : String := ""
deriving DecidableEq, Repr

inductive NodeStatus
  | ready
  | unknown
  | down
deriving DecidableEq, Repr

inductive NodeFailureClass
  | healthy
  | warning
  | critical
deriving DecidableEq, Repr

structure NodeHealth where
  cpuUtilization : ℚ := 0
  memoryUtilization : ℚ := 0
  lastHeartbeatAgeSec : ℤ := 0
  consecutiveMissedTTL : ℤ := 0
  failureClass : NodeFailureClass := .healthy
  reason : String := ""
  isolated : Bool := false
  draining : Bool := false
  lastEvaluatedAt : Time := Time.zero
deriving DecidableEq, Repr

structure Node where
  id : String
  address : String := ""
  labels : StrMap := Table.empty
  taints : List Taint := []
  capacity : Resource := {}
  allocatable : Resource := {}
  used : Resource := {}
  status : NodeStatus := .ready
  health : NodeHealth := {}
  lastSeen : Time := Time.zero
deriving DecidableEq

/-! ### Deployments -/

inductive DeploymentStatus
  | pending
  | running
  | failed
deriving DecidableEq, Repr

/-- `RolloutStrategyType`; `unset` is the empty string and `other` any further text. -/
inductive RolloutStrategyType
  | unset
  | rollingUpdate
  | canary
  | other (s : String)
deriving DecidableEq, Repr

structure RollingUpdateSpec where
  maxUnavailable : Int64 := 0
  maxSurge : Int64 := 0
deriving DecidableEq, Repr

structure CanarySpec where
  enabled : Bool := false
  percentage : Int64 := 0
deriving DecidableEq, Repr

structure RolloutSpec where
  strategy : RolloutStrategyType := .unset
  rollingUpdate : RollingUpdateSpec := {}
  canary : CanarySpec := {}
  progressDeadlineSeconds : Int64 := 0
  autoRollbackOnFailure : Bool := false
  maxFailedWorkloads : ℤ := 0
  sloErrorRateThreshold : ℚ := 0
  sloWindowSeconds : ℤ := 0
deriving DecidableEq, Repr

structure ProbeSpec where
  enabled : Bool := false
  initialDelaySeconds : Int64 := 0
  failureThreshold : ℤ := 0
deriving DecidableEq, Repr

structure SecretMountSpec where
  secretName : String
  mountPath : String
deriving DecidableEq, Repr

structure DeploymentSpec where
  nameSpace : String := ""
  name : String := ""
  image : String := ""
  imagePullSecret : String := ""
  secretMounts : Option (List SecretMountSpec) := none
  volumeClaims : Option (List String) := none
  replicas : Int64 := 0
  priority : ℤ := 0
  resources : Resource := {}
  labels : Option StrMap := none
  tolerations : Option (List Toleration) := none
  livenessProbe : ProbeSpec := {}
  readinessProbe : ProbeSpec := {}
  rollout : RolloutSpec := {}
deriving DecidableEq

inductive DeploymentConditionType
  | available
  | progressing
  | degraded
deriving DecidableEq, Repr

structure DeploymentCondition where
  type : DeploymentConditionType
  status : Bool
  reason : String
  message : String
  lastTransitionTime : Time
deriving DecidableEq, Repr

structure DeploymentRevision where
  revision : ℤ
  spec : DeploymentSpec
  createdAt : Time
deriving DecidableEq

/-- The values of `DeploymentRolloutStatus.Phase`; `unset` is the empty string. -/
inductive RolloutPhase
  | unset
  | stable
  | progressing
  | canary
  | canaryPromoting
  | autoscaling
  | rollback
  | failed
deriving DecidableEq, Repr

structure DeploymentRolloutStatus where
  phase : RolloutPhase := .unset
  updatedReplicas : ℤ := 0
  readyReplicas : ℤ := 0
  unavailableReplicas : ℤ := 0
  message : String := ""
  startedAt : Time := Time.zero
  lastUpdatedAt : Time := Time.zero
deriving DecidableEq, Repr

structure Deployment where
  id : String
  spec : DeploymentSpec := {}
  generation : ℤ := 0
  observedGeneration : ℤ := 0
  currentRevision : ℤ := 0
  revisionHistory : List DeploymentRevision := []
  rolloutStatus : DeploymentRolloutStatus := {}
  owner : String := ""
  finalizers : List String := []
  deletionTimestamp : Option Time := none
  status : DeploymentStatus := .pending
  conditions : List DeploymentCondition := []
  createdAt : Time := Time.zero
  updatedAt : Time := Time.zero
deriving DecidableEq

/-! ### Workloads and assignments -/

/-- `WorkloadStatus`; `other` is any text a worker may report beyond the five constants. -/
inductive WorkloadStatus
  | pending
  | running
  | failed
  | terminating
  | terminated
  | other (s : String)
deriving DecidableEq, Repr

structure Workload where
  id : String
  deploymentID : String
  priority : ℤ := 0
  nodeID : String
  image : String := ""
  resources : Resource := {}
  status : WorkloadStatus
  containerID : String := ""
  restartCount : ℤ := 0
  version : ℤ := 0
  createdAt : Time := Time.zero
  updatedAt : Time := Time.zero
deriving DecidableEq, Repr

structure SecretFile where
  path : String
  content : String
deriving DecidableEq, Repr

structure VolumeMount where
  claimName : String
  mountPath : String
  readOnly : Bool
deriving DecidableEq, Repr

/-- The `Action` of an assignment; `unset` is the empty string. -/
inductive AssignmentAction
  | unset
  | create
  | delete
  | other (s : String)
deriving DecidableEq, Repr

structure Assignment where
  action : AssignmentAction
  id : String := ""
  nodeID : String
  workloadID : String
  image : String := ""
  imagePullSecret : String := ""
  containerID : String := ""
  secretFiles : List SecretFile := []
  volumeMounts : List VolumeMount := []
  resources : Resource := {}
deriving DecidableEq, Repr

/-! ### Services -/

inductive ServiceProtocol
  | tcp
  | udp
  | other (s : String)
deriving DecidableEq, Repr

structure ServicePort where
  name : String := ""
  port : ℤ
  targetPort : ℤ
  nodePort : ℤ := 0
  protocol : ServiceProtocol
deriving DecidableEq, Repr

inductive ServiceType
  | unset
  | clusterIP
  | nodePort
  | other (s : String)
deriving DecidableEq, Repr

structure ServiceSpec where
  nameSpace : String := ""
  name : String
  selector : StrMap := Table.empty
  ports : List ServicePort := []
  type : ServiceType := .unset
deriving DecidableEq

structure Service where
  id : String
  spec : ServiceSpec
  clusterIP : String := ""
  dnsRecordTTLSeconds : ℤ := 0
  createdAt : Time := Time.zero
  updatedAt : Time := Time.zero
deriving DecidableEq

structure ServiceEndpoint where
  id : String
  serviceID : String
  workloadID : String
  nodeID : String
  address : String
  port : ℤ
  protocol : ServiceProtocol
  ready : Bool
  updatedAt : Time
deriving DecidableEq, Repr

/-! ### Namespaces, quotas, secrets and volumes -/

structure Namespace where
  name : String
  tenant : String := ""
  createdAt : Time := Time.zero
  updatedAt : Time := Time.zero
deriving DecidableEq, Repr

structure NamespaceQuota where
  nameSpace : String
  maxDeployments : ℤ := 0
  maxMilliCPU : Int64 := 0
  maxMemoryMB : Int64 := 0
  createdAt : Time := Time.zero
  updatedAt : Time := Time.zero
deriving DecidableEq, Repr

structure Secret where
  nameSpace : String
  name : String
  data : StrMap := Table.empty
  createdAt : Time := Time.zero
  updatedAt : Time := Time.zero
deriving DecidableEq

inductive PersistentVolumePhase
  | unset
  | available
  | bound
  | released
deriving DecidableEq, Repr

structure PersistentVolume where
  name : String
  capacityMB : Int64
  storageClass : String := ""
  accessMode : String := ""
  claimNamespace : String := ""
  claimName : String := ""
  boundDeployment : String := ""
  phase : PersistentVolumePhase := .unset
  createdAt : Time := Time.zero
  updatedAt : Time := Time.zero
deriving DecidableEq, Repr

inductive PersistentVolumeClaimPhase
  | unset
  | pending
  | bound
deriving DecidableEq, Repr

structure PersistentVolumeClaim where
  nameSpace : String
  name : String
  requestedCapacity : Int64
  storageClass : String := ""
  accessMode : String := ""
  volumeName : String := ""
  phase : PersistentVolumeClaimPhase := .unset
  createdAt : Time := Time.zero
  updatedAt : Time := Time.zero
deriving DecidableEq, Repr

/-! ### Jobs -/

inductive JobPhase
  | unset
  | pending
  | running
  | succeeded
  | failed
deriving DecidableEq, Repr

structure JobSpec where
  nameSpace : String := ""
  name : String := ""
  template : DeploymentSpec := {}
  completions : ℤ := 0
  backoffLimit : ℤ := 0
  ttlSeconds : Int64 := 0
  historyLimit : ℤ := 0
  scheduleReason : String := ""
deriving DecidableEq

structure Job where
  id : String := ""
  spec : JobSpec
  status : JobPhase := .unset
  deployment : String := ""
  succeeded : ℤ := 0
  failed : ℤ := 0
  runCount : ℤ := 0
  lastRunAt : Time := Time.zero
  completedAt : Time := Time.zero
  createdAt : Time := Time.zero
  updatedAt : Time := Time.zero
deriving DecidableEq

structure CronJob where
  nameSpace : String
  name : String
  scheduleEveryS : Int64
  template : JobSpec
  suspend : Bool := false
  historyLimit : ℤ := 0
  lastRunAt : Time := Time.zero
  createdAt : Time := Time.zero
  updatedAt : Time := Time.zero
deriving DecidableEq

/-! ### Autoscaling -/

structure DeploymentMetricSample where
  id : String
  deploymentID : String
  timestamp : Time
  cpuUsage : ℚ
  memoryUsage : ℚ
  custom : Table (String × ℚ) Prod.fst := Table.empty
deriving DecidableEq

structure AutoscalerPolicy where
  id : String
  deploymentID : String
  minReplicas : Int64
  maxReplicas : Int64
  targetCPUUtilization : ℚ := 0
  targetMemoryUtilization : ℚ := 0
  customMetricName : String := ""
  targetCustomMetricValue : ℚ := 0
  predictiveScalingEnabled : Bool := false
  predictiveLookbackSamples : ℤ := 0
  predictiveScaleFactor : ℚ := 0
  stabilizationWindowSec : Int64 := 0
  scaleUpCooldownSec : Int64 := 0
  scaleDownCooldownSec : Int64 := 0
  lastScaleAt : Time := Time.zero
  lastScaleDirection : String := ""
  createdAt : Time := Time.zero
  updatedAt : Time := Time.zero
deriving DecidableEq, Repr

/-! ### Network policies and role bindings -/

structure NetworkPolicyPeer where
  nameSpace : String := ""
  labels : StrMap := Table.empty
deriving DecidableEq

structure NetworkPolicyRule where
  /-- `From`. -/
  sources : List NetworkPolicyPeer := []
  /-- `To`. -/
  targets : List NetworkPolicyPeer := []
  port : ℤ := 0
deriving DecidableEq

structure NetworkPolicy where
  nameSpace : String := ""
  name : String
  podSelector : StrMap := Table.empty
  ingress : List NetworkPolicyRule := []
  egress : List NetworkPolicyRule := []
  group : String := ""
  createdAt : Time := Time.zero
  updatedAt : Time := Time.zero
deriving DecidableEq

structure RoleBinding where
  nameSpace : String := ""
  name : String
  subject : String
  roles : List String
  inherits : List String := []
  createdAt : Time := Time.zero
  updatedAt : Time := Time.zero
deriving DecidableEq, Repr

/-! ### Leadership -/

structure ControllerLease where
  leaderID : String := ""
  expiresAt : Time := Time.zero
  term : Int64 := 0
  updatedAt : Time := Time.zero
deriving DecidableEq

/-! ### The cluster -/

structure ClusterState where
  nodes : List Node
  deployments : List Deployment
  workloads : List Workload
deriving DecidableEq

/-! ### The JSON encoding of a specification

A record is stored as JSON.  An empty slice in a field tagged `omitempty` is left out
of the encoding and comes back as nil; the fields for which the code can tell the
difference are those of a deployment specification. -/

/-- An `omitempty` slice after encoding and decoding. -/
def omitEmpty {α : Type} : Option (List α) → Option (List α)
  | some [] => none
  | l => l

/-- A specification after encoding and decoding. -/
def DeploymentSpec.viaJSON (s : DeploymentSpec) : DeploymentSpec :=
  { s with
    secretMounts := omitEmpty s.secretMounts
    volumeClaims := omitEmpty s.volumeClaims
    tolerations := omitEmpty s.tolerations }

def DeploymentRevision.viaJSON (r : DeploymentRevision) : DeploymentRevision :=
  { r with spec := r.spec.viaJSON }

def Deployment.viaJSON (d : Deployment) : Deployment :=
  { d with
    spec := d.spec.viaJSON
    revisionHistory := d.revisionHistory.map DeploymentRevision.viaJSON }

def JobSpec.viaJSON (s : JobSpec) : JobSpec := { s with template := s.template.viaJSON }

def Job.viaJSON (j : Job) : Job := { j with spec := j.spec.viaJSON }

def CronJob.viaJSON (c : CronJob) : CronJob := { c with template := c.template.viaJSON }

lemma omitEmpty_idem {α : Type} (l : Option (List α)) : omitEmpty (omitEmpty l) = omitEmpty l := by
  rcases l with _ | _ | _ <;> rfl

@[simp] lemma omitEmpty_getD {α : Type} (l : Option (List α)) : (omitEmpty l).getD [] = l.getD [] := by
  rcases l with _ | _ | _ <;> rfl

@[simp] lemma DeploymentSpec.viaJSON_viaJSON (s : DeploymentSpec) :
    s.viaJSON.viaJSON = s.viaJSON := by
  simp [DeploymentSpec.viaJSON, omitEmpty_idem]

@[simp] lemma DeploymentRevision.viaJSON_viaJSON (r : DeploymentRevision) :
    r.viaJSON.viaJSON = r.viaJSON := by
  simp [DeploymentRevision.viaJSON]

end Orchestrator
