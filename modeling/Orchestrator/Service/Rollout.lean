/-
# Rollouts: the pure part

The functions of `internal/service/orchestrator.go` that compute on records without
touching the store: normalization of a rollout specification, the counts and selections
over workloads, conditions, and the plan of one reconcile pass (how many replicas of the
new revision are wanted, how many may be created, how many must stay available).
-/
import Orchestrator.Scheduler.Planner
import Orchestrator.Store.State

namespace Orchestrator

open Lib

/-- The fields of the `Orchestrator` struct that its functions read, with the decryption
of secrets and the rounding of floating-point operations. -/
structure Config where
  scheduler : Planner
  nodeTTL : ℤ
  nodeTTL_pos : 0 < nodeTTL
  /-- `decryptSecretData`. -/
  decryptSecretData : StrMap → StrMap
  /-- The result of a floating-point operation whose exact value is given. -/
  fl : ℚ → ℚ

/-! ### Resources -/

/-- A reservation given back: subtract, and clamp at zero. -/
def Resource.release (used r : Resource) : Resource :=
  let cpu := used.milliCPU - r.milliCPU
  let mem := used.memoryMB - r.memoryMB
  { milliCPU := if cpu < 0 then 0 else cpu
    memoryMB := if mem < 0 then 0 else mem }

/-- A reservation made. -/
def Resource.reserve (used r : Resource) : Resource :=
  { milliCPU := used.milliCPU + r.milliCPU
    memoryMB := used.memoryMB + r.memoryMB }

/-- `safeUtilization`. -/
def safeUtilization (fl : ℚ → ℚ) (used alloc : Int64) : ℚ :=
  if alloc ≤ 0 then 0
  else max 0 (min 1 (fl (float64 fl used / float64 fl alloc)))

/-! ### Rollout specifications -/

def normalizeRolloutSpec (r : RolloutSpec) : RolloutSpec :=
  let strategy := if r.strategy = .unset then .rollingUpdate else r.strategy
  { strategy := strategy
    rollingUpdate :=
      { maxUnavailable := if r.rollingUpdate.maxUnavailable < 0 then 0
                          else r.rollingUpdate.maxUnavailable
        maxSurge := if r.rollingUpdate.maxSurge < 0 then 0 else r.rollingUpdate.maxSurge }
    canary :=
      if strategy = .canary then
        let percentage := if r.canary.percentage ≤ 0 then 20 else r.canary.percentage
        { enabled := true, percentage := if percentage > 100 then 100 else percentage }
      else r.canary
    progressDeadlineSeconds := if r.progressDeadlineSeconds < 0 then 0 else r.progressDeadlineSeconds
    autoRollbackOnFailure := r.autoRollbackOnFailure
    maxFailedWorkloads := if r.maxFailedWorkloads < 0 then 0 else r.maxFailedWorkloads
    sloErrorRateThreshold := if r.sloErrorRateThreshold < 0 then 0 else r.sloErrorRateThreshold
    sloWindowSeconds := if r.sloWindowSeconds < 0 then 0 else r.sloWindowSeconds }

def DeploymentSpec.normalized (s : DeploymentSpec) : DeploymentSpec :=
  { s with rollout := normalizeRolloutSpec s.rollout }

/-- Clamping below at zero twice is clamping once. -/
lemma clampZero_idem {α : Type} [LT α] [Zero α] [DecidableLT α] (h0 : ¬ (0 : α) < 0) (x : α) :
    (if (if x < 0 then 0 else x) < 0 then 0 else if x < 0 then 0 else x) =
      if x < 0 then 0 else x := by
  by_cases hx : x < 0
  · simp [hx, h0]
  · simp [hx]

lemma normalizeRolloutSpec_idem (r : RolloutSpec) :
    normalizeRolloutSpec (normalizeRolloutSpec r) = normalizeRolloutSpec r := by
  have h64 : ∀ x : Int64, (if (if x < 0 then 0 else x) < 0 then 0 else if x < 0 then 0 else x) =
      if x < 0 then 0 else x := clampZero_idem (by decide)
  -- a normalized percentage lies between 1 and 100
  have hlow : ∀ x : Int64, ¬ (if x ≤ 0 then (20 : Int64) else x) ≤ 0 := by
    intro x
    by_cases hx : x ≤ 0
    · rw [if_pos hx]
      decide
    · rwa [if_neg hx]
  have hhigh : ∀ x : Int64, ¬ x ≤ 0 → ¬ (if x > 100 then (100 : Int64) else x) ≤ 0 ∧
      ¬ (if x > 100 then (100 : Int64) else x) > 100 := by
    intro x hx
    by_cases hx' : x > 100
    · rw [if_pos hx']
      decide
    · rw [if_neg hx']
      exact ⟨hx, hx'⟩
  obtain ⟨strategy, ru, ⟨enabled, percentage⟩, deadline, auto, failed, slo, window⟩ := r
  obtain ⟨h₁, h₂⟩ := hhigh _ (hlow percentage)
  cases strategy <;> simp [normalizeRolloutSpec, h64, clampZero_idem, h₁, h₂]

lemma clampZero_nonneg (x : Int64) : 0 ≤ (if x < 0 then (0 : Int64) else x).toInt := by
  split_ifs with h
  · decide
  · rw [Int64.lt_iff_toInt_lt] at h
    simpa using h

lemma normalized_maxUnavailable_nonneg (r : RolloutSpec) :
    0 ≤ (normalizeRolloutSpec r).rollingUpdate.maxUnavailable.toInt := clampZero_nonneg _

lemma normalized_maxSurge_nonneg (r : RolloutSpec) :
    0 ≤ (normalizeRolloutSpec r).rollingUpdate.maxSurge.toInt := clampZero_nonneg _

@[simp] lemma DeploymentSpec.normalized_normalized (s : DeploymentSpec) :
    s.normalized.normalized = s.normalized := by
  simp [DeploymentSpec.normalized, normalizeRolloutSpec_idem]

def isRolloutInProgress : RolloutPhase → Bool
  | .progressing | .canary | .canaryPromoting | .autoscaling | .rollback => true
  | .unset | .stable | .failed => false

/-! ### Workloads of a deployment -/

/-- `Running` or `Pending`. -/
def Workload.active (w : Workload) : Bool := w.status = .running || w.status = .pending

def activeWorkloads (l : List Workload) : List Workload := l.filter Workload.active

def runningCount (l : List Workload) : ℤ := l.countP fun w => w.status = .running

def activeForRevision (l : List Workload) (rev : ℤ) : List Workload :=
  l.filter fun w => w.version = rev

def oldRevisionWorkloads (l : List Workload) (rev : ℤ) : List Workload :=
  l.filter fun w => w.version ≠ rev

def runningOrPendingCount (l : List Workload) : ℤ := l.countP Workload.active

/-- The comparison of `pickScaleDownVictims`: pending ones first, then the youngest. -/
def victimBefore (a b : Workload) : Bool :=
  if a.status ≠ b.status then a.status = .pending else b.createdAt < a.createdAt

def pickScaleDownVictims (workloads : List Workload) (count : ℤ) : List Workload :=
  (sortStable victimBefore (activeWorkloads workloads)).take count.toNat

/-! ### Conditions and finalizers -/

def setCondition (existing : List DeploymentCondition) (next : DeploymentCondition) :
    List DeploymentCondition :=
  if existing.any fun c => c.type = next.type then
    existing.map fun c => if c.type = next.type then next else c
  else existing ++ [next]

def removeFinalizer (finalizers : List String) (target : String) : List String :=
  finalizers.filter (· ≠ target)

/-- Set a condition with the current time. -/
def Deployment.condition (dep : Deployment) (type : DeploymentConditionType) (status : Bool)
    (reason message : String) (now : Time) : Deployment :=
  let next : DeploymentCondition :=
    { type := type, status := status, reason := reason, message := message,
      lastTransitionTime := now }
  { dep with conditions := setCondition dep.conditions next }

/-! ### Rollback -/

/-- The first history entry of a revision. -/
def Deployment.revision? (dep : Deployment) (rev : ℤ) : Option DeploymentRevision :=
  dep.revisionHistory.find? fun r => r.revision = rev

/-- The changes that both rollback functions make to the specification and the history. -/
def Deployment.rollbackTo (dep : Deployment) (target : DeploymentRevision) (now : Time) :
    Deployment :=
  { dep with
    spec := target.spec.normalized
    generation := dep.generation + 1
    currentRevision := dep.currentRevision + 1
    revisionHistory := dep.revisionHistory ++
      [{ revision := dep.currentRevision + 1, spec := target.spec.normalized, createdAt := now }]
    status := .pending }

/-! ### The plan of a pass -/

/-- What `reconcileDeployment` computes before it changes anything. -/
structure RolloutPlan where
  /-- `targetNewReplicas`. -/
  target : ℤ
  /-- `rolloutPhase`. -/
  phase : RolloutPhase
  /-- `maxTotal`. -/
  maxTotal : ℤ
  /-- `minAvailable`. -/
  minAvailable : ℤ
  /-- `toCreate`. -/
  toCreate : ℤ

/-- `canaryTarget`. -/
def canaryTarget (spec : DeploymentSpec) : ℤ :=
  let t := (wrap64 (spec.replicas.toInt * spec.rollout.canary.percentage.toInt)).tdiv 100
  min (if t ≤ 0 then 1 else t) spec.replicas.toInt

/-- The differences are exact.  None leaves the 64-bit integers if the number of replicas is not
negative (the code stores no deployment with a smaller one than 1). -/
def rolloutPlan (dep : Deployment) (workloads : List Workload) : RolloutPlan :=
  let active := activeWorkloads workloads
  let newActive := activeForRevision active dep.currentRevision
  let oldActive : ℤ := active.length - newActive.length
  let replicas := dep.spec.replicas.toInt
  let (target, phase) :=
    if dep.spec.rollout.strategy = .canary ∧ dep.spec.rollout.canary.enabled ∧ oldActive > 0 then
      if runningCount (activeForRevision workloads dep.currentRevision) ≥ canaryTarget dep.spec then
        (replicas, RolloutPhase.canaryPromoting)
      else (canaryTarget dep.spec, RolloutPhase.canary)
    else (replicas, RolloutPhase.progressing)
  let maxTotal := max replicas (wrap64 (replicas + dep.spec.rollout.rollingUpdate.maxSurge.toInt))
  let minAvailable := max 0 (replicas - dep.spec.rollout.rollingUpdate.maxUnavailable.toInt)
  let createNeeded := max 0 (target - newActive.length)
  let createBudget := max 0 (maxTotal - active.length)
  { target := target, phase := phase, maxTotal := maxTotal, minAvailable := minAvailable,
    toCreate := min createNeeded createBudget }

lemma rolloutPlan_toCreate_nonneg (dep : Deployment) (workloads : List Workload) :
    0 ≤ (rolloutPlan dep workloads).toCreate :=
  le_min (le_max_left _ _) (le_max_left _ _)

end Orchestrator
