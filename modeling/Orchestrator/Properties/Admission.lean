/-
# Admission at every entry point

The checks on a specification are made by the HTTP handlers for deployments only.  A specification
that comes over gRPC, and the template of a job, are stored without them, so a deployment and its
replicas can have negative requests and priorities.  If the specifications of the gRPC calls and
the templates pass the checks, every specification that is ever stored does: the defaults, the
normalization, updates, rollbacks and the autoscaler keep what the checks ask for.
-/
import Orchestrator.Logic.Accesses
import Orchestrator.System

namespace Orchestrator

open Lib

/-! ### What the checks ask for -/

/-- The specification passes validation, apart from its name, its image and its replicas. -/
def Acceptable (spec : DeploymentSpec) : Prop :=
  validateDeploymentSpec { spec with name := "name", image := "image", replicas := 1 } = none

instance (spec : DeploymentSpec) : Decidable (Acceptable spec) :=
  inferInstanceAs (Decidable (_ = none))

structure RolloutSpec.Valid (r : RolloutSpec) : Prop where
  strategy : knownStrategy r.strategy = true
  unavailable : 0 ≤ r.rollingUpdate.maxUnavailable
  surge : 0 ≤ r.rollingUpdate.maxSurge
  canary : r.canary.enabled = true → 0 < r.canary.percentage ∧ r.canary.percentage ≤ 100
  deadline : 0 ≤ r.progressDeadlineSeconds
  failed : 0 ≤ r.maxFailedWorkloads

structure ProbeSpec.Valid (p : ProbeSpec) : Prop where
  delay : 0 ≤ p.initialDelaySeconds
  threshold : 0 ≤ p.failureThreshold

/-- What the checks ask for, apart from the name, the image and the replicas. -/
structure DeploymentSpec.Sound (s : DeploymentSpec) : Prop where
  priority : 0 ≤ s.priority
  milliCPU : 0 ≤ s.resources.milliCPU
  memoryMB : 0 ≤ s.resources.memoryMB
  tolerations : ∀ t ∈ s.tolerations.getD [], blank t.key = false
  liveness : s.livenessProbe.Valid
  readiness : s.readinessProbe.Valid
  rollout : s.rollout.Valid

lemma validateDeploymentSpec_iff {s : DeploymentSpec} : validateDeploymentSpec s = none ↔
    blank s.name = false ∧ blank s.image = false ∧ 0 ≤ s.replicas ∧ s.Sound := by
  rw [validateDeploymentSpec, firstFailure_eq_none_iff]
  simp only [List.mem_cons, List.not_mem_nil, or_false, forall_eq_or_imp, forall_eq,
    decide_eq_false_iff_not, Int64.not_lt, not_lt, Bool.or_eq_false_iff, List.any_eq_false,
    Bool.not_eq_true, Bool.not_eq_eq_eq_not, Bool.not_false, gt_iff_lt, Bool.and_eq_false_imp,
    Int64.not_le]
  constructor
  · rintro ⟨hname, himage, hreplicas, hpriority, ⟨hcpu, hmem⟩, htol, ⟨hld, hrd⟩, ⟨hlt, hrt⟩,
      hstrategy, ⟨hun, hsurge⟩, hcanary, hdeadline, hfailed⟩
    exact ⟨hname, himage, hreplicas, hpriority, hcpu, hmem, htol, ⟨hld, hlt⟩, ⟨hrd, hrt⟩,
      hstrategy, hun, hsurge, hcanary, hdeadline, hfailed⟩
  · rintro ⟨hname, himage, hreplicas, h⟩
    exact ⟨hname, himage, hreplicas, h.priority, ⟨h.milliCPU, h.memoryMB⟩, h.tolerations,
      ⟨h.liveness.delay, h.readiness.delay⟩, ⟨h.liveness.threshold, h.readiness.threshold⟩,
      h.rollout.strategy, ⟨h.rollout.unavailable, h.rollout.surge⟩, h.rollout.canary,
      h.rollout.deadline, h.rollout.failed⟩

lemma acceptable_iff {s : DeploymentSpec} : Acceptable s ↔ s.Sound := by
  rw [Acceptable, validateDeploymentSpec_iff]
  constructor
  · rintro ⟨-, -, -, h⟩
    exact ⟨h.priority, h.milliCPU, h.memoryMB, h.tolerations, h.liveness, h.readiness, h.rollout⟩
  · intro h
    exact ⟨(by decide : blank "name" = false), (by decide : blank "image" = false),
      (by decide : (0 : Int64) ≤ 1), h.priority, h.milliCPU, h.memoryMB, h.tolerations,
      h.liveness, h.readiness, h.rollout⟩

/-! ### What is done with a specification -/

/-- The percentage of a canary after normalization. -/
lemma clampPercentage (x : Int64) :
    0 < (if (if x ≤ 0 then 20 else x) > 100 then 100 else if x ≤ 0 then 20 else x) ∧
      (if (if x ≤ 0 then 20 else x) > 100 then 100 else if x ≤ 0 then 20 else x) ≤ 100 := by
  by_cases hlow : x ≤ 0
  · rw [if_pos hlow]
    decide
  · rw [if_neg hlow]
    by_cases hhigh : x > 100
    · rw [if_pos hhigh]
      decide
    · rw [if_neg hhigh]
      exact ⟨Int64.not_le.mp hlow, Int64.not_lt.mp hhigh⟩

lemma RolloutSpec.Valid.normalize {r : RolloutSpec} (h : r.Valid) :
    (normalizeRolloutSpec r).Valid := by
  have hclamp : ∀ x : Int64, 0 ≤ (if x < 0 then 0 else x) := fun x =>
    Int64.le_iff_toInt_le.mpr (clampZero_nonneg x)
  refine ⟨?_, hclamp _, hclamp _, ?_, hclamp _, ?_⟩
  · change knownStrategy (if r.strategy = .unset then .rollingUpdate else r.strategy) = true
    split
    · rfl
    · exact h.strategy
  · intro henabled
    by_cases hcanary : (if r.strategy = .unset then .rollingUpdate else r.strategy) =
        RolloutStrategyType.canary
    · have heq : (normalizeRolloutSpec r).canary = { enabled := true, percentage := _ } :=
        if_pos hcanary
      rw [heq]
      exact clampPercentage _
    · have heq : (normalizeRolloutSpec r).canary = r.canary := if_neg hcanary
      rw [heq] at henabled ⊢
      exact h.canary henabled
  · change (0 : ℤ) ≤ if r.maxFailedWorkloads < 0 then 0 else r.maxFailedWorkloads
    split <;> omega

namespace DeploymentSpec.Sound

variable {s : DeploymentSpec}

lemma normalized (h : s.Sound) : s.normalized.Sound :=
  ⟨h.priority, h.milliCPU, h.memoryMB, h.tolerations, h.liveness, h.readiness, h.rollout.normalize⟩

lemma viaJSON (h : s.Sound) : s.viaJSON.Sound := by
  refine ⟨h.priority, h.milliCPU, h.memoryMB, ?_, h.liveness, h.readiness, h.rollout⟩
  change ∀ t ∈ (omitEmpty s.tolerations).getD [], blank t.key = false
  rw [omitEmpty_getD]
  exact h.tolerations

lemma withDefaults (h : s.Sound) : s.withDefaults.Sound := by
  refine ⟨h.priority, ?_, ?_, h.tolerations, h.liveness, h.readiness, h.rollout⟩
  · change 0 ≤ if s.resources.milliCPU = 0 then 250 else s.resources.milliCPU
    split
    · decide
    · exact h.milliCPU
  · change 0 ≤ if s.resources.memoryMB = 0 then 256 else s.resources.memoryMB
    split
    · decide
    · exact h.memoryMB

lemma admitted (h : s.Sound) : s.admitted.Sound :=
  ⟨h.priority, h.milliCPU, h.memoryMB, h.tolerations, h.liveness, h.readiness, h.rollout.normalize⟩

lemma inherit {old : DeploymentSpec} (h : s.Sound) (hold : old.Sound) : (s.inherit old).Sound := by
  refine ⟨h.priority, ?_, ?_, ?_, h.liveness, h.readiness, h.rollout.normalize⟩
  · change 0 ≤ if s.resources.milliCPU = 0 then old.resources.milliCPU else s.resources.milliCPU
    split
    · exact hold.milliCPU
    · exact h.milliCPU
  · change 0 ≤ if s.resources.memoryMB = 0 then old.resources.memoryMB else s.resources.memoryMB
    split
    · exact hold.memoryMB
    · exact h.memoryMB
  · change ∀ t ∈ (if s.tolerations = none then old.tolerations else s.tolerations).getD [],
      blank t.key = false
    split
    · exact hold.tolerations
    · exact h.tolerations

end DeploymentSpec.Sound

/-- The validation of what `CreateDeployment` stores. -/
lemma validate_admitted {s : DeploymentSpec} (h : s.Sound) (hname : blank s.name = false)
    (himage : blank s.image = false) : validateDeploymentSpec s.withDefaults.admitted = none := by
  refine validateDeploymentSpec_iff.mpr ⟨hname, himage, ?_, h.withDefaults.admitted⟩
  change 0 ≤ if s.replicas ≤ 0 then 1 else s.replicas
  split
  · decide
  · next hs => exact Int64.le_of_lt (Int64.not_le.mp hs)

/-- The validation of what `UpdateDeployment` stores. -/
lemma validate_inherit {next old : DeploymentSpec} (h : validateDeploymentSpec next = none)
    (hold : validateDeploymentSpec old = none) :
    validateDeploymentSpec (next.inherit old) = none := by
  obtain ⟨hname, himage, hreplicas, hsound⟩ := validateDeploymentSpec_iff.mp h
  obtain ⟨-, -, hreplicas', hsound'⟩ := validateDeploymentSpec_iff.mp hold
  refine validateDeploymentSpec_iff.mpr ⟨hname, himage, ?_, hsound.inherit hsound'⟩
  change 0 ≤ if next.replicas ≤ 0 then old.replicas else next.replicas
  split
  · exact hreplicas'
  · exact hreplicas

/-- The autoscaler recommends a count that fits into the field. -/
lemma recommended_nonneg (fl : ℚ → ℚ) {p : AutoscalerPolicy} (hp : 1 ≤ p.minReplicas)
    (usage : Usage) (current : ℤ) :
    0 ≤ Int64.ofInt (recommendedReplicas fl p usage current) := by
  have hmin : (1 : ℤ) ≤ p.minReplicas.toInt := Int64.le_iff_toInt_le.mp hp
  have hlt := p.minReplicas.toInt_lt
  have hlt' := p.maxReplicas.toInt_lt
  obtain ⟨r, hr⟩ : ∃ r : ℤ, recommendedReplicas fl p usage current =
      max p.minReplicas.toInt (min p.maxReplicas.toInt r) := ⟨_, rfl⟩
  rw [Int64.le_iff_toInt_le, Int64.toInt_ofInt_of_le (by omega) (by omega)]
  change (0 : ℤ) ≤ _
  omega

/-! ### The rule for stored records -/

def admissionTerms : Terms where
  ids _ := True
  spec s := validateDeploymentSpec s = none
  replica r priority := 0 ≤ r.milliCPU ∧ 0 ≤ r.memoryMB ∧ 0 ≤ priority
  blueprint b := Acceptable b.2
  bounds least _ := 1 ≤ least

/-- Deployments and their revisions pass validation, replicas have non-negative requests and
priorities, and what deployments are made from or scaled by is as it has to be for that. -/
def AdmissionRule : (t : Tbl) → t.Val → Prop
  | .deployment, d => admissionTerms.Meets (Deployment.core d)
  | .workload, v => admissionTerms.Fits v
  | .job, j => Acceptable (Job.spec j).template
  | .cronJob, c => Acceptable (CronJob.template c).template
  | .policy, p => 1 ≤ AutoscalerPolicy.minReplicas p
  | _, _ => True

lemma validate_viaJSON {s : DeploymentSpec} (h : validateDeploymentSpec s = none) :
    validateDeploymentSpec s.viaJSON = none := by
  obtain ⟨hname, himage, hreplicas, hsound⟩ := validateDeploymentSpec_iff.mp h
  exact validateDeploymentSpec_iff.mpr ⟨hname, himage, hreplicas, hsound.viaJSON⟩

lemma Acceptable.viaJSON {s : DeploymentSpec} (h : Acceptable s) : Acceptable s.viaJSON :=
  acceptable_iff.mpr (acceptable_iff.mp h).viaJSON

lemma AdmissionRule.viaJSON (t : Tbl) (v : t.Val) (h : AdmissionRule t v) :
    AdmissionRule t (t.viaJSON v) := by
  cases t with
  | deployment =>
    refine ⟨trivial, validate_viaJSON h.spec, fun r hr => ?_⟩
    obtain ⟨r', hr', rfl⟩ := List.mem_map.mp hr
    exact validate_viaJSON (h.history r' hr')
  | job => exact Acceptable.viaJSON h
  | cronJob => exact Acceptable.viaJSON h
  | _ => exact h

/-- `CreateDeployment` admits what is acceptable. -/
lemma admits_acceptable {spec : DeploymentSpec} (h : Acceptable spec) :
    Admits (recordRegime AdmissionRule) admissionTerms spec := by
  intro hname himage
  have hmakes : Makes (recordRegime AdmissionRule).allows (admitSpec spec.withDefaults) :=
    makes_admitSpec (fun _ => trivial) _
  exact Prog.Under.of_only hmakes fun _ _ => validate_admitted (acceptable_iff.mp h) hname himage

lemma coversApi_admission : CoversApi (recordRegime AdmissionRule) admissionTerms where
  common c hc := HasCommon.common c hc
  lookup _ := trivial
  found _ d _ h := h d rfl
  fetched _ v h := h v rfl
  listed _ _ h := h
  normal s h := by
    obtain ⟨hname, himage, hreplicas, hsound⟩ := validateDeploymentSpec_iff.mp h
    exact validateDeploymentSpec_iff.mpr ⟨hname, himage, hreplicas, hsound.normalized⟩
  asked s h := by
    obtain ⟨-, -, -, hsound⟩ := validateDeploymentSpec_iff.mp h
    exact ⟨hsound.milliCPU, hsound.memoryMB, hsound.priority⟩
  write _ h := h
  mark _ h := h
  evict _ := trivial
  reserve _ := trivial
  enqueue _ := trivial
  everyID _ := trivial
  remove _ := trivial
  nameSpace _ := trivial
  endpoints _ _ := fun _ _ => trivial
  volume _ := trivial
  bind _ _ := trivial
  policies _ _ h := h
  policy _ h := h
  scale s fl p usage current h hp := by
    obtain ⟨hname, himage, -, hsound⟩ := validateDeploymentSpec_iff.mp h
    refine validateDeploymentSpec_iff.mpr ⟨hname, himage, recommended_nonneg fl hp usage current, ?_⟩
    exact ⟨hsound.priority, hsound.milliCPU, hsound.memoryMB, hsound.tolerations, hsound.liveness,
      hsound.readiness, hsound.rollout⟩
  jobs _ _ h := h
  job _ h := h
  removeJob _ := trivial
  cronJobs _ _ h := h
  cronJob _ h := h
  start _ h := admits_acceptable h
  incidental t v ht := by cases t <;> trivial
  poll _ _ := trivial
  removePolicy _ := trivial
  defaults p := by
    change 1 ≤ if p.minReplicas ≤ 0 then 1 else p.minReplicas
    split
    · decide
    · next hp =>
      have hpos : (0 : ℤ) < p.minReplicas.toInt := Int64.lt_iff_toInt_lt.mp (Int64.not_le.mp hp)
      exact Int64.le_iff_toInt_le.mpr hpos

/-! ### Runs of the API server -/

/-- The template that the operation brings, if it brings one, is acceptable. -/
def Operation.Vetted : Operation → Prop
  | upsertJob job => Acceptable job.spec.template
  | upsertCronJob cronJob => Acceptable cronJob.template.template
  | _ => True

/-- What comes in where no checks are made is acceptable: the specifications over gRPC, and the
templates of jobs and cron jobs. -/
def Access.Vetted : Access → Prop
  | .http _ r => ∀ op, r.versioned.operation = some op → op.Vetted
  | .grpcCreate spec => Acceptable (fromPBDeploymentSpec spec)
  | _ => True

lemma Access.Vetted.fits {a : Access} (h : a.Vetted) :
    a.Fits (recordRegime AdmissionRule) admissionTerms := by
  cases a with
  | http m r =>
    intro op hop
    have hvalid := validated_of_operation hop
    have hvetted := h op hop
    cases op with
    | createDeployment spec =>
      refine admits_acceptable (acceptable_iff.mpr ?_)
      exact (validateDeploymentSpec_iff.mp hvalid).2.2.2
    | updateDeployment id next => exact fun old hold => validate_inherit hvalid hold
    | upsertJob job => exact hvetted
    | upsertCronJob cronJob => exact hvetted
    | upsertRoleBinding b =>
      exact coversApi_admission.toCovers.upsertRoleBinding fun _ _ _ _ _ _ => trivial
    | _ => trivial
  | grpcCreate spec => exact admits_acceptable h
  | _ => trivial

/-- **Admission.**  In every state of a run in which what comes in unchecked is acceptable, the
specifications of all stored deployments pass validation, and deployments and workloads have
non-negative requests and priorities. -/
theorem stored_specs_valid (env : Env) (s : HTTPServer) (w : World) (σ : ApiServer)
    (h0 : Records AdmissionRule w.store)
    (hrun : Runs (Sessions.step (apiServer env s))
      (fun e _ => ∀ i a, e = .invoke i a → a.Vetted) (Sessions.start w ()) σ) :
    (∀ d ∈ (σ.shared.store .deployment).rows, validateDeploymentSpec (Deployment.spec d) = none ∧
        0 ≤ d.spec.resources.milliCPU ∧ 0 ≤ d.spec.resources.memoryMB ∧ 0 ≤ d.spec.priority) ∧
      ∀ v ∈ (σ.shared.store .workload).rows, 0 ≤ (Workload.resources v).milliCPU ∧
        0 ≤ v.resources.memoryMB ∧ 0 ≤ v.priority := by
  have h : Records AdmissionRule σ.shared.store :=
    records_run AdmissionRule.viaJSON coversApi_admission (fun _ => trivial) h0
      (hrun.mono fun e _ he i a hi => (he i a hi).fits)
  refine ⟨fun d hd => ?_, h .workload⟩
  have hspec : validateDeploymentSpec (Deployment.spec d) = none := (h .deployment d hd).spec
  obtain ⟨-, -, -, hsound⟩ := validateDeploymentSpec_iff.mp hspec
  exact ⟨hspec, hsound.milliCPU, hsound.memoryMB, hsound.priority⟩

/-! ### A call over gRPC -/

/-- A server without principals. -/
def openServer : HTTPServer where
  orch := plainConfig
  verifyBearer _ := .error "invalid token"
  encryptSecretData := .ok
  upstream _ _ := .ok 200

/-- A specification with the given request and priority. -/
def pbSpec (milliCPU : Int64) (priority : Int32) : PBDeploymentSpec :=
  { name := "web", image := "img", replicas := 1, priority := priority
    resources := some { milliCPU := milliCPU, memoryMB := 64 } }

/-- One process creates the deployment, on a store with a node. -/
def grpcRun (spec : PBDeploymentSpec) : List (SessionEvent Access Unit) :=
  .invoke 0 (.grpcCreate (some spec)) :: List.replicate 100 (.move 0)

def nodeWorld : World where
  store := Store.empty.put .node smallNode
  tick := 0

def grpcAfter (spec : PBDeploymentSpec) : ApiServer :=
  after (Sessions.step (apiServer steadyEnv openServer)) (grpcRun spec) (Sessions.start nodeWorld ())

lemma records_nodeWorld : Records AdmissionRule nodeWorld.store := by
  intro t v hv
  cases t with
  | deployment | workload | job | cronJob | policy => cases hv
  | _ => trivial

lemma runs_grpc {spec : PBDeploymentSpec} (h : Acceptable (fromPBDeploymentSpec (some spec))) :
    Runs (Sessions.step (apiServer steadyEnv openServer))
      (fun e _ => ∀ i a, e = .invoke i a → a.Vetted) (Sessions.start nodeWorld ())
      (grpcAfter spec) := by
  refine Runs.of_list _ (admissible_of_forall (fun e he _ i a hi => ?_) _)
  subst hi
  rcases List.mem_cons.mp he with he | he
  · cases he
    exact h
  · cases List.eq_of_mem_replicate he

theorem stored_specs_valid_grpc :
    ((grpcAfter (pbSpec 100 1)).shared.store .deployment).rows.length = 1 ∧
      ∀ d ∈ ((grpcAfter (pbSpec 100 1)).shared.store .deployment).rows,
        validateDeploymentSpec (Deployment.spec d) = none :=
  ⟨by decide +kernel, fun d hd => ((stored_specs_valid steadyEnv openServer nodeWorld _
    records_nodeWorld (runs_grpc (by decide +kernel))).1 d hd).1⟩

/-- A call over gRPC stores a deployment with a negative request and a negative priority, and
starts a replica with them. -/
theorem grpc_stores_negative :
    (∃ d ∈ ((grpcAfter (pbSpec (-100) (-1))).shared.store .deployment).rows,
        validateDeploymentSpec (Deployment.spec d) ≠ none ∧ d.spec.resources.milliCPU < 0 ∧
          d.spec.priority < 0) ∧
      ∃ v ∈ ((grpcAfter (pbSpec (-100) (-1))).shared.store .workload).rows,
        (Workload.resources v).milliCPU < 0 ∧ v.priority < 0 := by
  decide +kernel

end Orchestrator
