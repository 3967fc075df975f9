/-
# Writers of the rollout status

A pass writes that a rollout is complete exactly if it is.  The two other writers look at less.
`CreateDeployment` writes back the record as it was made, `Stable` and available, although the
replicas it has just placed are pending.  A termination report counts the pending replicas and those
of other revisions as well, and writes the same if they are not more than are wanted.
-/
import Orchestrator.Logic.Frames
import Orchestrator.Logic.Operations
import Orchestrator.Logic.Verdict
import Orchestrator.Properties.Availability

namespace Orchestrator

open Lib

variable {env : Env} {o : Config} {d : Deployment} {id : String} {w w' : World}

/-! ### What a record says and what the store holds -/

/-- The record says that the rollout is complete or that the deployment is available. -/
def Deployment.SaysDone (d : Deployment) : Prop :=
  (d.rolloutStatus.phase = .stable ∧ d.observedGeneration = d.generation) ∨
    ∃ c ∈ d.conditions, c.type = .available ∧ c.status = true

instance (d : Deployment) : Decidable d.SaysDone :=
  inferInstanceAs (Decidable (_ ∨ ∃ c ∈ d.conditions, _ ∧ _))

/-- As many replicas of the current revision run as are wanted, and none of another revision is
active. -/
def Fulfilled (d : Deployment) (l : List Workload) : Prop :=
  d.spec.replicas.toInt ≤
      (l.countP fun v => v.version = d.currentRevision && v.status = .running : ℕ) ∧
    ∀ v ∈ l, v.active = true → v.version = d.currentRevision

instance (d : Deployment) (l : List Workload) : Decidable (Fulfilled d l) :=
  inferInstanceAs (Decidable (_ ∧ ∀ v ∈ l, _ → _))

/-- What the record of a deployment says is so. -/
def StatusTrue (id : String) (w : World) : Prop :=
  ∀ d ∈ w.deps.get id, d.SaysDone → Fulfilled d (w.deployed id)

/-- This is the verdict of a pass on these workloads. -/
lemma fulfilled_iff_complete {l : List Workload} :
    Fulfilled d l ↔ Complete d (activeWorkloads l) := by
  have hold : (oldRevisionWorkloads (activeWorkloads l) d.currentRevision).length = 0 ↔
      ∀ v ∈ l, v.active = true → v.version = d.currentRevision := by
    simp only [oldRevisionWorkloads, activeWorkloads, List.length_eq_zero_iff,
      List.filter_eq_nil_iff, List.mem_filter, decide_eq_true_eq, and_imp, not_not]
  rw [Fulfilled, Complete, hold]
  refine and_congr_left fun hrev => ?_
  have hcount : runningCount (activeWorkloads l) =
      (l.countP fun v => v.version = d.currentRevision && v.status = .running : ℕ) := by
    rw [runningCount, activeWorkloads, List.countP_filter]
    congr 1
    refine List.countP_congr fun v hv => ?_
    simp only [Bool.and_eq_true, decide_eq_true_eq]
    constructor
    · rintro ⟨hst, hact⟩
      exact ⟨hrev v hv hact, hst⟩
    · rintro ⟨-, hst⟩
      exact ⟨hst, by simp [Workload.active, hst]⟩
  rw [hcount]

/-! ### Creation -/

/-- What `CreateDeployment` checks before it stores anything. -/
def DeploymentSpec.Refused (env : Env) (spec : DeploymentSpec) (w : World) : Prop :=
  blank spec.name = true ∨ blank spec.image = true ∨
    ∃ e, (admitSpec spec.withDefaults).result (exec env) w = .error e

/-- The deployment ids drawn from now on are not used yet. -/
def UnusedIDs (env : Env) (w : World) : Prop :=
  ∀ k, w.tick ≤ k → w.deps.get (env.deploymentID k) = none ∧
    ∀ v ∈ w.workloads.rows, v.deploymentID ≠ env.deploymentID k

/-- The record of a deployment as it is created: complete, whatever runs. -/
structure CreatedRecord (spec : DeploymentSpec) (d : Deployment) : Prop where
  stable : d.rolloutStatus.phase = .stable
  observed : d.observedGeneration = d.generation
  replicas : d.spec.replicas = spec.withDefaults.replicas

lemma drafts_createdStatus (spec : DeploymentSpec) (id : String) (now : Time) :
    Drafts (fun d => d.id = id ∧ CreatedRecord spec d)
      (createdStatus (newDeployment id spec.withDefaults.admitted now)) :=
  .timeNow fun _ => .timeNow fun _ => .timeNow fun _ => .pure ⟨rfl, rfl, rfl, rfl⟩

lemma withDefaults_replicas_pos (spec : DeploymentSpec) : 1 ≤ spec.withDefaults.replicas.toInt := by
  unfold DeploymentSpec.withDefaults
  dsimp only
  split
  · decide
  · next h =>
    rw [Int64.le_iff_toInt_le] at h
    have hzero : (0 : Int64).toInt = 0 := by decide
    omega

/-- The first pass over a new deployment starts nothing, and the record is written back as it was
made. -/
lemma firstPass_status (hids : Function.Injective env.workloadID) (hw : Fresh env w)
    {spec : DeploymentSpec} {now : Time}
    (hget : w.deps.get id = some (newDeployment id spec.withDefaults.admitted now).viaJSON)
    (hunused : ∀ v ∈ w.workloads.rows, v.deploymentID ≠ id) :
    Returns env openRules (do
      reconcileDeployment o id
      let dep ← createdStatus (newDeployment id spec.withDefaults.admitted now)
      (StateStore.updateDeployment dep).ignore
      pure dep) w fun dep w' => ∃ d, w'.deps.get dep.id = some d ∧ CreatedRecord spec d ∧
        ∀ v ∈ w'.deployed dep.id, v.status ≠ .running := by
  refine (reconcileDeployment_returns hget (allows_prepared (Table.mem_of_get hget) rfl)).bind ?_
  intro _ w₁ hrec
  have hidle : ∀ v ∈ w₁.deployed id, v.status ≠ .running := by
    intro v hv hrunning
    obtain ⟨hmem, hdep⟩ := mem_deployed.mp ((hrec.running hids hw).2.1 v hv hrunning)
    exact hunused v hmem hdep
  refine ((drafts_createdStatus spec id now).returns w₁).bind ?_
  rintro dep w₂ ⟨⟨hid, hcreated⟩, hq⟩
  have hput : Returns env openRules
      (StateStore.updateDeployment dep).ignore w₂ fun _ w' =>
        w'.deps = w₂.deps.put dep.viaJSON ∧ w'.workloads = w₂.workloads :=
    (updateDeployment_returns dep w₂).ignore fun _ _ h => ⟨h.deps, h.workloads⟩
  refine hput.bind fun _ w₃ hw₃ => returns_pure ⟨dep.viaJSON, ?_, ?_, ?_⟩
  · rw [hw₃.1]
    exact Table.get_put_self _ dep.viaJSON
  · exact ⟨hcreated.stable, hcreated.observed, hcreated.replicas⟩
  · rw [World.deployed, hw₃.2, hq.workloads, hid]
    exact hidle

/-- **Creation.**  Unless it is refused, the call leaves a record that says that the rollout is
complete, and no running replica. -/
lemma createDeployment_outcome (hids : Function.Injective env.workloadID) (hw : Fresh env w)
    (hnew : UnusedIDs env w) (o : Config) (spec : DeploymentSpec) :
    Holds env openRules (createDeployment o spec) w fun r w' =>
      (spec.Refused env w ∧ ∃ e, r = .error e) ∨
        (¬ spec.Refused env w ∧ ∃ dep, r = .ok dep ∧ ∃ d, w'.deps.get dep.id = some d ∧
          CreatedRecord spec d ∧ ∀ v ∈ w'.deployed dep.id, v.status ≠ .running) := by
  unfold createDeployment
  split
  · next h => exact Or.inl ⟨Or.inl h, _, rfl⟩
  next hname =>
  split
  · next h => exact Or.inl ⟨Or.inr (Or.inl h), _, rfl⟩
  next himage =>
  refine (((admitSpec_writesIn _).frame (steers_admitSpec spec.withDefaults)).self).bind ?_ ?_
  swap
  · rintro e w₀ ⟨he, -⟩
    exact Or.inl ⟨Or.inr (Or.inr ⟨e, he.symm⟩), e, rfl⟩
  rintro _ w₀ ⟨hok, -, hchain, hstore⟩
  have hadmitted : ¬ spec.Refused env w := by
    rintro (h | h | ⟨e, he⟩)
    · exact hname h
    · exact himage h
    · rw [← hok] at he
      cases he
  have hdeps₀ : w₀.deps = w.deps := hstore .deployment (by decide)
  have hloads₀ : w₀.workloads = w.workloads := hstore .workload (by decide)
  obtain ⟨hfree, hunused⟩ := hnew w₀.tick hchain.tick_le
  refine (timeNow_returns w₀).bind ?_
  rintro now w₁ ⟨rfl, q₁, ht₁⟩
  refine (randIntn_returns w₁).bind ?_
  rintro r w₂ ⟨rfl, q₂, -⟩
  rw [ht₁]
  have hq : Quiet w₀ w₂ := q₁.trans q₂
  refine (createDeployment_store _ w₂).bind ?_ ?_
  · rintro _ w₃ (⟨-, -, e, hr⟩ | ⟨-, -, he⟩)
    · cases hr
    refine Prog.Sat.mono (firstPass_status hids ?_ ?_ ?_) fun r w' h => Or.inr ⟨hadmitted, h⟩
    · refine hw.of_workloads ?_ ?_
      · rw [he.workloads, hq.workloads, hloads₀]
      · exact (hchain.tick_le.trans hq.tick).trans he.tick
    · rw [he.deps]
      exact Table.get_put_self _ _
    · rw [he.workloads, hq.workloads, hloads₀]
      exact hunused
  · rintro e w₃ (⟨hsome, -, -⟩ | ⟨-, hr, -⟩)
    · rw [hq.deps, hdeps₀] at hsome
      exact absurd hfree hsome
    · cases hr

/-! ### Termination reports -/

/-- The record that a termination report writes. -/
structure SettledRecord (env : Env) (d : Deployment) (k : ℕ) (d' : Deployment) : Prop where
  core : d'.core = d.core.viaJSON
  stable : d'.rolloutStatus.phase = .stable
  observed : d'.observedGeneration = d'.generation
  stamped : ∃ j, k ≤ j ∧ d'.updatedAt = env.clock j

lemma settledStatus_returns {P : Rules} (d : Deployment) (l : List Workload) (w : World) :
    Returns env P (settledStatus d l) w fun d' w' => Quiet w w' ∧
      SettledRecord env d w.tick d'.viaJSON := by
  refine stamp_bind fun _ w₁ q₁ => stamp_bind fun _ w₂ q₂ => stamp_bind fun _ w₃ q₃ =>
    stamp_bind fun _ w₄ q₄ => ?_
  have hq : Quiet w w₄ := ((q₁.trans q₂).trans q₃).trans q₄
  refine (timeNow_returns w₄).bind ?_
  rintro _ w₅ ⟨rfl, q₅, -⟩
  exact returns_pure ⟨hq.trans q₅, rfl, rfl, rfl, w₄.tick, hq.tick, rfl⟩

/-- The other workloads of the deployment of a workload. -/
def World.others (w : World) (v : Workload) : List Workload :=
  (w.deployed v.deploymentID).filter fun u => u.id ≠ v.id

lemma settleDeployment_status {P : Rules} (id : String) (w : World) :
    Holds env P (settleDeployment id) w fun _ w' => w'.workloads = w.workloads ∧
      ((w'.deps = w.deps ∧ ∀ d ∈ w.deps.get id,
          d.spec.replicas.toInt < runningOrPendingCount (w.deployed id)) ∨
        ∃ d d', w.deps.get id = some d ∧
          runningOrPendingCount (w.deployed id) ≤ d.spec.replicas.toInt ∧
          SettledRecord env d w.tick d' ∧ w'.deps = w.deps.put d') := by
  refine find_attempt_bind ?_ ?_
  swap
  · intro hnone
    refine ⟨rfl, Or.inl ⟨rfl, fun d hd => ?_⟩⟩
    cases hnone.symm.trans hd
  intro d hd
  have hid : d.id = id := Table.key_of_get hd
  refine deployed_bind ?_
  rw [hid]
  split
  · next hle =>
    refine (settledStatus_returns d _ w).bind ?_
    rintro d' w₁ ⟨hq, hset⟩
    refine Prog.Sat.ignore (Prog.Sat.mono (updateDeployment_returns d' w₁) ?_)
    rintro _ w₂ ⟨_, -, he⟩
    rw [hq.deps, hq.workloads] at he
    exact ⟨he.workloads, Or.inr ⟨d, d'.viaJSON, hd, hle, hset, he.deps⟩⟩
  · next hgt =>
    refine ⟨rfl, Or.inl ⟨rfl, fun e he => ?_⟩⟩
    cases hd.symm.trans he
    exact not_le.mp hgt

/-- **A termination report** writes to the deployment of the workload exactly if the others that
are active are not more than are wanted. -/
lemma reportTerminated_outcome (env : Env) (wid cid : String) (w : World) :
    Holds env openRules (reportWorkloadStatus wid .terminated cid) w fun _ w' =>
      (w'.deps = w.deps ∧ ∀ v ∈ w.workloads.get wid, ∀ d ∈ w.deps.get v.deploymentID,
          d.spec.replicas.toInt < runningOrPendingCount (w.others v)) ∨
        ∃ v d d', w.workloads.get wid = some v ∧ w.deps.get v.deploymentID = some d ∧
          runningOrPendingCount (w.others v) ≤ d.spec.replicas.toInt ∧
          SettledRecord env d w.tick d' ∧ w'.deps = w.deps.put d' ∧
          w'.deployed v.deploymentID = w.others v := by
  refine find_attempt_bind ?_ ?_
  swap
  · intro hnone
    refine Or.inl ⟨rfl, fun v hv => ?_⟩
    cases hnone.symm.trans hv
  intro v hv
  refine Returns.bind (releaseReservation_returns v) ?_
  rintro _ w₁ ⟨seen, he₁⟩
  refine Returns.bind (deleteWorkload_returns (Or.inl trivial)) ?_
  intro _ w₂ he₂
  have hothers : w₂.deployed v.deploymentID = w.others v := by
    rw [he₂.deployed, he₁.workloads, World.others, World.deployed, List.filter_filter,
      Table.del, Table.rows_delWhere, List.filter_filter]
    refine List.filter_congr fun u _ => ?_
    simp [Bool.and_comm]
  have hdeps : w₂.deps = w.deps := he₂.deps.trans he₁.deps
  refine (settleDeployment_status v.deploymentID w₂).mono ?_
  rintro _ w₃ ⟨hloads, hcase⟩
  have hothers₃ : w₃.deployed v.deploymentID = w.others v := by
    rw [World.deployed, hloads]
    exact hothers
  rw [hothers, hdeps] at hcase
  rcases hcase with ⟨hsame, hgt⟩ | ⟨d, d', hd, hle, hset, hput⟩
  · refine Or.inl ⟨hsame, fun u hu d hd => ?_⟩
    cases hv.symm.trans hu
    exact hgt d hd
  · obtain ⟨j, hj, hstamp⟩ := hset.stamped
    have htick : w.tick ≤ j := (he₁.tick.trans he₂.tick).trans hj
    exact Or.inr ⟨v, d, d', hv, hd, hle, { hset with stamped := ⟨j, htick, hstamp⟩ }, hput, hothers₃⟩

lemma SettledRecord.fulfilled_iff {k : ℕ} {d' : Deployment} {l : List Workload}
    (h : SettledRecord env d k d') : Fulfilled d' l ↔ Fulfilled d l := by
  have hrev : d'.currentRevision = d.currentRevision := congrArg DepCore.currentRevision h.core
  have hreplicas : d'.spec.replicas = d.spec.replicas :=
    congrArg (fun c : DepCore => c.spec.replicas) h.core
  rw [Fulfilled, Fulfilled, hrev, hreplicas]

/-- A new record is true only if it was not written. -/
lemma CreatedRecord.not_statusTrue {spec : DeploymentSpec} (h : CreatedRecord spec d)
    (hd : w.deps.get id = some d) (hidle : ∀ v ∈ w.deployed id, v.status ≠ .running) :
    ¬ StatusTrue id w := by
  intro htrue
  obtain ⟨hcount, -⟩ := htrue d hd (Or.inl ⟨h.stable, h.observed⟩)
  have hzero : ((w.deployed id).countP fun v =>
      v.version = d.currentRevision && v.status = .running) = 0 := by
    rw [List.countP_eq_zero]
    intro v hv
    simp [hidle v hv]
  rw [hzero, h.replicas] at hcount
  have hpos := withDefaults_replicas_pos spec
  omega

/-- **Writers of the status.**  What `CreateDeployment` writes is true exactly if it is refused.  A
termination report that changes a record makes it true exactly if, without the workload, more
replicas are active than are wanted (so that nothing is written) or the rollout is complete.  And
completeness is what a pass computes from the workloads. -/
theorem status_writers_agree_iff (o : Config) (hids : Function.Injective env.workloadID)
    (hw : Fresh env w) (hnew : UnusedIDs env w)
    (hclock : ∀ k, w.tick ≤ k → ∀ d ∈ w.deps.rows, d.updatedAt ≠ env.clock k)
    (spec : DeploymentSpec) (wid cid : String) :
    let created := (createDeployment o spec).final (exec env) w
    let reported := (reportWorkloadStatus wid .terminated cid).final (exec env) w
    ((∀ dep, (createDeployment o spec).result (exec env) w = .ok dep → StatusTrue dep.id created) ↔
      spec.Refused env w) ∧
    ((∀ id, reported.deps.get id ≠ w.deps.get id → StatusTrue id reported) ↔
      ∀ v ∈ w.workloads.get wid, ∀ d ∈ w.deps.get v.deploymentID,
        d.spec.replicas.toInt < runningOrPendingCount (w.others v) ∨ Fulfilled d (w.others v)) ∧
    ∀ d l, Fulfilled d l ↔ Complete d (activeWorkloads l) := by
  intro created reported
  refine ⟨?_, ?_, fun d l => fulfilled_iff_complete⟩
  · rcases (createDeployment_outcome hids hw hnew o spec).run with
      ⟨href, e, hr⟩ | ⟨hadmitted, dep, hr, d, hd, hcreated, hidle⟩
    · refine iff_of_true ?_ href
      intro dep hdep
      cases hr.symm.trans hdep
    · refine iff_of_false ?_ hadmitted
      intro htrue
      exact hcreated.not_statusTrue hd hidle (htrue dep hr)
  · rcases (reportTerminated_outcome env wid cid w).run with
      ⟨hsame, hgt⟩ | ⟨v, d, d', hv, hd, hle, hset, hput, hothers⟩
    · refine iff_of_true ?_ fun v hv d hd => Or.inl (hgt v hv d hd)
      intro id hne
      exact absurd (by rw [hsame]) hne
    · have hid : d.id = v.deploymentID := Table.key_of_get hd
      have hid' : d'.id = v.deploymentID := (congrArg DepCore.id hset.core).trans hid
      have hget : reported.deps.get v.deploymentID = some d' := by
        rw [hput, ← hid']
        exact Table.get_put_self _ _
      have hchanged : reported.deps.get v.deploymentID ≠ w.deps.get v.deploymentID := by
        rw [hget, hd]
        intro heq
        obtain ⟨j, hj, hstamp⟩ := hset.stamped
        rw [Option.some.inj heq] at hstamp
        exact hclock j hj d (Table.mem_of_get hd) hstamp
      constructor
      · intro htrue u hu e he
        cases hv.symm.trans hu
        cases hd.symm.trans he
        have hful := htrue v.deploymentID hchanged d' hget (Or.inl ⟨hset.stable, hset.observed⟩)
        rw [hothers, hset.fulfilled_iff] at hful
        exact Or.inr hful
      · intro hcond id hne
        have hidv : id = v.deploymentID := by
          by_contra hother
          rw [hput, Table.get_put_of_ne _ (by rw [hid']; exact hother)] at hne
          exact hne rfl
        subst hidv
        rintro e he -
        cases hget.symm.trans he
        rw [hothers, hset.fulfilled_iff]
        rcases hcond v hv d hd with hgt | hful
        · omega
        · exact hful

/-! ### Two deployments -/

/-- A replica of an earlier attempt, on its way out. -/
def leavingReplica : Workload :=
  { id := steadyEnv.workloadID 0, deploymentID := servingID, nodeID := "n1", version := 1,
    status := .terminating }

/-- One replica runs, and one is on its way out. -/
def settlingWorld : World :=
  let w := (after (Sys.step steadyEnv plainConfig) (servingRun (rollingSpec "a" 1 1 0))
    Sys.init).world
  { w with store := w.store.put .workload leavingReplica }

lemma fresh_settlingWorld : Fresh steadyEnv settlingWorld := by
  have hrows : ∀ v ∈ settlingWorld.workloads.rows,
      v.id = steadyEnv.workloadID 0 ∨ v.id = steadyEnv.workloadID 8 := by
    decide +kernel
  have htick : settlingWorld.tick = 22 := by decide +kernel
  intro v hv k hk heq
  rw [htick] at hk
  rcases hrows v hv with h | h
  · have := steadyEnv_ids (h.symm.trans heq)
    omega
  · have := steadyEnv_ids (h.symm.trans heq)
    omega

lemma unusedIDs_settlingWorld : UnusedIDs steadyEnv settlingWorld := by
  have hids := Env.deploymentID_injective steadyEnv_clock_pos steadyEnv_clock_injective
  have htick : settlingWorld.tick = 22 := by decide +kernel
  have hne : ∀ k, settlingWorld.tick ≤ k → servingID ≠ steadyEnv.deploymentID k := by
    intro k hk heq
    have := hids heq
    omega
  have hdeps : ∀ d ∈ settlingWorld.deps.rows, d.id = servingID := by decide +kernel
  have hloads : ∀ v ∈ settlingWorld.workloads.rows, v.deploymentID = servingID := by decide +kernel
  intro k hk
  refine ⟨?_, ?_⟩
  · rw [Option.eq_none_iff_forall_ne_some]
    intro d hd
    exact hne k hk ((hdeps d (Table.mem_of_get hd)).symm.trans (Table.key_of_get hd))
  · intro v hv
    rw [hloads v hv]
    exact hne k hk

lemma unstamped_settlingWorld (k : ℕ) (hk : settlingWorld.tick ≤ k) :
    ∀ d ∈ settlingWorld.deps.rows, d.updatedAt ≠ steadyEnv.clock k := by
  have hold : ∀ d ∈ settlingWorld.deps.rows, d.updatedAt < steadyEnv.clock settlingWorld.tick := by
    decide +kernel
  intro d hd heq
  have hlt : d.updatedAt < 1700000000000000000 + (settlingWorld.tick : ℤ) := hold d hd
  have heq' : d.updatedAt = 1700000000000000000 + (k : ℤ) := heq
  rw [heq'] at hlt
  have hlt' : (k : ℤ) < settlingWorld.tick := lt_of_add_lt_add_left hlt
  omega

/-- A creation without a name is refused; and the report that the replica on its way out has
terminated is followed by a true status. -/
theorem status_writers_agree_settling :
    (∀ dep, (createDeployment plainConfig { webSpec with name := "" }).result (exec steadyEnv)
        settlingWorld = .ok dep → StatusTrue dep.id
      ((createDeployment plainConfig { webSpec with name := "" }).final (exec steadyEnv)
        settlingWorld)) ∧
    ∀ id, ((reportWorkloadStatus (steadyEnv.workloadID 0) .terminated "").final (exec steadyEnv)
        settlingWorld).deps.get id ≠ settlingWorld.deps.get id → StatusTrue id
      ((reportWorkloadStatus (steadyEnv.workloadID 0) .terminated "").final (exec steadyEnv)
        settlingWorld) := by
  obtain ⟨hcreate, hreport, -⟩ := status_writers_agree_iff plainConfig steadyEnv_ids
    fresh_settlingWorld unusedIDs_settlingWorld unstamped_settlingWorld { webSpec with name := "" }
    (steadyEnv.workloadID 0) ""
  refine ⟨hcreate.mpr (Or.inl (by decide)), hreport.mpr ?_⟩
  decide +kernel

/-- There is one node and no deployment. -/
def idleWorld : World :=
  (after (Sys.step steadyEnv plainConfig) [.registerNode wideNode] Sys.init).world

/-- Two replicas have been placed on the node. -/
def placedWorld : World :=
  (createDeployment plainConfig (rollingSpec "a" 2 0 1)).final (exec steadyEnv) idleWorld

/-- One of them is reported as terminated. -/
def reducedWorld : World :=
  (reportWorkloadStatus (steadyEnv.workloadID 8) .terminated "").final (exec steadyEnv) placedWorld

/-- The rollout is called complete while both replicas are pending, and again when one is gone. -/
theorem status_writers_disagree :
    ((createDeployment plainConfig (rollingSpec "a" 2 0 1)).result (exec steadyEnv)
        idleWorld).toOption.map Deployment.id = some servingID ∧
      (∃ d, placedWorld.deps.get servingID = some d ∧ d.SaysDone ∧ d.spec.replicas = 2 ∧
        (placedWorld.deployed servingID).map Workload.status = [.pending, .pending] ∧
        ¬ Fulfilled d (placedWorld.deployed servingID)) ∧
      ∃ d, reducedWorld.deps.get servingID = some d ∧ placedWorld.deps.get servingID ≠ some d ∧
        d.SaysDone ∧ (reducedWorld.deployed servingID).map Workload.status = [.pending] ∧
        ¬ Fulfilled d (reducedWorld.deployed servingID) := by
  decide +kernel

end Orchestrator
