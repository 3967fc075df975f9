/-
# Canary gating

With the strategy `Canary`, replicas of a new revision are held back at a share of the wanted
number (`canaryGate`) until that many of them run.  While fewer run and old replicas are active, a
pass terminates nothing and creates new replicas up to the gate only, provided that at least one
replica is wanted: with none wanted, the code clamps the gate to zero, finds it passed and
terminates the old replicas.

Along a run the gate holds as long as no report makes a replica active again that had failed or was
on its way out: the pass in between has replaced it.
-/
import Orchestrator.Properties.Replicas

namespace Orchestrator

open Lib

variable {env : Env} {o : Config} {d : Deployment} {w w' : World}

/-! ### The gate -/

/-- How many replicas of the new revision a canary of `p` percent of `R` replicas holds. -/
def canaryGate (R p : ℤ) : ℤ := max 1 (min R (R * p / 100))

/-- The gate of a deployment. -/
def Deployment.gate (d : Deployment) : ℤ :=
  canaryGate d.prepared.spec.replicas.toInt d.prepared.spec.rollout.canary.percentage.toInt

/-- A deployment with the strategy `Canary`, whose share is a 64-bit number. -/
structure CanaryDeployment (d : Deployment) : Prop where
  strategy : d.prepared.spec.rollout.strategy = .canary
  low : -2 ^ 63 ≤
    d.prepared.spec.replicas.toInt * d.prepared.spec.rollout.canary.percentage.toInt
  high : d.prepared.spec.replicas.toInt * d.prepared.spec.rollout.canary.percentage.toInt < 2 ^ 63

/-- The census of a deployment's workloads, by its current revision. -/
def World.census (w : World) (d : Deployment) : Census :=
  Orchestrator.census d.prepared.currentRevision (w.deployed d.id)

/-- The gate is closed: old replicas are active, and fewer new ones run than the gate asks for. -/
def Gated (d : Deployment) (w : World) : Prop :=
  0 < (w.census d).old ∧ (w.census d).newRunning < d.gate

instance (d : Deployment) (w : World) : Decidable (Gated d w) :=
  inferInstanceAs (Decidable (_ ∧ _))

/-- A normalized canary is enabled, with a share between 1 and 100 percent. -/
lemma CanaryDeployment.normalized (h : CanaryDeployment d) :
    d.prepared.spec.rollout.canary.enabled = true ∧
      1 ≤ d.prepared.spec.rollout.canary.percentage.toInt ∧
      d.prepared.spec.rollout.canary.percentage.toInt ≤ 100 := by
  have hs := h.strategy
  simp only [Deployment.prepared, DeploymentSpec.normalized, normalizeRolloutSpec] at hs ⊢
  rw [if_pos hs]
  refine ⟨rfl, ?_, ?_⟩
  · dsimp only
    split_ifs with h₁ h₂ h₂
    · decide
    · decide
    · decide
    · rw [Int64.le_iff_toInt_le, Int64.toInt_zero] at h₁
      omega
  · dsimp only
    split_ifs with h₁ h₂ h₂
    · decide
    · decide
    · decide
    · rw [gt_iff_lt, Int64.lt_iff_toInt_lt, not_lt] at h₂
      exact h₂

/-- The target of the code, without the wrap-around. -/
lemma CanaryDeployment.target_eq (h : CanaryDeployment d) :
    let R := d.prepared.spec.replicas.toInt
    let t := (R * d.prepared.spec.rollout.canary.percentage.toInt).tdiv 100
    canaryTarget d.prepared.spec = min (if t ≤ 0 then 1 else t) R := by
  have hwrap := Int64.toInt_ofInt_of_le h.low h.high
  simp only [canaryTarget, wrap64, hwrap]

/-- If replicas are wanted, the target of the code is the gate. -/
lemma CanaryDeployment.target_of_pos (h : CanaryDeployment d)
    (hR : 0 < d.prepared.spec.replicas.toInt) : canaryTarget d.prepared.spec = d.gate := by
  obtain ⟨-, hp₁, hp₂⟩ := h.normalized
  rw [h.target_eq, Deployment.gate, canaryGate]
  generalize d.prepared.spec.replicas.toInt = R at hR ⊢
  generalize d.prepared.spec.rollout.canary.percentage.toInt = p at hp₁ hp₂ ⊢
  have hprod : 0 ≤ R * p := by positivity
  have hle : R * p / 100 ≤ R :=
    Int.ediv_le_of_le_mul (by decide) (Int.mul_le_mul_of_nonneg_left hp₂ hR.le)
  rw [Int.tdiv_eq_ediv_of_nonneg hprod]
  omega

/-- If none are wanted, the target of the code is not positive: the gate is always open. -/
lemma CanaryDeployment.target_of_nonpos (h : CanaryDeployment d)
    (hR : d.prepared.spec.replicas.toInt ≤ 0) : canaryTarget d.prepared.spec ≤ 0 := by
  rw [h.target_eq]
  exact (min_le_right _ _).trans hR

lemma runningCount_forRevision {l : List Workload} {rev : ℤ} :
    runningCount (activeForRevision l rev) = (census rev l).newRunning := by
  rw [runningCount, activeForRevision, List.countP_filter, census]
  simp only [Bool.and_comm]

lemma oldActive_eq {l : List Workload} {rev : ℤ} :
    ((activeWorkloads l).length : ℤ) - (activeForRevision (activeWorkloads l) rev).length =
      (census rev l).old := by
  rw [length_active rev, length_newActive, Census.total]
  omega

/-- The plan of a pass at the closed gate. -/
lemma Gated.plan (hg : Gated d w) (h : CanaryDeployment d) :
    let plan := rolloutPlan d.prepared (w.deployed d.prepared.id)
    (0 < d.prepared.spec.replicas.toInt →
      plan.phase = .canary ∧ plan.toCreate ≤ max 0 (d.gate - (w.census d).new)) ∧
    (d.prepared.spec.replicas.toInt ≤ 0 → plan.phase = .canaryPromoting ∧ plan.toCreate = 0) := by
  intro plan
  have hcanary : d.prepared.spec.rollout.strategy = .canary ∧
      d.prepared.spec.rollout.canary.enabled = true ∧
      ((activeWorkloads (w.deployed d.prepared.id)).length : ℤ) -
        (activeForRevision (activeWorkloads (w.deployed d.prepared.id))
          d.prepared.currentRevision).length > 0 := by
    refine ⟨h.strategy, h.normalized.1, ?_⟩
    rw [oldActive_eq]
    exact_mod_cast hg.1
  have hnew : (activeForRevision (activeWorkloads (w.deployed d.prepared.id))
      d.prepared.currentRevision).length = (w.census d).new := length_newActive
  have hrun : runningCount (activeForRevision (w.deployed d.prepared.id)
      d.prepared.currentRevision) = (w.census d).newRunning := runningCount_forRevision
  constructor
  · intro hR
    have hclosed : ¬ runningCount (activeForRevision (w.deployed d.prepared.id)
        d.prepared.currentRevision) ≥ canaryTarget d.prepared.spec := by
      rw [hrun, h.target_of_pos hR]
      exact not_le.mpr hg.2
    simp only [plan, rolloutPlan, if_pos hcanary, if_neg hclosed]
    rw [hnew, h.target_of_pos hR]
    exact ⟨trivial, min_le_left _ _⟩
  · intro hR
    have hopen : runningCount (activeForRevision (w.deployed d.prepared.id)
        d.prepared.currentRevision) ≥ canaryTarget d.prepared.spec := by
      rw [hrun]
      exact (h.target_of_nonpos hR).trans (Int.natCast_nonneg _)
    simp only [plan, rolloutPlan, if_pos hcanary, if_pos hopen]
    exact ⟨trivial, by omega⟩

/-! ### One pass at the closed gate -/

/-- The pass holds the canary: it keeps every workload of the deployment, and leaves no more
active new replicas than there were or the gate allows. -/
def HoldsCanary (d : Deployment) (w w' : World) : Prop :=
  (∀ v ∈ w.deployed d.id, v ∈ w'.deployed d.id) ∧
    ((w'.census d).new : ℤ) ≤ max ((w.census d).new : ℤ) d.gate

lemma Enlarged.subset {dep : Deployment} {n : ℕ} (h : Enlarged dep n w w') {v : Workload}
    (hv : v ∈ w.deployed dep.id) : v ∈ w'.deployed dep.id := by
  obtain ⟨vs, -, -, hperm⟩ := h
  exact hperm.mem_iff.mpr (List.mem_append_right _ hv)

/-- A pass past its deadline leaves the workloads alone. -/
lemma Reconciled.deployed_of_past (h : Reconciled env o d w w')
    (hpast : PastDeadline env d.prepared w) : w'.deployed d.id = w.deployed d.id := by
  have hq := quiet_afterDeadlineCheck env d.prepared w
  rcases h with ⟨-, h | ⟨_, _, -, h⟩⟩ | ⟨hno, -⟩
  · exact (h.deployed _).trans (hq.deployed _)
  · exact (h.deployed _).trans (hq.deployed _)
  · exact absurd hpast hno

/-- Nothing is planned and no canary is held: the pass prunes. -/
lemma prunes_of_idle (hpast : ¬ PastDeadline env d.prepared w)
    (hphase : (rolloutPlan d.prepared (w.deployed d.prepared.id)).phase ≠ .canary)
    (hidle : (rolloutPlan d.prepared (w.deployed d.prepared.id)).toCreate = 0) :
    Prunes env o d.prepared w := by
  refine ⟨hpast, hphase, ?_⟩
  rw [hidle]
  rfl

/-- At the closed gate the new revision does not grow beyond it. -/
lemma Gated.new_le (hids : Function.Injective env.workloadID) (hw : Fresh env w)
    (hg : Gated d w) (h : CanaryDeployment d) (hpass : Reconciled env o d w w') :
    ((w'.census d).new : ℤ) ≤ max ((w.census d).new : ℤ) d.gate := by
  by_cases hpast : PastDeadline env d.prepared w
  · rw [World.census, hpass.deployed_of_past hpast]
    exact le_max_left _ _
  obtain ⟨j, w₁, hj, hgrow, hend⟩ := hpass.stages hids hw hpast
  obtain ⟨hpos, hnonpos⟩ := hg.plan h
  by_cases hR : 0 < d.prepared.spec.replicas.toInt
  · obtain ⟨hphase, hcreate⟩ := hpos hR
    obtain ⟨-, hsame⟩ := hend.resolve_right fun h => h.1.2.1 hphase
    have hnew : (w'.census d).new = (w.census d).new + j := by
      have hsame' : w'.deployed d.id = w₁.deployed d.prepared.id := hsame
      rw [World.census, hsame', hgrow.census_eq]
      exact (Nat.add_assoc _ _ _).symm
    rw [hnew]
    omega
  · obtain ⟨hphase, hcreate⟩ := hnonpos (not_lt.mp hR)
    have hprunes : Prunes env o d.prepared w :=
      prunes_of_idle hpast (by rw [hphase]; decide) hcreate
    obtain ⟨-, -, w₂, hscale, hsame⟩ := hend.resolve_left fun h => h.1 hprunes
    have hle := (hgrow.rolled hscale).total_le
    rw [← hsame] at hle
    have hle' : ((w'.census d).total : ℤ) ≤ max 0 d.prepared.spec.replicas.toInt := hle
    simp only [Census.total] at hle'
    omega

/-- **One pass** at the closed gate holds the canary exactly if replicas are wanted, or the
rollout is past its deadline. -/
lemma holdsCanary_iff (hids : Function.Injective env.workloadID) (hw : Fresh env w)
    (hg : Gated d w) (h : CanaryDeployment d) (hpass : Reconciled env o d w w') :
    HoldsCanary d w w' ↔
      0 < d.prepared.spec.replicas.toInt ∨ PastDeadline env d.prepared w := by
  have hnew := hg.new_le hids hw h hpass
  obtain ⟨hpos, hnonpos⟩ := hg.plan h
  by_cases hpast : PastDeadline env d.prepared w
  · refine ⟨fun _ => Or.inr hpast, fun _ => ⟨?_, hnew⟩⟩
    rw [hpass.deployed_of_past hpast]
    exact fun v hv => hv
  obtain ⟨j, w₁, hj, hgrow, hend⟩ := hpass.stages hids hw hpast
  by_cases hR : 0 < d.prepared.spec.replicas.toInt
  · refine ⟨fun _ => Or.inl hR, fun _ => ⟨?_, hnew⟩⟩
    obtain ⟨-, hsame⟩ := hend.resolve_right fun h => h.1.2.1 (hpos hR).1
    intro v hv
    have hsame' : w'.deployed d.id = w₁.deployed d.prepared.id := hsame
    rw [hsame']
    exact hgrow.subset hv
  · refine ⟨fun hheld => ?_, fun h => (h.elim hR hpast).elim⟩
    -- the gate is open for the code, and everything is terminated
    obtain ⟨hphase, hcreate⟩ := hnonpos (not_lt.mp hR)
    have hprunes : Prunes env o d.prepared w :=
      prunes_of_idle hpast (by rw [hphase]; decide) hcreate
    obtain ⟨-, -, w₂, hscale, hsame⟩ := hend.resolve_left fun h => h.1 hprunes
    have hle := (hgrow.rolled hscale).total_le
    rw [← hsame, ← length_active] at hle
    have hold : 0 < (oldRevisionWorkloads (w.activeOf d.id) d.prepared.currentRevision).length := by
      rw [World.activeOf, length_oldActive]
      exact hg.1
    obtain ⟨v, hv⟩ := List.exists_mem_of_length_pos hold
    have hactive := (List.mem_filter.mp hv).1
    have hkept : v ∈ w'.activeOf d.id := List.mem_filter.mpr
      ⟨hheld.1 v (mem_deployed_of_activeOf hactive), activeOf_active hactive⟩
    have hlen : 0 < (activeWorkloads (w'.deployed d.prepared.id)).length :=
      List.length_pos_of_mem hkept
    omega

/-! ### Runs of passes and reports -/

/-- What happens in a run: a pass for some deployment, or a report on a workload. -/
inductive Turn
  | pass (deploymentID : String)
  | report (workloadID : String) (status : WorkloadStatus) (containerID : String)

/-- The state after a turn. -/
def turnStep (env : Env) (o : Config) (t : Turn) (w : World) : World :=
  match t with
  | .pass deploymentID => (reconcileDeployment o deploymentID).final (exec env) w
  | .report workloadID status containerID =>
    (reportWorkloadStatus workloadID status containerID).final (exec env) w

/-- The specification and the revision of the stored deployment are those of `d`. -/
def SameRollout (d : Deployment) (w : World) : Prop :=
  ∀ d' ∈ w.deps.get d.id,
    d'.prepared.spec = d.prepared.spec ∧ d'.prepared.currentRevision = d.prepared.currentRevision

/-- The specification is fixed, and a pass for the deployment finds the gate closed. -/
def Unpassed (d : Deployment) (t : Turn) (w : World) : Prop :=
  SameRollout d w ∧
    match t with
    | .pass deploymentID => deploymentID = d.id → Gated d w
    | .report _ _ _ => True

/-- A report makes no replica of the current revision active that is not. -/
def NoRevival (d : Deployment) (t : Turn) (w : World) : Prop :=
  match t with
  | .pass _ => True
  | .report workloadID status _ => ∀ v ∈ w.workloads.get workloadID, v.deploymentID = d.id →
      v.version = d.prepared.currentRevision → status = .running ∨ status = .pending →
      v.active = true

instance (d : Deployment) (t : Turn) (w : World) : Decidable (Unpassed d t w) :=
  match t with
  | .pass id => inferInstanceAs (Decidable ((∀ d' ∈ w.deps.get d.id, _ ∧ _) ∧ (id = d.id → _)))
  | .report _ _ _ => inferInstanceAs (Decidable ((∀ d' ∈ w.deps.get d.id, _ ∧ _) ∧ True))

instance (d : Deployment) (t : Turn) (w : World) : Decidable (NoRevival d t w) :=
  match t with
  | .pass _ => inferInstanceAs (Decidable True)
  | .report id _ _ => inferInstanceAs (Decidable (∀ v ∈ w.workloads.get id, _ → _ → _ → _))

/-- The active replicas of the current revision, counted over all workloads. -/
lemma census_new_eq_countP (d : Deployment) (w : World) : (w.census d).new =
    w.workloads.rows.countP fun v =>
      decide (v.deploymentID = d.id) && (decide (v.version = d.prepared.currentRevision) &&
        v.active) := by
  have hnew : (w.census d).new = (activeForRevision (activeWorkloads (w.deployed d.id))
      d.prepared.currentRevision).length := length_newActive.symm
  rw [hnew, activeForRevision, activeWorkloads, World.deployed, List.filter_filter,
    List.filter_filter, List.countP_eq_length_filter]
  congr 2
  funext v
  rw [Bool.and_comm]

lemma Workload.active_reported {u : Workload} {status : WorkloadStatus} {cid : String} {now : Time}
    (h : Workload.active { u.reported status cid with updatedAt := now } = true) :
    status = .running ∨ status = .pending := by
  simp only [Workload.active, Workload.reported, Bool.or_eq_true] at h
  exact h.imp of_decide_eq_true of_decide_eq_true

/-- A report that revives nothing adds no active replica. -/
lemma Reported.new_le {wid : String} {status : WorkloadStatus} (h : Reported wid status w w')
    (hrev : ∀ v ∈ w.workloads.get wid, v.deploymentID = d.id →
      v.version = d.prepared.currentRevision → status = .running ∨ status = .pending →
      v.active = true) : (w'.census d).new ≤ (w.census d).new := by
  rw [census_new_eq_countP, census_new_eq_countP]
  rcases h.rows with hsame | ⟨u, hu, ⟨-, cid, now, hrows⟩ | ⟨-, hrows⟩⟩
  · rw [hsame]
  · rw [hrows, List.countP_map]
    refine List.countP_mono_left ?_
    intro x hx hcount
    dsimp only [Function.comp_apply] at hcount
    split_ifs at hcount with hxu
    · obtain rfl := Table.eq_of_mem_of_key_eq hx (Table.mem_of_get hu) hxu
      simp only [Bool.and_eq_true, decide_eq_true_eq] at hcount ⊢
      obtain ⟨hdep, hver, hactive⟩ := hcount
      exact ⟨hdep, hver, hrev x hu hdep hver (Workload.active_reported hactive)⟩
    · exact hcount
  · rw [hrows]
    exact List.filter_sublist.countP_le

/-- A pass for another deployment adds none either. -/
lemma Reconciled.new_le_of_ne {e : Deployment} (hids : Function.Injective env.workloadID)
    (hw : Fresh env w) (h : Reconciled env o e w w') (hne : e.id ≠ d.id) :
    (w'.census d).new ≤ (w.census d).new := by
  have hspared := h.spared hids hw
  have hsub : w'.deployed d.id ⊆ w.deployed d.id := by
    intro v hv
    obtain ⟨hv, hdep⟩ := mem_deployed.mp hv
    have hother : v.deploymentID ≠ e.prepared.id := fun h => hne (h.symm.trans hdep)
    rcases hspared.known v hv with ⟨u, hu, -, -, rfl | ⟨-, hown⟩⟩ | ⟨k, -, -, hown, -⟩
    · exact mem_deployed.mpr ⟨hu, hdep⟩
    · exact absurd hown hother
    · exact absurd hown hother
  have hnd : (w'.deployed d.id).Nodup := List.Nodup.of_map _ (nodup_deployed w' d.id)
  have hperm := hnd.subperm hsub
  exact Nat.add_le_add (hperm.countP_le _) (hperm.countP_le _)

/-- One turn: the new revision does not grow beyond the gate. -/
lemma turnStep_new_le (hids : Function.Injective env.workloadID) (h : CanaryDeployment d)
    (hw : Fresh env w) {t : Turn} (ht : Unpassed d t w) (hrev : NoRevival d t w) :
    Fresh env (turnStep env o t w) ∧
      (((turnStep env o t w).census d).new : ℤ) ≤ max ((w.census d).new : ℤ) d.gate := by
  cases t with
  | pass id =>
    cases hd : w.deps.get id with
    | none =>
      rw [turnStep, reconcileDeployment_final_of_none hd]
      exact ⟨hw, le_max_left _ _⟩
    | some e =>
      have hpass : Reconciled env o e w _ := reconciled_final hd
      refine ⟨(hpass.running hids hw).1, ?_⟩
      obtain rfl : e.id = id := Table.key_of_get hd
      by_cases hid : e.id = d.id
      · -- the deployment itself, with the specification and the revision of `d`
        have hd' : w.deps.get d.id = some e := hid ▸ hd
        obtain ⟨hspec, hrev⟩ := ht.1 e hd'
        have hgate : e.gate = d.gate := by rw [Deployment.gate, Deployment.gate, hspec]
        have hcensus : ∀ x : World, x.census e = x.census d := by
          intro x
          rw [World.census, World.census, hid, hrev]
        have hcanary : CanaryDeployment e := by
          refine ⟨?_, ?_, ?_⟩
          · rw [hspec]
            exact h.strategy
          · rw [hspec]
            exact h.low
          · rw [hspec]
            exact h.high
        have hgated : Gated e w := by
          rw [Gated, hcensus, hgate]
          exact ht.2 hid
        have hle := hgated.new_le hids hw hcanary hpass
        rwa [hcensus, hcensus, hgate] at hle
      · exact le_max_of_le_left (by exact_mod_cast hpass.new_le_of_ne hids hw hid)
  | report wid status cid =>
    have hrep := reported_final env wid status cid w
    exact ⟨hrep.fresh hw, le_max_of_le_left (by exact_mod_cast hrep.new_le hrev)⟩

/-- **Canary gating.**  At the closed gate a pass terminates nothing and lets the new revision
grow up to the gate, exactly if replicas are wanted or the rollout is past its deadline.  Along
every run of passes and reports that starts without replicas of the new revision, in which no
pass for the deployment has found the gate open and no report has revived a replica, the active
replicas of the new revision stay within the gate. -/
theorem canary_gating (o : Config) (hids : Function.Injective env.workloadID) (id : String) :
    (∀ w d, Fresh env w → w.deps.get id = some d → CanaryDeployment d → Gated d w →
      (HoldsCanary d w ((reconcileDeployment o id).final (exec env) w) ↔
        0 < d.prepared.spec.replicas.toInt ∨ PastDeadline env d.prepared w)) ∧
    ∀ w w' d, Fresh env w → CanaryDeployment d →
      (∀ v ∈ w.deployed d.id, v.version ≠ d.prepared.currentRevision) →
      Runs (turnStep env o) (fun t x => Unpassed d t x ∧ NoRevival d t x) w w' →
      ((w'.census d).new : ℤ) ≤ d.gate := by
  constructor
  · intro w d hw hd hcanary hg
    obtain rfl : d.id = id := Table.key_of_get hd
    exact holdsCanary_iff hids hw hg hcanary (reconciled_final hd)
  · intro w w' d hw hcanary hnone hrun
    have hstart : (w.census d).new = 0 := by
      rw [World.census, ← length_newActive, List.length_eq_zero_iff, activeForRevision,
        List.filter_eq_nil_iff]
      intro v hv
      simpa using hnone v (List.mem_filter.mp hv).1
    have hpos : 1 ≤ d.gate := le_max_left _ _
    have hall : Fresh env w' ∧ ((w'.census d).new : ℤ) ≤ d.gate := by
      refine hrun.invariant (I := fun x => Fresh env x ∧ ((x.census d).new : ℤ) ≤ d.gate)
        ⟨hw, by omega⟩ ?_
      rintro t x ⟨hx, hle⟩ ⟨ht, hrev⟩
      obtain ⟨hx', hle'⟩ := turnStep_new_le hids hcanary hx ht hrev
      exact ⟨hx', hle'.trans (max_le hle le_rfl)⟩
    exact hall.2

/-! ### A canary of two replicas -/

/-- A deployment of two replicas that is updated with a canary of one half. -/
def canarySpec (image : String) : DeploymentSpec :=
  { rollingSpec image 2 1 0 with
    rollout := { strategy := .canary, rollingUpdate := { maxSurge := 1 },
                 canary := { percentage := 50 } } }

def canaryWorld : World := updatedWorld (canarySpec "a") (canarySpec "b")

/-- The first replica of the new revision starts. -/
def canaryRun : List Turn :=
  [.pass servingID, .report (steadyEnv.workloadID 36) .running "c9"]

/-- The first replica of the new revision fails and is replaced; then it is reported as running. -/
def revivalRun : List Turn :=
  [.pass servingID, .report (steadyEnv.workloadID 36) .failed "", .pass servingID,
    .report (steadyEnv.workloadID 36) .running "c9"]

/-- What a run from the updated state starts with, and that it is admissible. -/
def StartsCanary (ok : Deployment → Turn → World → Prop) (run : List Turn) (d : Deployment) : Prop :=
  d.id = servingID ∧ d.prepared.spec.rollout.strategy = .canary ∧
    (-2 ^ 63 ≤ d.prepared.spec.replicas.toInt *
        d.prepared.spec.rollout.canary.percentage.toInt ∧
      d.prepared.spec.replicas.toInt * d.prepared.spec.rollout.canary.percentage.toInt < 2 ^ 63) ∧
    (∀ v ∈ canaryWorld.deployed d.id, v.version ≠ d.prepared.currentRevision) ∧
    Admissible (turnStep steadyEnv plainConfig) (ok d) run canaryWorld

instance (ok : Deployment → Turn → World → Prop) [∀ d t w, Decidable (ok d t w)] (run : List Turn)
    (d : Deployment) : Decidable (StartsCanary ok run d) :=
  inferInstanceAs (Decidable (_ ∧ _))

/-- The canary of one replica is held, and one replica of the new revision starts. -/
theorem canary_gating_two :
    ∃ d, canaryWorld.deps.get servingID = some d ∧ d.gate = 1 ∧ Gated d canaryWorld ∧
      HoldsCanary d canaryWorld (passOnce canaryWorld) ∧
      (((after (turnStep steadyEnv plainConfig) canaryRun canaryWorld).census d).new : ℤ) ≤ 1 := by
  obtain ⟨d, hd, ⟨hgate, hgated, hpos⟩, -, hstrat, ⟨hlow, hhigh⟩, hnone, hrun⟩ :
      ∃ d, canaryWorld.deps.get servingID = some d ∧
      (d.gate = 1 ∧ Gated d canaryWorld ∧ 0 < d.prepared.spec.replicas.toInt) ∧
      StartsCanary (fun d t x => Unpassed d t x ∧ NoRevival d t x) canaryRun d := by
    decide +kernel
  have hw : Fresh steadyEnv canaryWorld := fresh_after _
  obtain ⟨hpass, hruns⟩ := canary_gating plainConfig steadyEnv_ids servingID
  have hcanary : CanaryDeployment d := ⟨hstrat, hlow, hhigh⟩
  refine ⟨d, hd, hgate, hgated, (hpass _ d hw hd hcanary hgated).mpr (Or.inl hpos), ?_⟩
  have hle := hruns _ _ d hw hcanary hnone (Runs.of_list canaryRun hrun)
  rwa [hgate] at hle

/-- Two replicas of the new revision are active at a gate of one, although no pass has found the
gate open. -/
theorem canary_gate_overrun :
    ∃ d, canaryWorld.deps.get servingID = some d ∧ d.gate = 1 ∧
      StartsCanary Unpassed revivalRun d ∧
      ((after (turnStep steadyEnv plainConfig) revivalRun canaryWorld).census d).new = 2 := by
  decide +kernel

end Orchestrator
