/-
# After the deadline of a rollout

A pass that finds a rollout in progress past its deadline stores the status `Failed` and the phase
`Failed`.  That phase is not one of a rollout in progress, so the next pass does not look at the
deadline.  It goes on with the rollout and stores `Running` or `Pending`, and with `Pending` a
phase that the pass after it takes for a rollout in progress again.

Hence the verdict alternates as long as the rollout is not complete, and it is right after the
first pass and after all passes that follow only as stated in `expired_status_iff`.
-/
import Mathlib.Data.List.Nodup
import Orchestrator.Logic.Verdict
import Orchestrator.System

namespace Orchestrator

open Lib

variable {env : Env} {P : Rules} {o : Config} {d dep : Deployment} {w w' : World} {id : String}

/-! ### The deadline -/

/-- A rollout that is not in progress has no deadline. -/
lemma not_pastDeadline (h : isRolloutInProgress dep.rolloutStatus.phase = false) :
    ¬ PastDeadline env dep w := by
  intro hpast
  have hoff : progressDeadlineExceeded dep = pure false :=
    if_neg fun hon => Bool.false_ne_true (h.symm.trans hon.1)
  rw [PastDeadline, hoff] at hpast
  cases hpast

/-- A status of the deployment `dep`. -/
structure Settles (dep : Deployment) (status : DeploymentStatus) (phase : RolloutPhase)
    (d : Deployment) : Prop where
  core : d.core = dep.core
  status : d.status = status
  phase : d.rolloutStatus.phase = phase

lemma Settles.viaJSON {status : DeploymentStatus} {phase : RolloutPhase}
    (h : Settles dep status phase d) : d.viaJSON.core = dep.core.viaJSON ∧
      d.viaJSON.status = status ∧ d.viaJSON.rolloutStatus.phase = phase :=
  ⟨by rw [core_viaJSON, h.core], h.status, h.phase⟩

/-- The record of a rollout that is past its deadline, without automatic rollback. -/
lemma failRollout_settles (dep : Deployment)
    (hauto : dep.spec.rollout.autoRollbackOnFailure = false) (w : World) :
    Returns env P (failRollout dep) w fun _ w' => w'.workloads = w.workloads ∧
      ∃ d, Settles dep .failed .failed d ∧ w'.deps = w.deps.put d.viaJSON := by
  refine stamp_bind fun t₁ w₁ q₁ => stamp_bind fun t₂ w₂ q₂ => stamp_bind fun t₃ w₃ q₃ => ?_
  have hkeep : ∀ d : Deployment, d.spec = dep.spec → Returns env P
      (if d.spec.rollout.autoRollbackOnFailure ∧ d.currentRevision > 1 then
        rollbackDeploymentLocked d (d.currentRevision - 1)
          "Automatic rollback after progress deadline exceeded"
      else pure d) w₃ fun d' w' => d' = d ∧ w' = w₃ := by
    intro d hd
    rw [if_neg fun h => Bool.false_ne_true (hauto.symm.trans (hd ▸ h.1))]
    exact returns_pure ⟨rfl, rfl⟩
  refine Returns.bind (hkeep _ ?_) ?_
  · rfl
  rintro _ _ ⟨rfl, rfl⟩
  refine stamp_bind fun t₄ w₄ q₄ => ?_
  have hq : Quiet w w₄ := ((q₁.trans q₂).trans q₃).trans q₄
  refine (updateDeployment_returns _ w₄).mono fun _ w₅ he => ⟨?_, ?_⟩
  · rw [he.workloads, hq.workloads]
  · rw [hq.deps] at he
    refine ⟨_, ?_, he.deps⟩
    exact ⟨rfl, rfl, rfl⟩

/-! ### A pass within the deadline -/

lemma settles_stableStatus (d : Deployment) :
    Drafts (Settles d .running .stable) (stableStatus d) :=
  .timeNow fun _ => .timeNow fun _ => .timeNow fun _ => .pure ⟨rfl, rfl, rfl⟩

lemma settles_progressStatus (d : Deployment) (phase : RolloutPhase) (message : String)
    (available : Bool) :
    Drafts (Settles d (if available then .running else .pending)
      (if available then .stable else phase)) (progressStatus d phase message available) := by
  refine .timeNow fun _ => .timeNow fun _ => ?_
  cases available with
  | true => exact .timeNow fun _ => .timeNow fun _ => .pure ⟨rfl, rfl, rfl⟩
  | false => exact .pure ⟨rfl, rfl, rfl⟩

/-- The status at the end of a pass. -/
lemma settles_rolloutStatus (d : Deployment) (phase : RolloutPhase) (active : List Workload) :
    Drafts (Settles d (if Complete d active then .running else .pending)
      (if Complete d active then .stable else phase)) (rolloutStatus d phase active) := by
  refine drafts_rolloutStatus ?_ ?_ ?_
  · intro hcomplete
    rw [if_pos hcomplete, if_pos hcomplete]
    exact settles_stableStatus d
  · intro message
    have hpost := settles_progressStatus d phase message (decide (Complete d active))
    simpa only [decide_eq_true_eq] using hpost
  · exact fun d' status t h hphase => ⟨h.core, h.status, hphase.trans h.phase⟩

/-- What a pass that does not find the rollout past its deadline says of it. -/
structure Judged (dep : Deployment) (w : World) (d : Deployment) : Prop where
  core : d.core = dep.core.viaJSON
  complete : Complete dep (w.activeOf dep.id) → d.status = .running ∧ d.rolloutStatus.phase = .stable
  incomplete : ¬ Complete dep (w.activeOf dep.id) →
    d.status = .pending ∧ isRolloutInProgress d.rolloutStatus.phase = true

lemma finishPass_judges {plan : RolloutPlan} (hplan : isRolloutInProgress plan.phase = true)
    (w : World) : Returns env P (finishPass dep plan) w fun _ w' => ∃ d',
      w'.deps.get dep.id = some d' ∧ Judged dep w' d' := by
  refine deployed_bind ((prune_returns dep plan w).bind fun _ w₁ _ => ?_)
  refine deployed_bind (((settles_rolloutStatus dep plan.phase _).store_returns w₁).mono ?_)
  rintro _ w₂ ⟨d', h, he⟩
  obtain ⟨hcore, hstatus, hphase⟩ := h.viaJSON
  have hactive : w₂.activeOf dep.id = activeWorkloads (w₁.deployed dep.id) := by
    rw [World.activeOf, he.deployed]
    rfl
  have hid : d'.id = dep.id := congrArg DepCore.id h.core
  refine ⟨d'.viaJSON, ?_, hcore, fun hc => ?_, fun hc => ?_⟩
  · rw [he.deps, ← hid]
    exact Table.get_put_self _ d'.viaJSON
  · rw [hactive] at hc
    rw [hstatus, hphase, if_pos hc, if_pos hc]
    exact ⟨rfl, rfl⟩
  · rw [hactive] at hc
    rw [hstatus, hphase, if_neg hc, if_neg hc]
    exact ⟨rfl, hplan⟩

/-- What runs in `w'` is stored in `w`. -/
def RunsAlready (w w' : World) : Prop :=
  ∀ v ∈ w'.workloads.rows, v.status = .running → v ∈ w.workloads.rows

lemma RunsAlready.of_eq (h : w'.workloads = w.workloads) : RunsAlready w w' :=
  fun _ hv _ => h ▸ hv

lemma RunsAlready.trans {w₁ : World} (h : RunsAlready w w₁) (h' : RunsAlready w₁ w') :
    RunsAlready w w' :=
  fun v hv hrun => h v (h' v hv hrun) hrun

lemma RunsAlready.del {k : String} (h : w'.workloads = w.workloads.del k) : RunsAlready w w' := by
  intro v hv _
  rw [h, Table.mem_rows_del] at hv
  exact hv.1

/-- No replica runs when it is created. -/
lemma Creation.runsAlready {r : Except Err Unit} (h : Creation env dep w r w') :
    RunsAlready w w' := by
  rcases h with ⟨-, ⟨w₁, hc, n, v, k, seen, A, -, -, hv, -, -, -, he⟩, -⟩ |
    ⟨-, -, h | ⟨v, n, seen, -, h⟩⟩
  · have hcleared : RunsAlready w w₁ := by
      rcases hc with ⟨-, h⟩ | ⟨-, v, n, seen, -, h⟩
      · exact .of_eq (Eff.workloads h)
      · exact .del h.workloads
    refine hcleared.trans fun u hu hrun => ?_
    rw [he.workloads, Table.mem_rows_put] at hu
    rcases hu with rfl | ⟨hu, -⟩
    · exact absurd (hv.status.symm.trans hrun) (by decide)
    · exact hu
  · exact .of_eq (Eff.workloads h)
  · exact .del h.workloads

lemma PlacedMany.runsAlready {n : ℕ} (h : PlacedMany env dep n w w') : RunsAlready w w' := by
  induction h with
  | zero w => exact .of_eq rfl
  | succ h _ ih => exact h.runsAlready.trans ih

/-- The number of new replicas that are wanted is never above the number of all. -/
lemma rolloutPlan_target_le (dep : Deployment) (l : List Workload) :
    (rolloutPlan dep l).target ≤ dep.spec.replicas.toInt := by
  unfold rolloutPlan
  dsimp only
  split_ifs
  · exact le_rfl
  · exact min_le_right _ _
  · exact le_rfl

/-- If a replica is to be created, the rollout is not complete before it runs. -/
lemma not_complete_of_create {l l' : List Workload}
    (hcreate : 0 < (rolloutPlan dep l).toCreate) (hnodup : (l'.map Workload.id).Nodup)
    (hrun : ∀ v ∈ l', v.status = .running → v ∈ l) : ¬ Complete dep (activeWorkloads l') := by
  rintro ⟨hready, hold⟩
  have hneeded : (rolloutPlan dep l).toCreate ≤
      max 0 ((rolloutPlan dep l).target - (activeForRevision (activeWorkloads l)
        dep.currentRevision).length) := min_le_left _ _
  have htarget := rolloutPlan_target_le dep l
  have hsub : (runningCount (activeWorkloads l')) ≤
      (activeForRevision (activeWorkloads l) dep.currentRevision).length := by
    have hcount : runningCount (activeWorkloads l') =
        ((activeWorkloads l').filter fun v => v.status = .running).length := by
      rw [runningCount, List.countP_eq_length_filter]
    have hnodup' : ((activeWorkloads l').filter fun v => v.status = .running).Nodup :=
      ((hnodup.of_map _).filter _).filter _
    rw [hcount, Nat.cast_le]
    refine (List.subperm_of_subset hnodup' fun v hv => ?_).length_le
    obtain ⟨hv', hstatus⟩ := List.mem_filter.mp hv
    obtain ⟨hmem, hactive⟩ := List.mem_filter.mp hv'
    have hver : v.version = dep.currentRevision := by
      by_contra hne
      have hold' := List.eq_nil_of_length_eq_zero hold
      exact List.filter_eq_nil_iff.mp hold' v hv' (by simpa using hne)
    refine List.mem_filter.mpr ⟨List.mem_filter.mpr ⟨?_, hactive⟩, by simpa using hver⟩
    exact hrun v hmem (by simpa using hstatus)
  omega

/-- The record of a pass that could not place a replica. -/
lemma placementFailed_settles (phase : RolloutPhase) (e : Err) (w : World) :
    Returns env P (placementFailed dep phase e) w fun _ w' => w'.workloads = w.workloads ∧
      ∃ d, Settles dep .pending phase d ∧ w'.deps = w.deps.put d.viaJSON := by
  refine stamp_bind fun t₁ w₁ q₁ => stamp_bind fun t₂ w₂ q₂ => stamp_bind fun t₃ w₃ q₃ =>
    stamp_bind fun t₄ w₄ q₄ => ?_
  have hq : Quiet w w₄ := ((q₁.trans q₂).trans q₃).trans q₄
  refine (updateDeployment_returns _ w₄).mono fun _ w₅ he => ⟨?_, ?_⟩
  · rw [he.workloads, hq.workloads]
  · rw [hq.deps] at he
    refine ⟨_, ?_, he.deps⟩
    exact ⟨rfl, rfl, rfl⟩

lemma rolloutPlan_inProgress (dep : Deployment) (l : List Workload) :
    isRolloutInProgress (rolloutPlan dep l).phase = true := by
  unfold rolloutPlan
  dsimp only
  split_ifs <;> rfl

/-- **A pass within the deadline** says that the rollout is complete exactly if it is. -/
lemma reconcileReplicas_judges (dep : Deployment) (w : World) :
    Returns env Rules.any (reconcileReplicas o dep) w fun _ w' => ∃ d',
      w'.deps.get dep.id = some d' ∧ Judged dep w' d' := by
  have hplan := rolloutPlan_inProgress dep (w.deployed dep.id)
  refine deployed_bind ((createReplicas_returns _ (allows_any _ _)).bind ?_)
  rintro (_ | e) w₁ hc
  · exact finishPass_judges hplan w₁
  obtain ⟨j, w₂, hj, hplaced, hfailed⟩ := hc
  refine (placementFailed_settles _ e w₁).mono ?_
  rintro _ w₃ ⟨hworkloads, d', h, hdeps⟩
  obtain ⟨hcore, hstatus, hphase⟩ := h.viaJSON
  have hid : d'.id = dep.id := congrArg DepCore.id h.core
  have hrun : RunsAlready w w₃ :=
    (hplaced.runsAlready.trans hfailed.runsAlready).trans (.of_eq hworkloads)
  have hnot : ¬ Complete dep (w₃.activeOf dep.id) := by
    refine not_complete_of_create (l := w.deployed dep.id) (by omega) (nodup_deployed w₃ dep.id) ?_
    intro v hv hstatus
    obtain ⟨hmem, hdep⟩ := mem_deployed.mp hv
    exact mem_deployed.mpr ⟨hrun v hmem hstatus, hdep⟩
  refine ⟨d'.viaJSON, ?_, hcore, fun hc => absurd hc hnot, fun _ => ⟨hstatus, hphase ▸ hplan⟩⟩
  rw [hdeps, ← hid]
  exact Table.get_put_self _ d'.viaJSON

/-! ### Passes -/

/-- The state after a pass. -/
def afterPass (env : Env) (o : Config) (id : String) (w : World) : World :=
  (reconcileDeployment o id).final (exec env) w

/-- The rollout of the deployment is complete. -/
def CompleteIn (id : String) (w : World) : Prop :=
  ∃ d ∈ w.deps.get id, Complete d (w.activeOf id)

instance (id : String) (w : World) : Decidable (CompleteIn id w) :=
  inferInstanceAs (Decidable (∃ d ∈ w.deps.get id, _))

/-- The stored status is right for a rollout that is past its deadline. -/
def StatusRight (id : String) (w : World) : Prop :=
  ∃ d ∈ w.deps.get id, d.status = if Complete d (w.activeOf id) then .running else .failed

instance (id : String) (w : World) : Decidable (StatusRight id w) :=
  inferInstanceAs (Decidable (∃ d ∈ w.deps.get id, _))

/-- What is complete is a matter of the core. -/
lemma complete_of_core {active : List Workload} (h : d.core = dep.core.viaJSON) :
    Complete d active ↔ Complete dep active := by
  have hspec : d.spec = dep.spec.viaJSON := congrArg DepCore.spec h
  have hrev : d.currentRevision = dep.currentRevision := congrArg DepCore.currentRevision h
  rw [Complete, Complete, hspec, hrev]
  rfl

/-- The first pass past the deadline. -/
lemma afterPass_expired (hd : w.deps.get id = some d)
    (hauto : d.spec.rollout.autoRollbackOnFailure = false)
    (hpast : PastDeadline env d.prepared w) : ∃ d', (afterPass env o id w).deps.get id = some d' ∧
      d'.status = .failed ∧ d'.rolloutStatus.phase = .failed := by
  have hrun : Returns env Rules.any (reconcileDeployment o id) w fun _ w' => ∃ d',
      w'.deps.get id = some d' ∧ d'.status = .failed ∧ d'.rolloutStatus.phase = .failed := by
    refine reconcileDeployment_cases hd (fun _ => ?_) fun h => absurd hpast h
    refine (failRollout_settles d.prepared hauto _).mono ?_
    rintro _ w' ⟨-, d', h, hdeps⟩
    obtain ⟨-, hstatus, hphase⟩ := h.viaJSON
    have hcore : d'.id = d.id := congrArg DepCore.id h.core
    have hid : d'.id = id := hcore.trans (Table.key_of_get hd)
    refine ⟨d'.viaJSON, ?_, hstatus, hphase⟩
    rw [hdeps, ← hid]
    exact Table.get_put_self _ d'.viaJSON
  obtain ⟨_, -, h⟩ := hrun.run
  exact h

/-- A pass that does not look at the deadline. -/
lemma afterPass_judges (hd : w.deps.get id = some d) (hpast : ¬ PastDeadline env d.prepared w) :
    ∃ d', (afterPass env o id w).deps.get id = some d' ∧
      Judged d.prepared (afterPass env o id w) d' := by
  have hid : d.id = id := Table.key_of_get hd
  have hrun : Returns env Rules.any (reconcileDeployment o id) w fun _ w' => ∃ d',
      w'.deps.get id = some d' ∧ Judged d.prepared w' d' := by
    refine reconcileDeployment_cases hd (fun h => absurd h hpast) fun _ => ?_
    rw [← hid]
    exact reconcileReplicas_judges d.prepared _
  obtain ⟨_, -, h⟩ := hrun.run
  exact h

/-- After the first pass past the deadline the status is right unless the rollout is complete. -/
lemma statusRight_expired_iff (hd : w.deps.get id = some d)
    (hauto : d.spec.rollout.autoRollbackOnFailure = false)
    (hpast : PastDeadline env d.prepared w) :
    StatusRight id (afterPass env o id w) ↔ ¬ CompleteIn id (afterPass env o id w) := by
  obtain ⟨d', hd', hstatus, -⟩ := afterPass_expired (o := o) hd hauto hpast
  constructor
  · rintro ⟨e, he, hright⟩ ⟨e', he', hc⟩
    obtain rfl := Option.some.inj (hd'.symm.trans he)
    obtain rfl := Option.some.inj (hd'.symm.trans he')
    rw [if_pos hc, hstatus] at hright
    cases hright
  · intro hnot
    exact ⟨d', hd', by rw [hstatus, if_neg fun hc => hnot ⟨d', hd', hc⟩]⟩

/-- After a pass that does not look at the deadline it is right only if the rollout is complete,
and then the next pass does not look at the deadline either. -/
lemma statusRight_iff (hd : w.deps.get id = some d) (hpast : ¬ PastDeadline env d.prepared w) :
    (StatusRight id (afterPass env o id w) ↔ CompleteIn id (afterPass env o id w)) ∧
      (CompleteIn id (afterPass env o id w) → ∃ d', (afterPass env o id w).deps.get id = some d' ∧
        d'.rolloutStatus.phase = .stable) := by
  obtain ⟨d', hd', h⟩ := afterPass_judges (o := o) hd hpast
  have hid : d.id = id := Table.key_of_get hd
  have hsome : ∀ e, (afterPass env o id w).deps.get id = some e → e = d' := fun e he =>
    Option.some.inj (he.symm.trans hd')
  have hcomplete : Complete d' ((afterPass env o id w).activeOf id) ↔
      Complete d.prepared ((afterPass env o id w).activeOf d.prepared.id) := by
    rw [complete_of_core h.core, ← hid]
    rfl
  refine ⟨⟨?_, ?_⟩, ?_⟩
  · rintro ⟨e, he, hright⟩
    obtain rfl := hsome e he
    by_contra hnot
    have hinc : ¬ Complete e ((afterPass env o id w).activeOf id) := fun hc => hnot ⟨e, he, hc⟩
    rw [if_neg hinc, (h.incomplete fun hc => hinc (hcomplete.mpr hc)).1] at hright
    cases hright
  · rintro ⟨e, he, hc⟩
    obtain rfl := hsome e he
    exact ⟨e, he, by rw [if_pos hc, (h.complete (hcomplete.mp hc)).1]⟩
  · rintro ⟨e, he, hc⟩
    obtain rfl := hsome e he
    exact ⟨e, he, (h.complete (hcomplete.mp hc)).2⟩

/-- **The status of an expired rollout.** The passes begin in the states `s 0`, `s 1`, …; between
them anything may change but the record of the deployment.  The status is right after the first
pass past the deadline and the `n` passes after it exactly if the rollout is not complete after
the first one and complete after each of the others. -/
theorem expired_status_iff (env : Env) (o : Config) (id : String) (s : ℕ → World)
    (hkept : ∀ k, (s (k + 1)).deps.get id = (afterPass env o id (s k)).deps.get id)
    (d : Deployment) (hd : (s 0).deps.get id = some d)
    (hauto : d.spec.rollout.autoRollbackOnFailure = false)
    (hpast : PastDeadline env d.prepared (s 0)) (n : ℕ) :
    (∀ k ≤ n, StatusRight id (afterPass env o id (s k))) ↔
      ¬ CompleteIn id (afterPass env o id (s 0)) ∧
        ∀ k, 0 < k → k ≤ n → CompleteIn id (afterPass env o id (s k)) := by
  have hfirst := statusRight_expired_iff (o := o) hd hauto hpast
  -- the phases that a complete rollout and the first pass leave have no deadline
  have hidle : ∀ k, (∀ j, 0 < j → j ≤ k → CompleteIn id (afterPass env o id (s j))) →
      ∃ e, (s (k + 1)).deps.get id = some e ∧
        isRolloutInProgress e.rolloutStatus.phase = false := by
    intro k
    induction k with
    | zero =>
      intro _
      obtain ⟨e, he, -, hphase⟩ := afterPass_expired (o := o) hd hauto hpast
      exact ⟨e, (hkept 0).trans he, by rw [hphase]; rfl⟩
    | succ k ih =>
      intro hall
      obtain ⟨e, he, hphase⟩ := ih fun j hj hle => hall j hj (hle.trans (Nat.le_succ k))
      obtain ⟨e', he', hstable⟩ := (statusRight_iff (o := o) he (not_pastDeadline hphase)).2
        (hall (k + 1) (Nat.succ_pos k) le_rfl)
      exact ⟨e', (hkept (k + 1)).trans he', by rw [hstable]; rfl⟩
  have hnext : ∀ k, (∀ j, 0 < j → j ≤ k → CompleteIn id (afterPass env o id (s j))) →
      (StatusRight id (afterPass env o id (s (k + 1))) ↔
        CompleteIn id (afterPass env o id (s (k + 1)))) := by
    intro k hall
    obtain ⟨e, he, hphase⟩ := hidle k hall
    exact (statusRight_iff he (not_pastDeadline hphase)).1
  constructor
  · intro hright
    refine ⟨hfirst.mp (hright 0 (Nat.zero_le n)), fun k => ?_⟩
    induction k using Nat.strong_induction_on with
    | _ k ih =>
      intro hk hle
      obtain ⟨k, rfl⟩ := Nat.exists_eq_succ_of_ne_zero hk.ne'
      exact (hnext k fun j hj hjk => ih j (Nat.lt_succ_of_le hjk) hj (by omega)).mp
        (hright (k + 1) hle)
  · rintro ⟨hnot, hall⟩ k hle
    cases k with
    | zero => exact hfirst.mpr hnot
    | succ k =>
      exact (hnext k fun j hj hjk => hall j hj (by omega)).mpr (hall (k + 1) (Nat.succ_pos k) hle)

/-- A rollout with a deadline of one second, started long ago. -/
def expired : Deployment :=
  { newDeployment "dep-0" { webSpec with rollout := { progressDeadlineSeconds := 1 } } 1 with
    rolloutStatus := { phase := .progressing, startedAt := 1 } }

/-- There are no nodes to run it. -/
def expiredWorld : World where
  store := Store.empty.put .deployment expired
  tick := 0

/-- A replica of it that runs. -/
def latecomer : Workload :=
  { id := "w1", deploymentID := "dep-0", nodeID := "n1", status := .running, version := 1 }

/-- After the first pass the replica turns up. -/
def recovering : ℕ → World
  | 0 => expiredWorld
  | 1 =>
    let w := afterPass tickingEnv plainConfig "dep-0" expiredWorld
    { w with store := w.store.put .workload latecomer }
  | k + 2 => afterPass tickingEnv plainConfig "dep-0" (recovering (k + 1))

theorem expired_status_iff_recovering :
    StatusRight "dep-0" (afterPass tickingEnv plainConfig "dep-0" (recovering 0)) ∧
      StatusRight "dep-0" (afterPass tickingEnv plainConfig "dep-0" (recovering 1)) := by
  have hkept : ∀ k, (recovering (k + 1)).deps.get "dep-0" =
      (afterPass tickingEnv plainConfig "dep-0" (recovering k)).deps.get "dep-0" := by
    intro k
    cases k with
    | zero =>
      exact congrArg (Table.get · "dep-0")
        (Store.put_of_ne _ .workload .deployment latecomer (by decide))
    | succ k => rfl
  have hright := (expired_status_iff tickingEnv plainConfig "dep-0" recovering hkept expired
    (by decide +kernel) rfl (by decide +kernel) 1).mpr ⟨by decide +kernel, fun k hk hle => by
      obtain rfl : k = 1 := by omega
      decide +kernel⟩
  exact ⟨hright 0 (by decide), hright 1 le_rfl⟩

/-- Nothing runs, and the status goes from `Failed` to `Pending` and back. -/
theorem expired_status_alternates :
    let pass := afterPass tickingEnv plainConfig "dep-0"
    [pass expiredWorld, pass (pass expiredWorld), pass (pass (pass expiredWorld))].map
      (fun w => (w.activeOf "dep-0", (w.deps.get "dep-0").map (·.status))) =
      [([], some .failed), ([], some .pending), ([], some .failed)] := by
  decide +kernel

end Orchestrator
