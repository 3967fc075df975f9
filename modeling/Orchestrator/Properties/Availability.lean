/-
# Availability during a rollout

A reconcile pass should not take the number of running replicas below `Replicas` minus
`MaxUnavailable`.  The delete budget of the source counts pending replicas as available, so
it can: a pass that creates new replicas terminates running old ones at once, before the new
ones run.  `Overdraws` says exactly in which states this happens.
-/
import Orchestrator.Logic.Census
import Orchestrator.System

namespace Orchestrator

open Lib

variable {env : Env} {o : Config} {d dep : Deployment} {w w' : World}

/-- The number of running replicas of a deployment. -/
def World.running (w : World) (id : String) : ℤ := runningCount (w.deployed id)

/-- How many replicas of a deployment have to be available. -/
def Deployment.available (dep : Deployment) : ℤ :=
  dep.spec.replicas.toInt - dep.spec.rollout.rollingUpdate.maxUnavailable.toInt

/-- The pass reaches its terminations: it is not past its deadline, holds no canary, and
creates all the replicas it wants. -/
def Prunes (env : Env) (o : Config) (dep : Deployment) (w : World) : Prop :=
  let plan := rolloutPlan dep (w.deployed dep.id)
  ¬ PastDeadline env dep w ∧ plan.phase ≠ .canary ∧
    (createReplicas o dep plan.toCreate.toNat).result (exec env) (afterDeadlineCheck env dep w) =
      .ok none

/-- The pass terminates running replicas that the new ones do not replace yet: there are more
running old replicas than may go, and more pending new ones than are missing. -/
def Overdraws (env : Env) (o : Config) (dep : Deployment) (w : World) : Prop :=
  let plan := rolloutPlan dep (w.deployed dep.id)
  let c := census dep.currentRevision (w.deployed dep.id)
  Prunes env o dep w ∧
    max 0 (c.running - plan.minAvailable) < c.oldRunning ∧
    max 0 (plan.minAvailable - c.running) < c.newPending + plan.toCreate

/-! ### Running workloads through a pass -/

lemma Enlarged.mem {n : ℕ} (h : Enlarged dep n w w') {v : Workload} (hv : v ∈ w'.deployed dep.id)
    (hst : v.status ≠ .pending) : v ∈ w.deployed dep.id := by
  obtain ⟨vs, -, hvs, hperm⟩ := h
  rcases List.mem_append.mp (hperm.mem_iff.mp hv) with hv | hv
  · exact absurd (hvs v hv).2.1 hst
  · exact hv

lemma MarkedBy.mem {vs : List Workload} (h : MarkedBy vs w w') {id : String} {v : Workload}
    (hv : v ∈ w'.deployed id) (hst : v.status ≠ .terminating) : v ∈ w.deployed id := by
  obtain ⟨τ, hτ⟩ := h.deployed id
  rw [hτ] at hv
  obtain ⟨u, hu, rfl⟩ := List.mem_map.mp hv
  split_ifs at hst ⊢
  · exact absurd rfl hst
  · exact hu

lemma ScaledDown.mem {m : ℤ} (h : ScaledDown dep m w w') {id : String} {v : Workload}
    (hv : v ∈ w'.deployed id) (hst : v.status ≠ .terminating) : v ∈ w.deployed id := by
  obtain ⟨w₁, h₁, h₂⟩ := h
  exact h₁.mem (h₂.mem hv hst) hst

/-- What a pass does to the running replicas: none is added, and their number is kept, or
falls by what the two rounds of terminations take. -/
lemma Pass.running (hids : Function.Injective env.workloadID) (hw : Fresh env w)
    (h : Pass env o dep w w') :
    let plan := rolloutPlan dep (w.deployed dep.id)
    let c := census dep.currentRevision (w.deployed dep.id)
    let c' := census dep.currentRevision (w'.deployed dep.id)
    let prunes := plan.phase ≠ .canary ∧
      (createReplicas o dep plan.toCreate.toNat).result (exec env) w = .ok none
    Fresh env w' ∧
      (∀ v ∈ w'.deployed dep.id, v.status = .running → v ∈ w.deployed dep.id) ∧
      (prunes → Census.Rolled dep.spec.replicas.toInt plan.minAvailable plan.toCreate.toNat c c') ∧
      (¬ prunes → c'.running = c.running) := by
  intro plan c c' prunes
  obtain ⟨r, w₁, hr, hc, hend⟩ := h
  obtain ⟨hw₁, j, hgrow, hj, -⟩ := hc.enlarged hids hw
  have hkept : ¬ prunes → WroteBack dep.core w₁ w' → Fresh env w' ∧
      (∀ v ∈ w'.deployed dep.id, v.status = .running → v ∈ w.deployed dep.id) ∧
      (prunes → Census.Rolled dep.spec.replicas.toInt plan.minAvailable plan.toCreate.toNat c c') ∧
      (¬ prunes → c'.running = c.running) := by
    intro hno hback
    simp only [c', hback.deployed, hgrow.census_eq]
    refine ⟨hback.fresh hw₁, ?_, fun h => absurd h hno, fun _ => rfl⟩
    exact fun v hv hst => hgrow.mem hv (by simp [hst])
  cases r with
  | some e =>
    refine hkept ?_ hend
    rintro ⟨-, hnone⟩
    rw [hr] at hnone
    cases hnone
  | none =>
    obtain ⟨w₂, hscale, hback⟩ := hend
    by_cases hphase : plan.phase = .canary
    · rw [if_pos hphase] at hscale
      subst hscale
      exact hkept (fun h => h.1 hphase) hback
    · rw [if_neg hphase] at hscale
      obtain rfl := hj rfl
      simp only [c', hback.deployed]
      refine ⟨hback.fresh (hscale.fresh hw₁), ?_, fun _ => hgrow.rolled hscale,
        fun h => absurd ⟨hphase, hr⟩ h⟩
      intro v hv hst
      exact hgrow.mem (hscale.mem hv (by simp [hst])) (by simp [hst])

lemma Reconciled.running (hids : Function.Injective env.workloadID) (hw : Fresh env w)
    (h : Reconciled env o d w w') :
    let dep := d.prepared
    let plan := rolloutPlan dep (w.deployed dep.id)
    let c := census dep.currentRevision (w.deployed dep.id)
    let c' := census dep.currentRevision (w'.deployed dep.id)
    Fresh env w' ∧
      (∀ v ∈ w'.deployed dep.id, v.status = .running → v ∈ w.deployed dep.id) ∧
      (Prunes env o dep w →
        Census.Rolled dep.spec.replicas.toInt plan.minAvailable plan.toCreate.toNat c c') ∧
      (¬ Prunes env o dep w → c'.running = c.running) := by
  intro dep plan c c'
  have hq := quiet_afterDeadlineCheck env dep w
  have hw₀ : Fresh env (afterDeadlineCheck env dep w) := hw.of_workloads hq.workloads hq.tick
  rcases h with ⟨hpast, h⟩ | ⟨hpast, h⟩
  · have hkept : w'.deployed dep.id = w.deployed dep.id ∧ Fresh env w' := by
      rcases h with h | ⟨target, now, -, h⟩
      · exact ⟨(h.deployed _).trans (hq.deployed _), h.fresh hw₀⟩
      · exact ⟨(h.deployed _).trans (hq.deployed _), h.fresh hw₀⟩
    simp only [c', hkept.1]
    exact ⟨hkept.2, fun v hv _ => hv, fun hno => absurd hpast hno.1, fun _ => rfl⟩
  · have hp := h.running hids hw₀
    rw [hq.deployed] at hp
    obtain ⟨hfresh, hmem, hrolled, hsame⟩ := hp
    exact ⟨hfresh, hmem, fun h => hrolled h.2, fun h => hsame fun h' => h ⟨hpast, h'⟩⟩

/-- In numbers: a pass keeps the running replicas that have to be available exactly if it
does not let more of them go than its new replicas replace. -/
lemma Census.Rolled.floor_iff {R U m : ℤ} {n : ℕ} {c c' : Census} (h : Census.Rolled R m n c c')
    (hU : 0 ≤ U) (hm : m = max 0 (R - U)) :
    min (c.running : ℤ) (R - U) ≤ c'.running ↔
      ¬ (max 0 (c.running - m) < c.oldRunning ∧ max 0 (m - c.running) < c.newPending + n) := by
  have hle : c.oldRunning ≤ c.running := Nat.le_add_right _ _
  by_cases hR : 0 ≤ R
  · rw [h.running_eq (by omega) (by omega)]
    omega
  · omega

/-- One pass keeps the running replicas that have to be available exactly if it does not
overdraw. -/
lemma Reconciled.floor_iff (hids : Function.Injective env.workloadID) (hw : Fresh env w)
    (h : Reconciled env o d w w') :
    min (w.running d.id) d.prepared.available ≤ w'.running d.id ↔
      ¬ Overdraws env o d.prepared w := by
  obtain ⟨-, -, hrolled, hsame⟩ := h.running hids hw
  have hcount : ∀ x : World, x.running d.id =
      (census d.prepared.currentRevision (x.deployed d.prepared.id)).running := fun x =>
    runningCount_eq
  rw [hcount, hcount]
  by_cases hp : Prunes env o d.prepared w
  · have hU : 0 ≤ d.prepared.spec.rollout.rollingUpdate.maxUnavailable.toInt :=
      normalized_maxUnavailable_nonneg d.spec.rollout
    rw [Deployment.available, (hrolled hp).floor_iff hU rfl, Overdraws,
      Int.toNat_of_nonneg (rolloutPlan_toCreate_nonneg _ _)]
    simp [hp]
  · rw [hsame hp]
    refine ⟨fun _ hover => hp hover.1, fun _ => min_le_left _ _⟩

/-! ### Runs of passes and reports -/

/-- What happens during a rollout: a pass for the deployment, or a report on a workload. -/
inductive Move
  | pass
  | report (workloadID : String) (status : WorkloadStatus) (containerID : String)

/-- The state after a move. -/
def rolloutStep (env : Env) (o : Config) (id : String) (m : Move) (w : World) : World :=
  match m with
  | .pass => (reconcileDeployment o id).final (exec env) w
  | .report workloadID status containerID =>
    (reportWorkloadStatus workloadID status containerID).final (exec env) w

/-- A pass does not overdraw, and `b` is not more than what has to be available; a report does
not say that a running replica of the deployment has stopped running. -/
def Careful (env : Env) (o : Config) (id : String) (b : ℤ) (m : Move) (w : World) : Prop :=
  match m with
  | .pass => ∀ d, w.deps.get id = some d →
      b ≤ d.prepared.available ∧ ¬ Overdraws env o d.prepared w
  | .report workloadID status _ => ∀ v, w.workloads.get workloadID = some v →
      v.deploymentID = id → v.status = .running → status = .running

lemma running_eq_countP (w : World) (id : String) :
    w.running id =
      w.workloads.rows.countP fun v => v.status = .running && v.deploymentID = id := by
  rw [World.running, runningCount, World.deployed, List.countP_filter]

/-- A report that stops no running replica of a deployment keeps their number. -/
lemma Reported.running_le {id wid : String} {status : WorkloadStatus}
    (h : Reported wid status w w')
    (hrep : ∀ v, w.workloads.get wid = some v → v.deploymentID = id → v.status = .running →
      status = .running) : w.running id ≤ w'.running id := by
  rw [running_eq_countP, running_eq_countP, Int.ofNat_le]
  rcases h.rows with hsame | ⟨u, hu, ⟨-, cid, now, hrows⟩ | ⟨hst, hrows⟩⟩
  · rw [hsame]
  · rw [hrows, List.countP_map]
    refine List.countP_mono_left ?_
    intro x hx hrun
    dsimp only [Function.comp_apply]
    split_ifs with hxu
    · obtain rfl := Table.eq_of_mem_of_key_eq hx (Table.mem_of_get hu) hxu
      simp only [Bool.and_eq_true, decide_eq_true_eq] at hrun ⊢
      exact ⟨hrep _ hu hrun.2 hrun.1, hrun.2⟩
    · exact hrun
  · rw [hrows, List.countP_filter]
    refine List.countP_mono_left ?_
    intro x hx hrun
    have hxu : x.id ≠ u.id := by
      intro hxu
      obtain rfl := Table.eq_of_mem_of_key_eq hx (Table.mem_of_get hu) hxu
      simp only [Bool.and_eq_true, decide_eq_true_eq] at hrun
      have hbad := hrep _ hu hrun.2 hrun.1
      rw [hst] at hbad
      cases hbad
    simpa [hxu] using hrun

lemma Reported.fresh {wid : String} {status : WorkloadStatus}
    (h : Reported wid status w w') (hw : Fresh env w) : Fresh env w' := by
  rcases h with ⟨-, rfl⟩ | ⟨u, -, ⟨-, h⟩ | ⟨-, w₁, h, hs⟩⟩
  · exact hw
  · refine hw.of_known h.tick_le fun v hv => ?_
    obtain ⟨x, hx, hxv, -⟩ := h.known v hv
    exact ⟨x, hx, hxv⟩
  · refine Fresh.of_workloads (hw.of_known h.tick_le fun v hv => ?_) hs.workloads hs.tick_le
    obtain ⟨x, hx, hxv, -⟩ := h.known v hv
    exact ⟨x, hx, hxv⟩

/-- One careful move. -/
lemma rolloutStep_floor (hids : Function.Injective env.workloadID) {id : String} {b : ℤ} {m : Move}
    (hw : Fresh env w) (hm : Careful env o id b m w) :
    Fresh env (rolloutStep env o id m w) ∧
      min (w.running id) b ≤ (rolloutStep env o id m w).running id := by
  cases m with
  | pass =>
    cases hd : w.deps.get id with
    | none =>
      rw [rolloutStep, reconcileDeployment_final_of_none hd]
      exact ⟨hw, min_le_left _ _⟩
    | some d =>
      obtain rfl : d.id = id := Table.key_of_get hd
      obtain ⟨hb, hover⟩ := hm d hd
      have hpass : Reconciled env o d w _ := reconciled_final hd
      refine ⟨(hpass.running hids hw).1, ?_⟩
      exact (min_le_min_left _ hb).trans ((hpass.floor_iff hids hw).mpr hover)
  | report wid status cid =>
    have hrep := reported_final env wid status cid w
    exact ⟨hrep.fresh hw, (min_le_left _ _).trans (hrep.running_le hm)⟩

/-- **Availability.**  A pass adds no running replica; it leaves at least as many of them as
have to be available (or as there were) exactly if it does not overdraw.  So along every run
of passes that do not overdraw, with reports that stop no running replica, the number of
running replicas never falls below what has to be available. -/
theorem rollout_availability (o : Config) (hids : Function.Injective env.workloadID) (id : String) :
    (∀ w d, Fresh env w → w.deps.get id = some d →
      let w' := (reconcileDeployment o id).final (exec env) w
      (∀ v ∈ w'.deployed id, v.status = .running → v ∈ w.deployed id) ∧
        (min (w.running id) d.prepared.available ≤ w'.running id ↔
          ¬ Overdraws env o d.prepared w)) ∧
    ∀ b w w', Fresh env w → Runs (rolloutStep env o id) (Careful env o id b) w w' →
      min (w.running id) b ≤ w'.running id := by
  refine ⟨?_, ?_⟩
  · intro w d hw hd
    obtain rfl : d.id = id := Table.key_of_get hd
    have hpass : Reconciled env o d w _ := reconciled_final hd
    exact ⟨(hpass.running hids hw).2.1, hpass.floor_iff hids hw⟩
  · intro b w w' hw hrun
    have hall : Fresh env w' ∧ min (w.running id) b ≤ w'.running id := by
      refine hrun.invariant (I := fun x => Fresh env x ∧ min (w.running id) b ≤ x.running id)
        ⟨hw, min_le_left _ _⟩ ?_
      rintro m x ⟨hx, hle⟩ hm
      obtain ⟨hx', hle'⟩ := rolloutStep_floor hids hx hm
      exact ⟨hx', (le_min hle (min_le_right _ _)).trans hle'⟩
    exact hall.2

/-! ### Two rollouts -/

/-- A node with four cores. -/
def wideNode : Node :=
  { smallNode with capacity := ⟨4000, 4000⟩, allocatable := ⟨4000, 4000⟩ }

/-- A deployment with the given number of replicas and rolling-update parameters. -/
def rollingSpec (image : String) (replicas maxSurge maxUnavailable : Int64) : DeploymentSpec :=
  { webSpec with
    image := image
    replicas := replicas
    rollout := { rollingUpdate := { maxSurge := maxSurge, maxUnavailable := maxUnavailable } } }

/-- The runner of the wide node starts all replicas of a new deployment. -/
def servingRun (spec : DeploymentSpec) : List Event :=
  [.registerNode wideNode, .createDeployment spec, .poll "n1" 10] ++
    List.replicate spec.replicas.toInt.toNat (.work "n1" 3 willingRuntime)

/-- The deployment of `servingRun`. -/
def servingID : String := steadyEnv.deploymentID 5

/-- All replicas run, and the specification is replaced. -/
def updatedWorld (spec next : DeploymentSpec) : World :=
  (after (Sys.step steadyEnv plainConfig) (servingRun spec ++ [.updateDeployment servingID next])
    Sys.init).world

/-- The next pass in this state. -/
def passOnce (w : World) : World :=
  (reconcileDeployment plainConfig servingID).final (exec steadyEnv) w

lemma fresh_after (es : List Event) :
    Fresh steadyEnv (after (Sys.step steadyEnv plainConfig) es Sys.init).world := by
  have hrun : Runs (Sys.step steadyEnv plainConfig) Event.Any Sys.init _ :=
    Runs.of_list es (admissible_any es Sys.init)
  intro v hv k hk hid
  obtain ⟨j, hj, hvj⟩ := (Runs.drawn hrun).workloads v hv
  have hjk : j = k := steadyEnv_ids (hvj.symm.trans hid)
  omega

/-- With two replicas of which one may be unavailable, the pass after an update terminates one
of them, and one keeps running, also after the termination is reported. -/
theorem rollout_availability_two :
    let w := updatedWorld (rollingSpec "a" 2 0 1) (rollingSpec "b" 2 0 1)
    let w' := rolloutStep steadyEnv plainConfig servingID
      (.report (steadyEnv.workloadID 15) .terminated "") (passOnce w)
    w.running servingID = 2 ∧ min (w.running servingID) 1 ≤ (passOnce w).running servingID ∧
      min (w.running servingID) 1 ≤ w'.running servingID := by
  intro w w'
  obtain ⟨hpass, hrun⟩ := rollout_availability plainConfig steadyEnv_ids servingID
  have hw : Fresh steadyEnv w := fresh_after _
  have hplan : (w.deps.get servingID).map (fun d => (d.prepared.available,
      (census d.prepared.currentRevision (w.deployed d.prepared.id)).newPending +
        (rolloutPlan d.prepared (w.deployed d.prepared.id)).toCreate)) = some (1, 0) := by
    decide +kernel
  obtain ⟨d, hd, hvals⟩ := Option.map_eq_some_iff.mp hplan
  obtain ⟨hav, hnew⟩ := Prod.mk.inj hvals
  -- nothing is created and nothing new is pending, so the pass does not overdraw
  have hover : ¬ Overdraws steadyEnv plainConfig d.prepared w := by
    rintro ⟨-, -, hlt⟩
    rw [hnew] at hlt
    exact absurd (le_max_left _ _) (not_le.mpr hlt)
  have hcareful : Careful steadyEnv plainConfig servingID 1 .pass w := by
    intro d' hd'
    rw [hd] at hd'
    cases hd'
    exact ⟨hav.ge, hover⟩
  have hreport : Careful steadyEnv plainConfig servingID 1
      (.report (steadyEnv.workloadID 15) .terminated "") (passOnce w) := by
    have hst : ((passOnce w).workloads.get (steadyEnv.workloadID 15)).map Workload.status =
        some .terminating := by
      decide +kernel
    intro v hv _ hvst
    rw [hv, Option.map_some, hvst] at hst
    cases hst
  have hkept := ((hpass w d hw hd).2).mpr hover
  rw [hav] at hkept
  exact ⟨by decide +kernel, hkept,
    hrun 1 w w' hw ((Runs.refl.tail Move.pass hcareful).tail _ hreport)⟩

/-- With one replica that has to be available, the pass after an update terminates it. -/
theorem unavailable_after_update :
    let w := updatedWorld (rollingSpec "a" 1 1 0) (rollingSpec "b" 1 1 0)
    Fresh steadyEnv w ∧ w.running servingID = 1 ∧ (passOnce w).running servingID = 0 ∧
      ∃ d, w.deps.get servingID = some d ∧ d.prepared.available = 1 := by
  refine ⟨fresh_after _, by decide +kernel, by decide +kernel, ?_⟩
  have hsome : ((updatedWorld (rollingSpec "a" 1 1 0) (rollingSpec "b" 1 1 0)).deps.get
      servingID).map (fun d => d.prepared.available) = some 1 := by
    decide +kernel
  obtain ⟨d, hd, hav⟩ := Option.map_eq_some_iff.mp hsome
  exact ⟨d, hd, hav⟩

end Orchestrator
