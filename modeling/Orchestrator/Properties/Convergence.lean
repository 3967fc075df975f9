/-
# Convergence of a rolling update

A round is a pass followed by the reports it gives rise to: every pending replica is
reported as running, every terminating one as terminated.  As long as replicas can be placed
(a node is found for each, and the secrets they mount are stored), every round leaves fewer
old replicas, the first round without old ones reaches the wanted number of replicas, and
from then on a pass changes nothing but the status of the deployment.
-/
import Mathlib
import Orchestrator.Logic.Frames
import Orchestrator.Properties.Progress

namespace Orchestrator

open Lib

variable {env : Env} {o : Config} {d dep : Deployment} {w w' : World} {n : ℕ} {id : String}
  {status : WorkloadStatus} {wid : String} {c : DepCore}

/-! ### Rolling updates -/

/-- A rolling update that may surge or be unavailable by at least one replica, without a
deadline. -/
structure Rolling (d : Deployment) : Prop where
  strategy : d.prepared.spec.rollout.strategy = .rollingUpdate
  replicas : 1 ≤ d.spec.replicas.toInt
  budget : 1 ≤ d.prepared.spec.rollout.rollingUpdate.maxSurge.toInt +
    d.prepared.spec.rollout.rollingUpdate.maxUnavailable.toInt
  fits : d.spec.replicas.toInt + d.prepared.spec.rollout.rollingUpdate.maxSurge.toInt < 2 ^ 63
  deadline : d.spec.rollout.progressDeadlineSeconds ≤ 0

instance (d : Deployment) : Decidable (Rolling d) :=
  decidable_of_iff (d.prepared.spec.rollout.strategy = .rollingUpdate ∧
      1 ≤ d.spec.replicas.toInt ∧
      1 ≤ d.prepared.spec.rollout.rollingUpdate.maxSurge.toInt +
        d.prepared.spec.rollout.rollingUpdate.maxUnavailable.toInt ∧
      d.spec.replicas.toInt + d.prepared.spec.rollout.rollingUpdate.maxSurge.toInt < 2 ^ 63 ∧
      d.spec.rollout.progressDeadlineSeconds ≤ 0)
    ⟨fun ⟨h₁, h₂, h₃, h₄, h₅⟩ => ⟨h₁, h₂, h₃, h₄, h₅⟩,
      fun ⟨h₁, h₂, h₃, h₄, h₅⟩ => ⟨h₁, h₂, h₃, h₄, h₅⟩⟩

/-- The plan of a rolling update, in numbers. -/
lemma Rolling.plan (h : Rolling d) (l : List Workload) :
    let c := census d.prepared.currentRevision l
    let R := d.spec.replicas.toInt
    let S := d.prepared.spec.rollout.rollingUpdate.maxSurge.toInt
    let U := d.prepared.spec.rollout.rollingUpdate.maxUnavailable.toInt
    (rolloutPlan d.prepared l).phase ≠ .canary ∧
      (rolloutPlan d.prepared l).minAvailable = max 0 (R - U) ∧
      (rolloutPlan d.prepared l).toCreate =
        min (max 0 (R - c.new)) (max 0 (R + S - c.total)) := by
  intro c R S U
  have hS : 0 ≤ S := normalized_maxSurge_nonneg d.spec.rollout
  have hwrap : wrap64 (R + S) = R + S :=
    Int64.toInt_ofInt_of_le (by have := h.replicas; omega) h.fits
  have hnot : ¬ (d.prepared.spec.rollout.strategy = .canary ∧
      d.prepared.spec.rollout.canary.enabled ∧
      ((activeWorkloads l).length : ℤ) -
        (activeForRevision (activeWorkloads l) d.prepared.currentRevision).length > 0) := by
    rw [h.strategy]
    exact fun hc => by cases hc.1
  have hnew : (activeForRevision (activeWorkloads l) d.prepared.currentRevision).length = c.new :=
    length_newActive
  have htotal := length_active d.prepared.currentRevision (l := l)
  simp only [rolloutPlan, if_neg hnot]
  refine ⟨by decide, rfl, ?_⟩
  rw [hnew, htotal]
  change min _ (max 0 (max R (wrap64 (R + S)) - _)) = _
  rw [hwrap, max_eq_right (by omega : R ≤ R + S)]
  rfl

/-! ### Placing all replicas -/

/-- While the pass creates its replicas, `SelectNode` finds a node for each. -/
def SelectsNodes (env : Env) (o : Config) (dep : Deployment) (w : World) : Prop :=
  ∀ j < (rolloutPlan dep (w.deployed dep.id)).toCreate.toNat,
    CanHost dep ((createReplicas o dep j).final (exec env) w).nodes

instance (env : Env) (o : Config) (dep : Deployment) (w : World) :
    Decidable (SelectsNodes env o dep w) :=
  inferInstanceAs (Decidable (∀ j < _, CanHost _ _))

/-- With a node for each replica and all secrets, no creation fails. -/
lemma createReplicas_none
    (hhost : ∀ j < n, CanHost dep ((createReplicas o dep j).final (exec env) w).nodes)
    (hsec : SecretsStored dep w.secrets) :
    (createReplicas o dep n).result (exec env) w = .ok none := by
  induction n generalizing w with
  | zero => rfl
  | succ n ih =>
    have hcreate : Holds env Rules.any (createWorkloadForDeployment o dep) w _ :=
      createWorkloadForDeployment_holds (allows_any dep w.deps)
    have hcr := hcreate.run
    have hok : (createWorkloadForDeployment o dep).result (exec env) w = .ok () := by
      have hpl : Placeable dep w := Or.inl (hhost 0 (Nat.succ_pos n))
      rcases hcr with ⟨-, -, ⟨hr, -⟩ | ⟨-, hno⟩⟩ | ⟨-, hno, -⟩
      · exact hr
      · exact absurd hsec hno
      · exact absurd hpl hno
    -- the rest of the loop runs from the state after the first creation
    have hstep : ∀ j, (createReplicas o dep (j + 1)).run (exec env) w =
        (createReplicas o dep j).run (exec env)
          ((createWorkloadForDeployment o dep).final (exec env) w) := by
      intro j
      have hattempt := Prog.run_attempt (exec env) (createWorkloadForDeployment o dep) w
      rw [show ((createWorkloadForDeployment o dep).run (exec env) w).1 = .ok () from hok] at hattempt
      exact Prog.run_bind_ok (exec env) hattempt
    rw [Prog.result, hstep n]
    refine ih ?_ ?_
    · intro j hj
      have hj' := hhost (j + 1) (Nat.succ_lt_succ hj)
      rwa [Prog.final, hstep j] at hj'
    · have hw : WritesIn creationTables (createWorkloadForDeployment o dep) :=
        makes_createWorkload dep
      rwa [World.secrets, (hw.spares (t := .secret) (by decide)).final env w]

/-! ### The reports of a round -/

/-- The report that a workload gives rise to. -/
def dueReport (v : Workload) : Option (String × WorkloadStatus) :=
  match v.status with
  | .pending => some (v.id, .running)
  | .terminating => some (v.id, .terminated)
  | _ => none

/-- The reports on the workloads of a deployment. -/
def reportsDue (w : World) (id : String) : List (String × WorkloadStatus) :=
  (w.deployed id).filterMap dueReport

lemma perm_filter_put (W : Table Workload Workload.id) {v : Workload}
    (hv : v.deploymentID = id) :
    ((W.put v).rows.filter fun u => u.deploymentID = id).Perm
      (v :: (W.del v.id).rows.filter fun u => u.deploymentID = id) := by
  have hput := (W.perm_put v).filter fun u => decide (u.deploymentID = id)
  rwa [List.filter_cons_of_pos (by simp [hv])] at hput

/-- A report that is due: the workload runs, or it is gone. -/
lemma Reported.due (h : Reported wid status w w')
    (hdue : (wid, status) ∈ reportsDue w id) : ∃ u l, (w.deployed id).Perm (u :: l) ∧
      dueReport u = some (wid, status) ∧
      ((u.status = .pending ∧ ∃ u', u'.status = .running ∧ u'.version = u.version ∧
          (w'.deployed id).Perm (u' :: l)) ∨
        (u.status = .terminating ∧ (w'.deployed id).Perm l)) := by
  obtain ⟨u, hu, hrep⟩ := List.mem_filterMap.mp hdue
  obtain ⟨hmem, hdep⟩ := mem_deployed.mp hu
  have hcase : u.id = wid ∧ (u.status = .pending ∧ status = .running ∨
      u.status = .terminating ∧ status = .terminated) := by
    rw [dueReport] at hrep
    split at hrep <;> simp_all
  obtain ⟨rfl, hst⟩ := hcase
  have hget : w.workloads.get u.id = some u := Table.get_of_mem hmem
  have hperm := (Table.perm_of_get hget).filter fun v => decide (v.deploymentID = id)
  rw [List.filter_cons_of_pos (by simp [hdep])] at hperm
  refine ⟨u, _, hperm, hrep, ?_⟩
  rcases h with ⟨hnone, -⟩ | ⟨u', hu', hout⟩
  · rw [hget] at hnone
    cases hnone
  rw [hget] at hu'
  cases hu'
  rcases hst with ⟨hst, rfl⟩ | ⟨hst, rfl⟩
  · rcases hout with ⟨-, -, cid, now, he⟩ | ⟨hbad, -⟩
    · refine Or.inl ⟨hst, { u.reported .running cid with updatedAt := now }, rfl, rfl, ?_⟩
      rw [he.deployed]
      exact perm_filter_put w.workloads hdep
    · cases hbad
  · rcases hout with ⟨hbad, -⟩ | ⟨-, w₁, ⟨-, seen, he⟩, hs⟩
    · exact absurd rfl hbad
    · refine Or.inr ⟨hst, ?_⟩
      rw [World.deployed, hs.workloads, he.workloads]

/-- The state after a list of reports, each with the container it names. -/
def afterReports (env : Env) (rs : List (String × WorkloadStatus × String)) (w : World) : World :=
  rs.foldl (fun w r => (reportWorkloadStatus r.1 r.2.1 r.2.2).final (exec env) w) w

/-- What every report keeps, a list of reports keeps. -/
lemma afterReports_keeps {I : World → Prop}
    (hI : ∀ {wid : String} {status : WorkloadStatus} {x x' : World}, Reported wid status x x' →
      I x → I x') (rs : List (String × WorkloadStatus × String)) (hw : I w) :
    I (afterReports env rs w) := by
  induction rs generalizing w with
  | nil => exact hw
  | cons r rs ih => exact ih (hI (reported_final env r.1 r.2.1 r.2.2 w) hw)

lemma old_eq_countP (rev : ℤ) (l : List Workload) :
    (census rev l).old = l.countP fun v => v.version ≠ rev && v.active :=
  (countP_active _ l).symm

lemma new_eq_countP (rev : ℤ) (l : List Workload) :
    (census rev l).new = l.countP fun v => v.version = rev && v.active :=
  (countP_active _ l).symm

/-- A report that is due takes itself off the list, and changes no number of active
replicas. -/
lemma Reported.reportsDue_perm
    (h : Reported wid status w w') (hdue : (wid, status) ∈ reportsDue w id) :
    (reportsDue w id).Perm ((wid, status) :: reportsDue w' id) ∧
      ∀ rev, (census rev (w'.deployed id)).old = (census rev (w.deployed id)).old ∧
        (census rev (w'.deployed id)).new = (census rev (w.deployed id)).new := by
  obtain ⟨u, l, hperm, hrep, hout⟩ := h.due hdue
  have hreports : (reportsDue w id).Perm ((wid, status) :: l.filterMap dueReport) := by
    have hfilter := hperm.filterMap dueReport
    rwa [List.filterMap_cons_some hrep] at hfilter
  rcases hout with ⟨hst, u', hst', hver, hperm'⟩ | ⟨hst, hperm'⟩
  · refine ⟨hreports.trans (List.Perm.cons _ ?_), ?_⟩
    · have hnone : dueReport u' = none := by rw [dueReport, hst']
      have hfilter := hperm'.filterMap dueReport
      rw [List.filterMap_cons_none hnone] at hfilter
      exact hfilter.symm
    · intro rev
      have hact : u'.active = u.active := by simp [Workload.active, hst, hst']
      simp [old_eq_countP, new_eq_countP, hperm.countP_eq, hperm'.countP_eq, List.countP_cons, hver,
        hact]
  · refine ⟨hreports.trans (List.Perm.cons _ (hperm'.filterMap dueReport).symm), ?_⟩
    intro rev
    have hact : u.active = false := by simp [Workload.active, hst]
    simp [old_eq_countP, new_eq_countP, hperm.countP_eq, hperm'.countP_eq, hact]

/-- All due reports leave nothing pending, and the numbers of active replicas as they are. -/
lemma reportsDue_afterReports (env : Env) {rs : List (String × WorkloadStatus × String)}
    (hrs : (rs.map fun r => (r.1, r.2.1)).Perm (reportsDue w id)) :
    reportsDue (afterReports env rs w) id = [] ∧
      ∀ rev, (census rev ((afterReports env rs w).deployed id)).old =
          (census rev (w.deployed id)).old ∧
        (census rev ((afterReports env rs w).deployed id)).new =
          (census rev (w.deployed id)).new := by
  induction rs generalizing w with
  | nil => exact ⟨hrs.nil_eq.symm, fun _ => ⟨rfl, rfl⟩⟩
  | cons r rs ih =>
    have hrep := reported_final env r.1 r.2.1 r.2.2 w
    have hdue : (r.1, r.2.1) ∈ reportsDue w id := hrs.mem_iff.mp (by simp)
    obtain ⟨hperm, hcount⟩ := hrep.reportsDue_perm hdue
    obtain ⟨hnil, hcount'⟩ := ih (hrs.trans hperm).cons_inv
    refine ⟨hnil, fun rev => ?_⟩
    exact ⟨(hcount' rev).1.trans (hcount rev).1, (hcount' rev).2.trans (hcount rev).2⟩

/-! ### Rounds -/

/-- A pass, and the reports it gives rise to, in any order. -/
def Round (env : Env) (o : Config) (id : String) (w w' : World) : Prop :=
  let w₁ := (reconcileDeployment o id).final (exec env) w
  ∃ rs : List (String × WorkloadStatus × String),
    (rs.map fun r => (r.1, r.2.1)).Perm (reportsDue w₁ id) ∧ w' = afterReports env rs w₁

/-- The number of active replicas of an older revision. -/
def World.oldActive (w : World) (d : Deployment) : ℕ :=
  (oldRevisionWorkloads (w.activeOf d.id) d.prepared.currentRevision).length

/-- The wanted number of replicas is active, all of them running and of the current
revision. -/
structure Converged (d : Deployment) (w : World) : Prop where
  count : ((w.activeOf d.id).length : ℤ) = d.spec.replicas.toInt
  running : ∀ v ∈ w.activeOf d.id, v.status = .running
  current : ∀ v ∈ w.activeOf d.id, v.version = d.prepared.currentRevision

/-- In numbers: a pass of a rolling update culls old replicas, if there are any, and else
brings the number of replicas to what is wanted. -/
lemma Census.Rolled.progress {R S U : ℤ} {c c' : Census}
    (h : Census.Rolled R (max 0 (R - U)) n c c') (hR : 1 ≤ R) (hSU : 1 ≤ S + U) (hS : 0 ≤ S)
    (hU : 0 ≤ U) (hn : (n : ℤ) = min (max 0 (R - c.new)) (max 0 (R + S - c.total))) :
    (0 < c.old → c'.old < c.old) ∧ (c.old = 0 → c'.old = 0 ∧ (c'.total : ℤ) = R) := by
  have htotal : c.total = c.old + c.new := rfl
  constructor
  · intro hold
    exact h.old_lt hold (by omega)
  · intro hold
    have hle := h.old_le
    exact ⟨by omega, h.total_eq hold (by omega) (by omega)⟩

/-- What a pass of a rolling update does to the numbers, if every replica can be placed. -/
lemma Rolling.progress (hids : Function.Injective env.workloadID) (hw : Fresh env w)
    (hroll : Rolling d) (hsel : SelectsNodes env o d.prepared w)
    (hsec : SecretsStored d.prepared w.secrets) (h : Reconciled env o d w w') :
    let c := census d.prepared.currentRevision (w.deployed d.id)
    let c' := census d.prepared.currentRevision (w'.deployed d.id)
    (0 < c.old → c'.old < c.old) ∧
      (c.old = 0 → c'.old = 0 ∧ (c'.total : ℤ) = d.spec.replicas.toInt) := by
  intro c c'
  obtain ⟨hphase, hmin, hcreate⟩ := hroll.plan (w.deployed d.id)
  have hpass := (h.pass hroll.deadline).running hids hw
  have hrolled := hpass.2.2.1 ⟨hphase, createReplicas_none hsel hsec⟩
  change Census.Rolled d.spec.replicas.toInt _ _ c c' at hrolled
  change (rolloutPlan d.prepared (w.deployed d.prepared.id)).minAvailable = _ at hmin
  rw [hmin] at hrolled
  exact hrolled.progress hroll.replicas hroll.budget (normalized_maxSurge_nonneg _)
    (normalized_maxUnavailable_nonneg _)
    ((Int.toNat_of_nonneg (rolloutPlan_toCreate_nonneg _ _)).trans hcreate)

/-- After the reports nothing is pending. -/
lemma running_of_reportsDue_nil (h : reportsDue w id = []) {v : Workload}
    (hv : v ∈ w.activeOf id) : v.status = .running := by
  obtain ⟨hmem, hact⟩ := List.mem_filter.mp hv
  have hnone : dueReport v = none := List.filterMap_eq_nil_iff.mp h v hmem
  simp only [Workload.active, Bool.or_eq_true, decide_eq_true_eq] at hact
  rcases hact with hst | hst
  · exact hst
  · rw [dueReport, hst] at hnone
    cases hnone

/-- A round of a rolling update leaves fewer old replicas, or none and the wanted number. -/
lemma Rolling.round (hids : Function.Injective env.workloadID) (hw : Fresh env w)
    (hd : w.deps.get d.id = some d) (hroll : Rolling d) (hsel : SelectsNodes env o d.prepared w)
    (hsec : SecretsStored d.prepared w.secrets) (h : Round env o d.id w w') :
    (0 < w.oldActive d → w'.oldActive d < w.oldActive d) ∧
      (w.oldActive d = 0 → Converged d w') := by
  obtain ⟨rs, hrs, rfl⟩ := h
  have hprogress := hroll.progress hids hw hsel hsec (reconciled_final hd)
  generalize (reconcileDeployment o d.id).final (exec env) w = w₁ at hrs hprogress ⊢
  obtain ⟨hlt, hdone⟩ := hprogress
  have hsettled := reportsDue_afterReports env hrs
  generalize afterReports env rs w₁ = w' at hsettled ⊢
  obtain ⟨hnil, hcount⟩ := hsettled
  obtain ⟨hold', hnew'⟩ := hcount d.prepared.currentRevision
  simp only [World.oldActive, World.activeOf, length_oldActive, hold']
  refine ⟨hlt, fun hold => ?_⟩
  obtain ⟨hzero, htotal⟩ := hdone hold
  refine ⟨?_, fun v hv => running_of_reportsDue_nil hnil hv, ?_⟩
  · rw [World.activeOf, length_active d.prepared.currentRevision, Census.total, hold', hnew']
    exact htotal
  · intro v hv
    have hnone : oldRevisionWorkloads (w'.activeOf d.id) d.prepared.currentRevision = [] := by
      rw [← List.length_eq_zero_iff, World.activeOf, length_oldActive, hold', hzero]
    simpa using List.filter_eq_nil_iff.mp hnone v hv

lemma Converged.oldActive (h : Converged d w) : w.oldActive d = 0 := by
  rw [World.oldActive, List.length_eq_zero_iff]
  refine List.filter_eq_nil_iff.mpr ?_
  intro v hv
  simpa using h.current v hv

/-- From a converged state a pass changes nothing but the record of the deployment. -/
lemma Converged.pass (h : Converged d w) (hroll : Rolling d) (hp : Pass env o d.prepared w w') :
    w'.workloads = w.workloads ∧ w'.nodes = w.nodes ∧ w'.queue = w.queue := by
  obtain ⟨-, -, hcreate⟩ := hroll.plan (w.deployed d.id)
  have hold : (oldRevisionWorkloads (w.activeOf d.id) d.prepared.currentRevision).length = 0 :=
    h.oldActive
  have hcount := h.count
  have hnone : (rolloutPlan d.prepared (w.deployed d.id)).toCreate.toNat = 0 := by
    have htotal : (census d.prepared.currentRevision (w.deployed d.id)).total =
        (census d.prepared.currentRevision (w.deployed d.id)).old +
          (census d.prepared.currentRevision (w.deployed d.id)).new := rfl
    rw [World.activeOf, length_oldActive] at hold
    rw [World.activeOf, length_active d.prepared.currentRevision] at hcount
    omega
  obtain ⟨r, w₁, -, hc, hend⟩ := hp
  change Creations env d.prepared (rolloutPlan d.prepared (w.deployed d.id)).toCreate.toNat w r w₁
    at hc
  rw [hnone] at hc
  obtain ⟨rfl, rfl⟩ := creations_zero hc
  obtain ⟨w₂, hscale, d', -, he⟩ := hend
  have hw₂ : w₂ = w₁ := by
    split at hscale
    · exact hscale
    · refine hscale.eq_of_nil (pickScaleDownVictims_of_nonpos ?_) (pickScaleDownVictims_of_nonpos ?_)
      · exact (min_le_left _ _).trans (by exact_mod_cast hold.le)
      · exact (sub_eq_zero.mpr hcount).le
  subst hw₂
  exact ⟨he.workloads, he.nodes, he.queue⟩

/-! ### The record during a rollout -/

/-- The record of the deployment has the given core. -/
def Filed (id : String) (c : DepCore) (w : World) : Prop :=
  ∃ d, w.deps.get id = some d ∧ d.core = c

lemma WroteBack.filed (h : WroteBack c w w') : Filed c.id c.viaJSON w' := by
  obtain ⟨d', hd', he⟩ := h
  refine ⟨d', ?_, hd'⟩
  have hid : d'.id = c.id := congrArg DepCore.id hd'
  rw [he.deps, ← hid]
  exact Table.get_put_self _ d'

lemma Pass.filed (h : Pass env o dep w w') : Filed dep.id dep.core.viaJSON w' := by
  obtain ⟨r, w₁, -, -, hend⟩ := h
  cases r with
  | some e => exact hend.filed
  | none =>
    obtain ⟨w₂, -, hback⟩ := hend
    exact hback.filed

/-- A report keeps the core of every record. -/
lemma Reported.filed
    (h : Reported wid status w w') (hc : c.viaJSON = c) (hw : Filed id c w) : Filed id c w' := by
  rcases h with ⟨-, rfl⟩ | ⟨u, -, ⟨-, h⟩ | ⟨-, w₁, h, rfl | ⟨x, hx, d', hd', he⟩⟩⟩
  · exact hw
  · rwa [Filed, h.deps]
  · rwa [Filed, h.deps]
  · obtain ⟨d, hd, hcore⟩ := hw
    have hid : d'.id = x.id := congrArg DepCore.id hd'
    rw [Filed, he.deps]
    by_cases hxd : x.id = id
    · -- the record written back is that of this deployment
      have hxd' : x = d := by
        have hget := Table.get_of_mem hx
        rw [hxd, h.deps, hd] at hget
        exact (Option.some.inj hget).symm
      refine ⟨d', ?_, by rw [hd', hxd', hcore, hc]⟩
      rw [← hxd, ← hid]
      exact Table.get_put_self _ d'
    · refine ⟨d, ?_, hcore⟩
      rw [Table.get_put_of_ne _ (by rw [hid]; exact Ne.symm hxd), h.deps]
      exact hd

/-- After a round the record is what the pass has written back, up to its status. -/
lemma Round.filed (h : Round env o d.id w w')
    (hpass : Pass env o d.prepared w ((reconcileDeployment o d.id).final (exec env) w)) :
    Filed d.id d.prepared.core.viaJSON w' := by
  obtain ⟨rs, -, rfl⟩ := h
  exact afterReports_keeps (fun h hx => h.filed (DepCore.viaJSON_viaJSON _) hx) rs hpass.filed

lemma Round.fresh (hids : Function.Injective env.workloadID) (h : Round env o d.id w w')
    (hpass : Pass env o d.prepared w ((reconcileDeployment o d.id).final (exec env) w))
    (hw : Fresh env w) : Fresh env w' := by
  obtain ⟨rs, -, rfl⟩ := h
  exact afterReports_keeps (fun h hx => h.fresh hx) rs (hpass.running hids hw).1

lemma Reported.secrets (h : Reported wid status w w') :
    w'.secrets = w.secrets := by
  rcases h with ⟨-, rfl⟩ | ⟨u, -, ⟨-, -, cid, now, he⟩ | ⟨-, w₁, ⟨-, seen, he⟩, rfl | ⟨x, -, h⟩⟩⟩
  · rfl
  · exact he.secrets
  · exact he.secrets
  · obtain ⟨d', -, he'⟩ := h
    rw [he'.secrets, he.secrets]

lemma Round.secrets (h : Round env o id w w') : w'.secrets = w.secrets := by
  obtain ⟨rs, -, rfl⟩ := h
  have hpass : WritesIn creationTables (reconcileDeployment o id) := makes_reconcileDeployment id
  exact afterReports_keeps (I := fun x => x.secrets = w.secrets)
    (fun h hx => h.secrets.trans hx) rs ((hpass.spares (t := .secret) (by decide)).final env w)

/-- The record `d'` is of the same rollout as `d`: the same revision and number of replicas,
and again a rolling update that can proceed. -/
structure Continues (d d' : Deployment) : Prop where
  id : d'.id = d.id
  revision : d'.prepared.currentRevision = d.prepared.currentRevision
  replicas : d'.spec.replicas = d.spec.replicas
  rolling : Rolling d'
  secrets : ∀ {s}, SecretsStored d.prepared s → SecretsStored d'.prepared s

/-- What a pass writes back is of the same rollout. -/
lemma Rolling.continues (h : Rolling d) {d' : Deployment}
    (hcore : d'.core = d.prepared.core.viaJSON) : Continues d d' := by
  obtain ⟨hid, hspec, hrev, -, -⟩ := DepCore.mk.inj hcore
  change d'.spec = d.spec.normalized.viaJSON at hspec
  change d'.currentRevision = d.prepared.currentRevision at hrev
  have hrollout : d'.prepared.spec.rollout = d.prepared.spec.rollout := by
    change normalizeRolloutSpec d'.spec.rollout = normalizeRolloutSpec d.spec.rollout
    rw [hspec]
    exact normalizeRolloutSpec_idem _
  have hreplicas : d'.spec.replicas = d.spec.replicas := by rw [hspec]; rfl
  have hpos : ¬ d.prepared.currentRevision ≤ 0 := by
    change ¬ (if d.currentRevision ≤ 0 then 1 else d.currentRevision) ≤ 0
    split_ifs with hle
    · decide
    · exact hle
  refine ⟨hid, ?_, hreplicas, ⟨?_, ?_, ?_, ?_, ?_⟩, ?_⟩
  · change (if d'.currentRevision ≤ 0 then 1 else d'.currentRevision) = _
    rw [hrev, if_neg hpos]
  · rw [hrollout]
    exact h.strategy
  · rw [hreplicas]
    exact h.replicas
  · rw [hrollout]
    exact h.budget
  · rw [hreplicas, hrollout]
    exact h.fits
  · rw [hspec]
    change (if d.spec.rollout.progressDeadlineSeconds < 0 then 0
      else d.spec.rollout.progressDeadlineSeconds) ≤ 0
    split_ifs
    · decide
    · exact h.deadline
  · intro s hs
    simpa [SecretsStored, Deployment.prepared, DeploymentSpec.normalized, hspec,
      DeploymentSpec.viaJSON] using hs

/-! ### Convergence -/

/-- **Convergence of a rolling update.**  If a node is found for every replica and the secrets
it mounts are stored, then a round that starts with old replicas leaves fewer of them, a
round that starts with none leaves exactly the wanted number of replicas, all of them running
and of the current revision, and the record stays one of the same rollout; from a converged
state a pass changes no workload, no node and no assignment. -/
theorem rolling_update_convergence (o : Config) (hids : Function.Injective env.workloadID)
    {id : String} (hw : Fresh env w) (hd : w.deps.get id = some d) (hroll : Rolling d)
    (hsel : SelectsNodes env o d.prepared w) (hsec : SecretsStored d.prepared w.secrets) :
    (∀ w', Round env o id w w' →
      (0 < w.oldActive d → w'.oldActive d < w.oldActive d) ∧
      (w.oldActive d = 0 → Converged d w') ∧
      ∃ d', w'.deps.get id = some d' ∧ Continues d d') ∧
    (Converged d w →
      let w' := (reconcileDeployment o id).final (exec env) w
      w'.workloads = w.workloads ∧ w'.nodes = w.nodes ∧ w'.queue = w.queue) := by
  obtain rfl : d.id = id := Table.key_of_get hd
  have hrec : Reconciled env o d w _ := reconciled_final hd
  have hpass := hrec.pass hroll.deadline
  refine ⟨?_, fun hconv => hconv.pass hroll hpass⟩
  intro w' hround
  obtain ⟨hlt, hdone⟩ := hroll.round hids hw hd hsel hsec hround
  refine ⟨hlt, hdone, ?_⟩
  obtain ⟨d', hd', hcore⟩ := hround.filed hpass
  exact ⟨d', hd', hroll.continues hcore⟩

/-- The round in which every due report arrives in the order of the workloads. -/
def roundOnce (w : World) : World :=
  afterReports steadyEnv ((reportsDue (passOnce w) servingID).map fun r => (r.1, r.2, "c2"))
    (passOnce w)

lemma round_roundOnce (w : World) : Round steadyEnv plainConfig servingID w (roundOnce w) := by
  refine ⟨_, ?_, rfl⟩
  rw [List.map_map]
  exact List.Perm.of_eq (List.map_id _)

/-- A rolling update of one replica, with one replica of surge. -/
theorem rolling_update_convergence_one :
    let w := updatedWorld (rollingSpec "a" 1 1 0) (rollingSpec "b" 1 1 0)
    ∃ d, w.deps.get servingID = some d ∧ 0 < w.oldActive d ∧
      (roundOnce w).oldActive d < w.oldActive d := by
  intro w
  obtain ⟨d, hd, hroll, hsel, hmounts, hold⟩ : ∃ d, w.deps.get servingID = some d ∧ Rolling d ∧
      SelectsNodes steadyEnv plainConfig d.prepared w ∧ d.spec.secretMounts = none ∧
      0 < w.oldActive d := by
    decide +kernel
  have hsec : SecretsStored d.prepared w.secrets := by
    intro sm hsm
    change sm ∈ d.spec.secretMounts.getD [] at hsm
    rw [hmounts] at hsm
    cases hsm
  refine ⟨d, hd, hold, ?_⟩
  exact ((rolling_update_convergence plainConfig steadyEnv_ids (fresh_after _) hd hroll hsel hsec).1
    _ (round_roundOnce w)).1 hold

/-- The specification after an update that mounts a secret nobody has stored. -/
def mountingSpec : DeploymentSpec :=
  { rollingSpec "b" 1 1 0 with secretMounts := some [{ secretName := "absent", mountPath := "/s" }] }

/-- With a missing secret the placement fails although a node is found, and the round leaves
the old replica. -/
theorem rolling_update_stalls :
    let w := updatedWorld (rollingSpec "a" 1 1 0) mountingSpec
    Fresh steadyEnv w ∧ Round steadyEnv plainConfig servingID w (roundOnce w) ∧
      ∃ d, w.deps.get servingID = some d ∧ Rolling d ∧
        SelectsNodes steadyEnv plainConfig d.prepared w ∧ 0 < w.oldActive d ∧
        ¬ (roundOnce w).oldActive d < w.oldActive d := by
  intro w
  exact ⟨fresh_after _, round_roundOnce w, by decide +kernel⟩

/-- The rollout of `d` goes on in `w`. -/
structure Underway (env : Env) (d : Deployment) (w : World) : Prop where
  fresh : Fresh env w
  record : ∃ d', w.deps.get d.id = some d' ∧ Continues d d' ∧ SecretsStored d'.prepared w.secrets

/-- One round of an ongoing rollout. -/
lemma Underway.round (hids : Function.Injective env.workloadID) (h : Underway env d w)
    (hsel : ∀ d', w.deps.get d.id = some d' → SelectsNodes env o d'.prepared w)
    (hround : Round env o d.id w w') :
    Underway env d w' ∧ w'.oldActive d ≤ w.oldActive d - 1 ∧
      (w.oldActive d = 0 → Converged d w') := by
  obtain ⟨hw, d₁, hd₁, hcont, hsec⟩ := h
  have hold : ∀ x : World, x.oldActive d = x.oldActive d₁ := fun x => by
    rw [World.oldActive, World.oldActive, hcont.id, hcont.revision]
  rw [← hcont.id] at hd₁ hround
  have hrec : Reconciled env o d₁ w _ := reconciled_final hd₁
  have hpass := hrec.pass hcont.rolling.deadline
  obtain ⟨hlt, hdone⟩ := hcont.rolling.round hids hw hd₁ (hsel d₁ (hcont.id ▸ hd₁)) hsec hround
  obtain ⟨d₂, hd₂, hcore⟩ := hround.filed hpass
  have hnext := hcont.rolling.continues hcore
  rw [hold, hold]
  have hle : w'.oldActive d₁ ≤ w.oldActive d₁ - 1 := by
    rcases Nat.eq_zero_or_pos (w.oldActive d₁) with hzero | hpos
    · rw [(hdone hzero).oldActive]
      exact Nat.zero_le _
    · have := hlt hpos
      omega
  refine ⟨⟨hround.fresh hids hpass hw, d₂, hcont.id ▸ hd₂, ?_, ?_⟩, hle, ?_⟩
  · exact ⟨hnext.id.trans hcont.id, hnext.revision.trans hcont.revision,
      hnext.replicas.trans hcont.replicas, hnext.rolling, fun hs => hnext.secrets (hcont.secrets hs)⟩
  · rw [hround.secrets]
    exact hnext.secrets hsec
  · intro hzero
    obtain ⟨hcount, hrun, hcur⟩ := hdone hzero
    rw [hcont.id] at hcount hrun hcur
    rw [hcont.replicas] at hcount
    rw [hcont.revision] at hcur
    exact ⟨hcount, hrun, hcur⟩

/-- **A rolling update completes**: with `k` old replicas at the start, it has converged after
`k + 1` rounds and stays so after any more. -/
theorem rolling_update_completes (hids : Function.Injective env.workloadID) {W : ℕ → World}
    (hstart : Underway env d (W 0))
    (hsel : ∀ i < n, ∀ d', (W i).deps.get d.id = some d' → SelectsNodes env o d'.prepared (W i))
    (hround : ∀ i < n, Round env o d.id (W i) (W (i + 1))) (hn : (W 0).oldActive d < n) :
    Converged d (W n) := by
  have hinv : ∀ i < n, Underway env d (W i) ∧ (W i).oldActive d ≤ (W 0).oldActive d - i := by
    intro i
    induction i with
    | zero => exact fun _ => ⟨hstart, le_rfl⟩
    | succ i ih =>
      intro hi
      obtain ⟨hgo, hle⟩ := ih (by omega)
      obtain ⟨hnext, hless, -⟩ := hgo.round hids (hsel i (by omega)) (hround i (by omega))
      exact ⟨hnext, by omega⟩
  obtain ⟨m, rfl⟩ : ∃ m, n = m + 1 := ⟨n - 1, by omega⟩
  obtain ⟨hm, hle⟩ := hinv m m.lt_succ_self
  exact (hm.round hids (hsel m m.lt_succ_self) (hround m m.lt_succ_self)).2.2 (by omega)

/-- The rolling update of one replica has converged after two rounds. -/
theorem rolling_update_completes_one :
    let w := updatedWorld (rollingSpec "a" 1 1 0) (rollingSpec "b" 1 1 0)
    ∃ d, w.deps.get servingID = some d ∧ Converged d (roundOnce (roundOnce w)) := by
  intro w
  obtain ⟨d, hd, hroll, hmounts, hold⟩ : ∃ d, w.deps.get servingID = some d ∧ Rolling d ∧
      d.spec.secretMounts = none ∧ w.oldActive d < 2 := by
    decide +kernel
  have hsel : ∀ i < 2, ((roundOnce^[i] w).deps.get servingID).all fun d : Deployment =>
      SelectsNodes steadyEnv plainConfig d.prepared (roundOnce^[i] w) := by
    decide +kernel
  have hid : d.id = servingID := Table.key_of_get hd
  have hsec : SecretsStored d.prepared w.secrets := by
    simp [SecretsStored, Deployment.prepared, DeploymentSpec.normalized, hmounts]
  have hstart : Underway steadyEnv d w :=
    ⟨fresh_after _, d, hid ▸ hd, ⟨rfl, rfl, rfl, hroll, id⟩, hsec⟩
  refine ⟨d, hd, rolling_update_completes (o := plainConfig) (W := fun i => roundOnce^[i] w) (n := 2)
    steadyEnv_ids hstart (fun i hi d' hd' => ?_) (fun i _ => ?_) hold⟩
  · rw [hid] at hd'
    exact of_decide_eq_true (Option.all_eq_true _ _ |>.mp (hsel i hi) d' hd')
  · rw [hid, Function.iterate_succ_apply']
    exact round_roundOnce _

end Orchestrator
