/-
# The replicas that one pass leaves

What a reconcile pass does to the workloads, as a whole.  Workloads of other deployments are
touched only by preemption, and everything the pass creates belongs to the current revision
(`Spared`).  The number of active replicas of the deployment moves within the bounds of the
rollout, and a replica of the current revision is given up only when no old one is left: the
first round of terminations goes down to what has to be available, which is at most what is
wanted, so that the second round finds an excess only if the first one took every old replica.
-/
import Mathlib.Data.Prod.Lex
import Orchestrator.Logic.Verdict
import Orchestrator.Properties.Availability

namespace Orchestrator

open Lib

variable {env : Env} {o : Config} {d dep : Deployment} {w w₁ w' : World} {n : ℕ} {v : Workload}
  {m : ℤ} {l : List Workload}

/-! ### Workloads of other deployments -/

/-- What a part of a pass for `dep` leaves of the stored workloads: a record is an old one,
possibly changed if it belongs to `dep`, or a replica of the current revision under a newly drawn
id; and a record of another deployment is kept, unless it has a lower priority. -/
structure Spared (env : Env) (dep : Deployment) (w w' : World) : Prop where
  known : ∀ v ∈ w'.workloads.rows,
    (∃ u ∈ w.workloads.rows, u.id = v.id ∧ u.version = v.version ∧
      (v = u ∨ (u.deploymentID = dep.id ∧ v.deploymentID = dep.id))) ∨
    ∃ k, w.tick ≤ k ∧ v.id = env.workloadID k ∧ v.deploymentID = dep.id ∧
      v.version = dep.currentRevision
  lost : ∀ u ∈ w.workloads.rows, u.deploymentID ≠ dep.id → u ∈ w'.workloads.rows ∨
    (u.priority < dep.spec.priority ∧ ∀ v ∈ w'.workloads.rows, v.id ≠ u.id)
  tick : w.tick ≤ w'.tick

lemma Spared.of_workloads (h : w'.workloads = w.workloads) (ht : w.tick ≤ w'.tick) :
    Spared env dep w w' := by
  refine ⟨?_, ?_, ht⟩
  · intro v hv
    rw [h] at hv
    exact Or.inl ⟨v, hv, rfl, rfl, Or.inl rfl⟩
  · intro u hu _
    rw [h]
    exact Or.inl hu

lemma Quiet.spared (h : Quiet w w') : Spared env dep w w' := .of_workloads h.workloads h.tick

/-- One part after the other: an id that was lost is not drawn again. -/
lemma Spared.trans (hw : Fresh env w) (h : Spared env dep w w₁) (h' : Spared env dep w₁ w') :
    Spared env dep w w' := by
  refine ⟨?_, ?_, h.tick.trans h'.tick⟩
  · intro v hv
    rcases h'.known v hv with ⟨u, hu, huv, huver, hown⟩ | ⟨k, hk, hnew⟩
    · rcases h.known u hu with ⟨x, hx, hxu, hxver, hown'⟩ | ⟨k, hk, hid, hdep, hver⟩
      · refine Or.inl ⟨x, hx, hxu.trans huv, hxver.trans huver, ?_⟩
        rcases hown with rfl | ⟨hu', hv'⟩
        · exact hown'
        · rcases hown' with rfl | ⟨hx', -⟩
          · exact Or.inr ⟨hu', hv'⟩
          · exact Or.inr ⟨hx', hv'⟩
      · rcases hown with rfl | ⟨-, hv'⟩
        · exact Or.inr ⟨k, hk, hid, hdep, hver⟩
        · exact Or.inr ⟨k, hk, huv ▸ hid, hv', huver ▸ hver⟩
    · exact Or.inr ⟨k, h.tick.trans hk, hnew⟩
  · intro u hu hother
    rcases h.lost u hu hother with hu₁ | ⟨hprio, hgone⟩
    · exact h'.lost u hu₁ hother
    · refine Or.inr ⟨hprio, ?_⟩
      intro v hv hvu
      rcases h'.known v hv with ⟨x, hx, hxv, -⟩ | ⟨k, hk, hid, -⟩
      · exact hgone x hx (hxv.trans hvu)
      · exact hw u hu k (h.tick.trans hk) (hvu.symm.trans hid)

lemma Evicted.spared (h : Evicted dep w w') : Spared env dep w w' := by
  obtain ⟨v, n, seen, hv, he⟩ := h
  obtain ⟨hmem, hprio, -⟩ := preemptionVictim_some hv
  refine ⟨?_, ?_, he.tick⟩
  · intro u hu
    rw [he.workloads, Table.mem_rows_del] at hu
    exact Or.inl ⟨u, hu.1, rfl, rfl, Or.inl rfl⟩
  · intro u hu _
    rw [he.workloads]
    by_cases huv : u.id = v.id
    · obtain rfl := Table.eq_of_mem_of_key_eq hu hmem huv
      exact Or.inr ⟨hprio, fun x hx => (Table.mem_rows_del.mp hx).2⟩
    · exact Or.inl (Table.mem_rows_del.mpr ⟨hu, huv⟩)

lemma MadeRoom.spared (h : MadeRoom dep w w') : Spared env dep w w' :=
  h.elim Quiet.spared Evicted.spared

lemma Placed.spared (h : Placed env dep w w') (hw : Fresh env w) : Spared env dep w w' := by
  obtain ⟨n, v, k, seen, A, -, -, hrep, hid, hk, -, he⟩ := h
  refine ⟨?_, ?_, he.tick⟩
  · intro u hu
    rw [he.workloads, Table.mem_rows_put] at hu
    rcases hu with rfl | ⟨hu, -⟩
    · exact Or.inr ⟨k, hk, hid, hrep.deploymentID, hrep.version⟩
    · exact Or.inl ⟨u, hu, rfl, rfl, Or.inl rfl⟩
  · intro u hu _
    rw [he.workloads]
    exact Or.inl (Table.mem_rows_put.mpr (Or.inr ⟨hu, fun huv => hw u hu k hk (huv.trans hid)⟩))

lemma Creation.spared {r : Except Err Unit} (h : Creation env dep w r w') (hw : Fresh env w) :
    Spared env dep w w' := by
  rcases h with ⟨-, ⟨w₁, hc, hp⟩, -⟩ | ⟨-, -, h⟩
  · exact hc.madeRoom.spared.trans hw (hp.spared (hc.madeRoom.fresh hw))
  · exact MadeRoom.spared h

lemma PlacedMany.spared (hids : Function.Injective env.workloadID)
    (h : PlacedMany env dep n w w') (hw : Fresh env w) : Spared env dep w w' := by
  induction h with
  | zero w => exact (Quiet.refl w).spared
  | succ h _ ih => exact (h.spared hw).trans hw (ih (h.enlarged hids hw).1)

lemma Creations.spared (hids : Function.Injective env.workloadID) {r : Option Err}
    (h : Creations env dep n w r w') (hw : Fresh env w) : Spared env dep w w' := by
  cases r with
  | none => exact PlacedMany.spared hids h hw
  | some e =>
    obtain ⟨j, w₁, -, hmany, hc⟩ := h
    exact (hmany.spared hids hw).trans hw (hc.spared (hmany.enlarged hids hw).1)

/-- Marking replicas of the deployment. -/
lemma MarkedBy.spared {vs : List Workload} (h : MarkedBy vs w w')
    (hvs : ∀ v ∈ vs, v ∈ w.deployed dep.id) : Spared env dep w w' := by
  obtain ⟨τ, W, A, he, hW, -⟩ := h
  have hown : ∀ u ∈ w.workloads.rows, u.id ∈ vs.map Workload.id → u.deploymentID = dep.id := by
    intro u hu huvs
    obtain ⟨v, hv, hvu⟩ := List.mem_map.mp huvs
    obtain ⟨hv', hdep⟩ := mem_deployed.mp (hvs v hv)
    obtain rfl := Table.eq_of_mem_of_key_eq hv' hu hvu
    exact hdep
  refine ⟨?_, ?_, he.tick⟩
  · intro v hv
    rw [he.workloads, hW] at hv
    obtain ⟨u, hu, rfl⟩ := List.mem_map.mp hv
    refine Or.inl ⟨u, hu, ?_⟩
    split_ifs with huvs
    · exact ⟨rfl, rfl, Or.inr ⟨hown u hu huvs, hown u hu huvs⟩⟩
    · exact ⟨rfl, rfl, Or.inl rfl⟩
  · intro u hu hother
    rw [he.workloads, hW]
    refine Or.inl (List.mem_map.mpr ⟨u, hu, ?_⟩)
    rw [if_neg fun huvs => hother (hown u hu huvs)]

lemma mem_oldVictims (h : v ∈ oldVictims dep m w) :
    v ∈ w.activeOf dep.id ∧ v.version ≠ dep.currentRevision := by
  obtain ⟨hv, -⟩ := mem_pickScaleDownVictims h
  obtain ⟨hv, hver⟩ := List.mem_filter.mp hv
  exact ⟨hv, by simpa using hver⟩

lemma mem_deployed_of_activeOf {id : String} (h : v ∈ w.activeOf id) :
    v ∈ w.deployed id := (List.mem_filter.mp h).1

lemma ScaledDown.spared (h : ScaledDown dep m w w') (hw : Fresh env w) :
    Spared env dep w w' := by
  obtain ⟨w₁, h₁, h₂⟩ := h
  have hold : Spared env dep w w₁ :=
    h₁.spared fun v hv => mem_deployed_of_activeOf (mem_oldVictims hv).1
  refine hold.trans hw (h₂.spared ?_)
  exact fun v hv => mem_deployed_of_activeOf (mem_pickScaleDownVictims hv).1

lemma WroteBack.spared {c : DepCore} (h : WroteBack c w w') : Spared env dep w w' := by
  obtain ⟨d', -, he⟩ := h
  exact .of_workloads he.workloads he.tick

lemma Pass.spared (hids : Function.Injective env.workloadID) (hw : Fresh env w)
    (h : Pass env o dep w w') : Spared env dep w w' := by
  obtain ⟨r, w₁, -, hc, hend⟩ := h
  have hw₁ := (hc.enlarged hids hw).1
  refine (hc.spared hids hw).trans hw ?_
  cases r with
  | some e => exact WroteBack.spared hend
  | none =>
    obtain ⟨w₂, hscale, hback⟩ := hend
    split at hscale
    · subst hscale
      exact hback.spared
    · exact (hscale.spared hw₁).trans hw₁ hback.spared

/-- A pass spares the workloads of other deployments. -/
lemma Reconciled.spared (hids : Function.Injective env.workloadID) (hw : Fresh env w)
    (h : Reconciled env o d w w') : Spared env d.prepared w w' := by
  have hq := quiet_afterDeadlineCheck env d.prepared w
  have hw₀ : Fresh env (afterDeadlineCheck env d.prepared w) :=
    hw.of_workloads hq.workloads hq.tick
  refine hq.spared.trans hw ?_
  rcases h with ⟨-, h | ⟨_, _, -, h⟩⟩ | ⟨-, h⟩
  · exact h.spared
  · exact h.spared
  · exact h.spared hids hw₀

/-! ### The numbers of a pass -/

/-- The plan creates no more than the surge allows. -/
lemma rolloutPlan_total_le
    (hfits : dep.spec.replicas.toInt + dep.spec.rollout.rollingUpdate.maxSurge.toInt < 2 ^ 63)
    (hsurge : 0 ≤ dep.spec.rollout.rollingUpdate.maxSurge.toInt) :
    ((census dep.currentRevision l).total : ℤ) + (rolloutPlan dep l).toCreate ≤
      max ((census dep.currentRevision l).total : ℤ)
        (dep.spec.replicas.toInt + dep.spec.rollout.rollingUpdate.maxSurge.toInt) := by
  have hlow := dep.spec.replicas.le_toInt
  have hwrap : wrap64 (dep.spec.replicas.toInt + dep.spec.rollout.rollingUpdate.maxSurge.toInt) =
      dep.spec.replicas.toInt + dep.spec.rollout.rollingUpdate.maxSurge.toInt :=
    Int64.toInt_ofInt_of_le (by omega) hfits
  have hcreate : (rolloutPlan dep l).toCreate ≤ max 0 (max dep.spec.replicas.toInt
      (wrap64 (dep.spec.replicas.toInt + dep.spec.rollout.rollingUpdate.maxSurge.toInt)) -
        (activeWorkloads l).length) := min_le_right _ _
  rw [hwrap, length_active dep.currentRevision] at hcreate
  omega

/-- **The stages of a pass** within its deadline, as the workloads of the deployment show
them: some of the planned replicas are created, and if it is all of them and no canary is held,
the two rounds of terminations follow. -/
lemma Reconciled.stages (hids : Function.Injective env.workloadID) (hw : Fresh env w)
    (hpast : ¬ PastDeadline env d.prepared w) (h : Reconciled env o d w w') :
    let dep := d.prepared
    let plan := rolloutPlan dep (w.deployed dep.id)
    ∃ j w₁, j ≤ plan.toCreate.toNat ∧ Enlarged dep j w w₁ ∧
      ((¬ Prunes env o dep w ∧ w'.deployed dep.id = w₁.deployed dep.id) ∨
        (Prunes env o dep w ∧ j = plan.toCreate.toNat ∧ ∃ w₂,
          ScaledDown dep plan.minAvailable w₁ w₂ ∧ w'.deployed dep.id = w₂.deployed dep.id)) := by
  intro dep plan
  have hq := quiet_afterDeadlineCheck env dep w
  have hw₀ : Fresh env (afterDeadlineCheck env dep w) := hw.of_workloads hq.workloads hq.tick
  obtain ⟨r, w₁, hr, hc, hend⟩ := (h.resolve_left fun h => hpast h.1).2
  rw [hq.deployed] at hr hc hend
  obtain ⟨-, j, hgrow, hj, hle, -⟩ := hc.enlarged hids hw₀
  have hgrow' : Enlarged dep j w w₁ := by
    rwa [Enlarged, hq.deployed] at hgrow
  refine ⟨j, w₁, hle, hgrow', ?_⟩
  cases r with
  | some e =>
    refine Or.inl ⟨?_, WroteBack.deployed hend _⟩
    rintro ⟨-, -, hnone⟩
    rw [hr] at hnone
    cases hnone
  | none =>
    obtain ⟨w₂, hscale, hback⟩ := hend
    by_cases hphase : plan.phase = .canary
    · rw [if_pos hphase] at hscale
      subst hscale
      exact Or.inl ⟨fun h => h.2.1 hphase, hback.deployed _⟩
    · rw [if_neg hphase] at hscale
      exact Or.inr ⟨⟨hpast, hphase, hr⟩, hj rfl, w₂, hscale, hback.deployed _⟩

/-! ### Terminated replicas -/

/-- A replica that the step from `w` to `w'` has terminated: it was active before, or was not
there. -/
def Terminated (id : String) (w w' : World) (v : Workload) : Prop :=
  v ∈ w'.deployed id ∧ v.status = .terminating ∧
    ∀ u ∈ w.deployed id, u.id = v.id → u.active = true

lemma not_active_of_terminating (h : v.status = .terminating) :
    v.active = false := by
  simp [Workload.active, h]

/-- Creating replicas terminates none. -/
lemma Enlarged.not_terminated (h : Enlarged dep n w w')
    (hv : v ∈ w'.deployed dep.id) (hst : v.status = .terminating)
    (hbefore : ∀ u ∈ w.deployed dep.id, u.id = v.id → u.active = true) : False := by
  have hv₀ : v ∈ w.deployed dep.id := h.mem hv (by simp [hst])
  have hactive := hbefore v hv₀ rfl
  rw [not_active_of_terminating hst] at hactive
  cases hactive

/-- A marked workload, from its record afterwards. -/
lemma MarkedBy.cases {vs : List Workload} (h : MarkedBy vs w w') {id : String}
    (hv : v ∈ w'.deployed id) : v ∈ w.deployed id ∨
      ∃ u ∈ w.deployed id, u.id ∈ vs.map Workload.id ∧ u.id = v.id ∧ u.version = v.version := by
  obtain ⟨τ, hτ⟩ := h.deployed id
  rw [hτ] at hv
  obtain ⟨u, hu, rfl⟩ := List.mem_map.mp hv
  split_ifs with huvs
  · exact Or.inr ⟨u, hu, huvs, rfl, rfl⟩
  · exact Or.inl hu

/-- A replica of the current revision is terminated only as one in excess. -/
lemma ScaledDown.excess_of_terminated (hgrow : Enlarged dep n w w₁)
    (h : ScaledDown dep m w₁ w') (hv : v ∈ w'.deployed dep.id) (hst : v.status = .terminating)
    (hver : v.version = dep.currentRevision)
    (hbefore : ∀ u ∈ w.deployed dep.id, u.id = v.id → u.active = true) :
    dep.spec.replicas.toInt <
      ((census dep.currentRevision (w.deployed dep.id)).pruned m n).total := by
  obtain ⟨w₂, h₁, h₂⟩ := h
  have hcensus : census dep.currentRevision (w₂.deployed dep.id) =
      (census dep.currentRevision (w.deployed dep.id)).pruned m n := by
    rw [h₁.cullOld, hgrow.census_eq]
    rfl
  rcases h₂.cases hv with hv₂ | ⟨u, -, hu, -⟩
  · -- not marked in the second round; the first one marks old revisions only
    rcases h₁.cases hv₂ with hv₁ | ⟨u, hu, huvs, -, huver⟩
    · exact (hgrow.not_terminated hv₁ hst hbefore).elim
    · obtain ⟨x, hx, hxu⟩ := List.mem_map.mp huvs
      obtain ⟨hx', hold⟩ := mem_oldVictims hx
      obtain rfl := Table.eq_of_mem_of_key_eq
        (mem_deployed.mp (mem_deployed_of_activeOf hx')).1 (mem_deployed.mp hu).1 hxu
      exact absurd (huver.trans hver) hold
  · by_contra hle
    have hnone : excessVictims dep w₂ = [] := by
      refine pickScaleDownVictims_of_nonpos ?_
      rw [World.activeOf, length_active dep.currentRevision, hcensus]
      omega
    rw [hnone] at hu
    cases hu

/-! ### The bounds -/

/-- **Replica bounds** of a pass within its deadline, for a deployment that asks for `R` replicas
(no negative number) with a surge of `S` (after normalization): the number of active replicas stays
below the larger of what it was and `R + S`; what is created belongs to the current revision;
workloads of other deployments are kept, or were of lower priority and are gone; a pass that
reaches its terminations leaves at most `R` active replicas; and a replica of the current revision
is terminated only if no old one and at least `R` new ones stay active. -/
theorem replica_bounds (o : Config) {id : String} (hids : Function.Injective env.workloadID)
    (hw : Fresh env w) (hd : w.deps.get id = some d) (hpast : ¬ PastDeadline env d.prepared w)
    (hnonneg : 0 ≤ d.prepared.spec.replicas.toInt)
    (hfits : d.prepared.spec.replicas.toInt +
      d.prepared.spec.rollout.rollingUpdate.maxSurge.toInt < 2 ^ 63) :
    let R := d.prepared.spec.replicas.toInt
    let S := d.prepared.spec.rollout.rollingUpdate.maxSurge.toInt
    let rev := d.prepared.currentRevision
    let w' := (reconcileDeployment o id).final (exec env) w
    ((w'.activeOf id).length : ℤ) ≤ max ((w.activeOf id).length : ℤ) (R + S) ∧
    (∀ v ∈ w'.workloads.rows, w.workloads.get v.id = none →
      v.deploymentID = id ∧ v.version = rev) ∧
    ((∀ v ∈ w'.workloads.rows, v.deploymentID ≠ id → v ∈ w.workloads.rows) ∧
      ∀ u ∈ w.workloads.rows, u.deploymentID ≠ id → u ∈ w'.workloads.rows ∨
        (w'.workloads.get u.id = none ∧ u.priority < d.spec.priority)) ∧
    (Prunes env o d.prepared w → ((w'.activeOf id).length : ℤ) ≤ R) ∧
    ∀ v, Terminated id w w' v → v.version = rev →
      (∀ u ∈ w'.activeOf id, u.version = rev) ∧
        R ≤ (activeForRevision (w'.activeOf id) rev).length := by
  intro R S rev w'
  obtain rfl : d.id = id := Table.key_of_get hd
  have hpass : Reconciled env o d w w' := reconciled_final hd
  have hspared := hpass.spared hids hw
  obtain ⟨j, w₁, hj, hgrow, hend⟩ := hpass.stages hids hw hpast
  have hS : 0 ≤ S := normalized_maxSurge_nonneg d.spec.rollout
  have hU : 0 ≤ d.prepared.spec.rollout.rollingUpdate.maxUnavailable.toInt :=
    normalized_maxUnavailable_nonneg d.spec.rollout
  have hplan := rolloutPlan_total_le (l := w.deployed d.id) hfits hS
  have hcreate := rolloutPlan_toCreate_nonneg d.prepared (w.deployed d.id)
  have hlength : ∀ x : World, (x.activeOf d.id).length =
      (census rev (x.deployed d.prepared.id)).total := fun x => length_active rev
  refine ⟨?_, ?_, ⟨?_, ?_⟩, ?_, ?_⟩
  · have hle : (census rev (w'.deployed d.prepared.id)).total ≤
        (census rev (w.deployed d.prepared.id)).total +
          (rolloutPlan d.prepared (w.deployed d.prepared.id)).toCreate.toNat := by
      rcases hend with ⟨-, hsame⟩ | ⟨-, rfl, w₂, hscale, hsame⟩
      · rw [hsame, hgrow.census_eq, Census.total_grow]
        exact Nat.add_le_add_left hj _
      · rw [hsame]
        exact (hgrow.rolled hscale).total_le_add
    rw [hlength, hlength]
    refine le_trans ?_ hplan
    rw [← Int.toNat_of_nonneg hcreate]
    exact_mod_cast hle
  · intro v hv hnew
    rcases hspared.known v hv with ⟨u, hu, huv, -⟩ | ⟨k, -, -, hdep, hver⟩
    · exact absurd huv (Table.get_eq_none_iff.mp hnew u hu)
    · exact ⟨hdep, hver⟩
  · intro v hv hother
    rcases hspared.known v hv with ⟨u, hu, -, -, rfl | ⟨-, hown⟩⟩ | ⟨k, -, -, hown, -⟩
    · exact hu
    · exact absurd hown hother
    · exact absurd hown hother
  · intro u hu hother
    rcases hspared.lost u hu hother with hu' | ⟨hprio, hgone⟩
    · exact Or.inl hu'
    · exact Or.inr ⟨Table.get_eq_none_iff.mpr hgone, hprio⟩
  · intro hprunes
    obtain ⟨-, -, w₂, hscale, hsame⟩ := hend.resolve_left fun h => h.1 hprunes
    rw [hlength, hsame]
    exact (hgrow.rolled hscale).total_le.trans_eq (max_eq_right hnonneg)
  · rintro v ⟨hv, hst, hbefore⟩ hver
    rcases hend with ⟨-, hsame⟩ | ⟨-, rfl, w₂, hscale, hsame⟩
    · exact (hgrow.not_terminated (hsame ▸ hv) hst hbefore).elim
    · have hexcess := hscale.excess_of_terminated hgrow (hsame ▸ hv) hst hver hbefore
      obtain ⟨hold, hnew⟩ := (hgrow.rolled hscale).of_excess hU rfl hexcess
      rw [← hsame] at hold hnew
      constructor
      · rw [← length_oldActive, List.length_eq_zero_iff, oldRevisionWorkloads,
          List.filter_eq_nil_iff] at hold
        intro u hu
        simpa using hold u hu
      · exact hnew.trans_eq (congrArg _ length_newActive.symm)

/-- Two running replicas of which one may be unavailable: the pass after an update keeps within
the bounds. -/
theorem replica_bounds_two :
    let w := updatedWorld (rollingSpec "a" 2 1 1) (rollingSpec "b" 2 1 1)
    (w.activeOf servingID).length = 2 ∧ (((passOnce w).activeOf servingID).length : ℤ) ≤ 3 := by
  intro w
  obtain ⟨d, hd, ⟨hlen, hR, hS⟩, hpast⟩ : ∃ d, w.deps.get servingID = some d ∧
      ((w.activeOf servingID).length = 2 ∧ d.prepared.spec.replicas.toInt = 2 ∧
        d.prepared.spec.rollout.rollingUpdate.maxSurge.toInt = 1) ∧
      (progressDeadlineExceeded d.prepared).result (exec steadyEnv) w ≠ .ok true := by
    decide +kernel
  have hw : Fresh steadyEnv w := fresh_after _
  have hbound := (replica_bounds plainConfig steadyEnv_ids hw hd hpast (by omega) (by omega)).1
  refine ⟨hlen, hbound.trans ?_⟩
  rw [hlen, hR, hS]
  decide

/-! ### The verdict of a pass -/

lemma rolloutPlan_phase (dep : Deployment) (l : List Workload) :
    (rolloutPlan dep l).phase = .progressing ∨ (rolloutPlan dep l).phase = .canary ∨
      (rolloutPlan dep l).phase = .canaryPromoting := by
  simp only [rolloutPlan]
  split_ifs
  · exact Or.inr (Or.inr rfl)
  · exact Or.inr (Or.inl rfl)
  · exact Or.inl rfl

/-- A canary is held only while there are old replicas. -/
lemma old_pos_of_canary (h : (rolloutPlan dep l).phase = .canary) :
    0 < (census dep.currentRevision l).old := by
  simp only [rolloutPlan] at h
  split_ifs at h with hcanary
  obtain ⟨-, -, hold⟩ := hcanary
  have hnew : (activeForRevision (activeWorkloads l) dep.currentRevision).length =
      (census dep.currentRevision l).new := length_newActive
  rw [length_active dep.currentRevision, hnew] at hold
  simp only [Census.total] at hold
  omega

/-- All active replicas run and are of the new revision, in numbers. -/
lemma forall_running_current_iff {rev : ℤ} :
    (∀ v ∈ activeWorkloads l, v.status = .running ∧ v.version = rev) ↔
      (census rev l).old = 0 ∧ (census rev l).newPending = 0 := by
  simp only [Census.old, Nat.add_eq_zero_iff, census, List.countP_eq_zero, Bool.and_eq_true,
    decide_eq_true_eq, not_and]
  constructor
  · intro h
    have hactive : ∀ v ∈ l, v.status = .running ∨ v.status = .pending →
        v.status = .running ∧ v.version = rev := fun v hv hst =>
      h v (List.mem_filter.mpr ⟨hv, by simpa [Workload.active] using hst⟩)
    refine ⟨⟨?_, ?_⟩, ?_⟩
    · exact fun v hv hver hst => hver (hactive v hv (Or.inl hst)).2
    · exact fun v hv hver hst => hver (hactive v hv (Or.inr hst)).2
    · intro v hv _ hst
      have hrun := (hactive v hv (Or.inr hst)).1
      rw [hst] at hrun
      cases hrun
  · rintro ⟨⟨hrun, hpend⟩, hnew⟩ v hv
    obtain ⟨hv, hactive⟩ := List.mem_filter.mp hv
    simp only [Workload.active, Bool.or_eq_true, decide_eq_true_eq] at hactive
    by_cases hver : v.version = rev
    · exact ⟨hactive.resolve_right (hnew v hv hver), hver⟩
    · exact absurd hactive (not_or.mpr ⟨hrun v hv hver, hpend v hv hver⟩)

/-- The rollout is complete, in numbers. -/
lemma complete_iff : Complete dep (activeWorkloads l) ↔
    dep.spec.replicas.toInt ≤ (census dep.currentRevision l).running ∧
      (census dep.currentRevision l).old = 0 := by
  have hcount : runningCount (activeWorkloads l) =
      (census dep.currentRevision (activeWorkloads l)).running := runningCount_eq
  rw [Complete, length_oldActive, hcount, census_active]

/-- After the terminations, completeness is equality. -/
lemma Census.complete_iff_eq {R : ℤ} {c : Census} (h : (c.total : ℤ) ≤ max 0 R) :
    (R ≤ c.running ∧ c.old = 0) ↔ (c.total : ℤ) = max 0 R ∧ c.old = 0 ∧ c.newPending = 0 := by
  simp only [Census.total, Census.running, Census.old, Census.new] at h ⊢
  omega

/-- After a pass that could place its replicas, a complete rollout has exactly the replicas that are
asked for, all of the new revision and running. -/
lemma Reconciled.complete_iff (h : Reconciled env o d w w')
    (hids : Function.Injective env.workloadID) (hw : Fresh env w)
    (hpast : ¬ PastDeadline env d.prepared w)
    (hok : (createReplicas o d.prepared
      (rolloutPlan d.prepared (w.deployed d.prepared.id)).toCreate.toNat).result (exec env)
        (afterDeadlineCheck env d.prepared w) = .ok none) :
    Complete d.prepared (w'.activeOf d.id) ↔
      ((w'.activeOf d.id).length : ℤ) = max 0 d.prepared.spec.replicas.toInt ∧
        ∀ v ∈ w'.activeOf d.id, v.status = .running ∧ v.version = d.prepared.currentRevision := by
  obtain ⟨j, w₁, -, hgrow, hend⟩ := h.stages hids hw hpast
  rw [World.activeOf, forall_running_current_iff, length_active d.prepared.currentRevision,
    Orchestrator.complete_iff]
  rcases hend with ⟨hno, hsame⟩ | ⟨-, -, w₂, hscale, hsame⟩
  · -- only a canary keeps the pass from terminating, and then old replicas stay
    have hcanary : (rolloutPlan d.prepared (w.deployed d.prepared.id)).phase = .canary := by
      by_contra hne
      exact hno ⟨hpast, hne, hok⟩
    have hold : (census d.prepared.currentRevision (w'.deployed d.id)).old ≠ 0 := by
      rw [show w'.deployed d.id = w₁.deployed d.prepared.id from hsame, hgrow.census_eq]
      exact (old_pos_of_canary hcanary).ne'
    exact ⟨fun h => absurd h.2 hold, fun h => absurd h.2.1 hold⟩
  · have hle := (hgrow.rolled hscale).total_le
    rw [← hsame] at hle
    exact Census.complete_iff_eq hle

/-- **The verdict is exact.**  A pass that reaches its end stores the phase `Stable` if and only if
the active replicas are as many as are wanted, all running and all of the current revision.
Otherwise the phase is one of a rollout in progress and the deployment is not available; the branch
for an unfinished rollout never finds it complete. -/
theorem stable_verdict_exact (o : Config) {id : String} (hids : Function.Injective env.workloadID)
    (hw : Fresh env w) (hd : w.deps.get id = some d) (hpast : ¬ PastDeadline env d.prepared w)
    (hnonneg : 0 ≤ d.prepared.spec.replicas.toInt)
    (hok : (createReplicas o d.prepared
      (rolloutPlan d.prepared (w.deployed d.prepared.id)).toCreate.toNat).result (exec env)
        (afterDeadlineCheck env d.prepared w) = .ok none) :
    let R := d.prepared.spec.replicas.toInt
    let rev := d.prepared.currentRevision
    let w' := (reconcileDeployment o id).final (exec env) w
    ∃ d', w'.deps.get id = some d' ∧
      (d'.rolloutStatus.phase = .stable ↔ ((w'.activeOf id).length : ℤ) = R ∧
        ∀ v ∈ w'.activeOf id, v.status = .running ∧ v.version = rev) ∧
      (d'.rolloutStatus.phase ≠ .stable → d'.Declares .available false ∧
        (d'.rolloutStatus.phase = .progressing ∨ d'.rolloutStatus.phase = .canary ∨
          d'.rolloutStatus.phase = .canaryPromoting)) ∧
      (Complete d.prepared (w'.activeOf id) →
        R ≤ (activeForRevision (w'.activeOf id) rev).length) := by
  intro R rev w'
  obtain rfl : d.id = id := Table.key_of_get hd
  have hpass : Reconciled env o d w w' := reconciled_final hd
  obtain ⟨d', hd', hann⟩ := (reconcileDeployment_verdict hd hpast hok).run
  have hexact := hpass.complete_iff hids hw hpast hok
  rw [max_eq_right hnonneg] at hexact
  have hphase := rolloutPlan_phase d.prepared (w.deployed d.prepared.id)
  refine ⟨d', hd', ?_, ?_, ?_⟩
  · rw [← hexact, hann.phase_eq]
    split_ifs with hc
    · exact ⟨fun _ => hc, fun _ => rfl⟩
    · refine ⟨fun h => ?_, fun h => absurd h hc⟩
      rcases hphase with hp | hp | hp <;> rw [hp] at h <;> cases h
  · intro hne
    have hc : ¬ Complete d.prepared (w'.activeOf d.prepared.id) := by
      intro hc
      rw [hann.phase_eq, if_pos hc] at hne
      exact hne rfl
    have hcond := hann.condition
    rw [decide_eq_false hc] at hcond
    rw [hann.phase_eq, if_neg hc]
    exact ⟨hcond, hphase⟩
  · intro hc
    obtain ⟨hlen, hall⟩ := hexact.mp hc
    have hsame : activeForRevision (w'.activeOf d.id) rev = w'.activeOf d.id :=
      List.filter_eq_self.mpr fun v hv => by simpa using (hall v hv).2
    rw [hsame, hlen]

/-- A deployment whose only replica runs. -/
def servedWorld : World :=
  (after (Sys.step steadyEnv plainConfig) (servingRun (rollingSpec "a" 1 0 0)) Sys.init).world

/-- It is found stable. -/
theorem stable_verdict_exact_served :
    ∃ d, (passOnce servedWorld).deps.get servingID = some d ∧ d.rolloutStatus.phase = .stable := by
  obtain ⟨d, hd, hpast, hok, hnonneg, hexact⟩ : ∃ d, servedWorld.deps.get servingID = some d ∧
      (progressDeadlineExceeded d.prepared).result (exec steadyEnv) servedWorld ≠ .ok true ∧
      (createReplicas plainConfig d.prepared (rolloutPlan d.prepared
        (servedWorld.deployed d.prepared.id)).toCreate.toNat).result (exec steadyEnv)
        (afterDeadlineCheck steadyEnv d.prepared servedWorld) = .ok none ∧
      0 ≤ d.prepared.spec.replicas.toInt ∧
      ((((passOnce servedWorld).activeOf servingID).length : ℤ) =
          d.prepared.spec.replicas.toInt ∧
        ∀ v ∈ (passOnce servedWorld).activeOf servingID,
          v.status = .running ∧ v.version = d.prepared.currentRevision) := by
    decide +kernel
  have hw : Fresh steadyEnv servedWorld := fresh_after _
  obtain ⟨d', hd', hstable, -⟩ :=
    stable_verdict_exact plainConfig steadyEnv_ids hw hd hpast hnonneg hok
  exact ⟨d', hd', hstable.mpr hexact⟩

/-! ### The choice of the victims

Among pending and running workloads the comparison is that of a key: whether the workload is past
`Pending`, and then the time of its creation, backwards.  Other statuses would not be ordered
transitively, but they are no candidates. -/

/-- What the victims are sorted by. -/
def victimKey (v : Workload) : Bool ×ₗ ℤᵒᵈ :=
  toLex (decide (v.status ≠ .pending), OrderDual.toDual v.createdAt)

lemma victimBefore_eq {a b : Workload} (ha : a.active = true) (hb : b.active = true) :
    victimBefore a b = decide (victimKey a < victimKey b) := by
  have hstatus : ∀ v : Workload, v.active = true → v.status = .running ∨ v.status = .pending := by
    intro v hv
    simpa [Workload.active] using hv
  rcases hstatus a ha with ha | ha <;> rcases hstatus b hb with hb | hb <;>
    simp [victimBefore, victimKey, Prod.Lex.toLex_lt_toLex, ha, hb]

lemma victimKey_le_of_pickScaleDownVictims {u : Workload} {count : ℤ}
    (hv : v ∈ pickScaleDownVictims l count) (hu : u ∈ l) (hact : u.active = true)
    (hleft : u ∉ pickScaleDownVictims l count) : victimKey v ≤ victimKey u := by
  refine key_le_of_mem_take victimKey ?_ hv (List.mem_filter.mpr ⟨hu, hact⟩) hleft
  intro a ha b hb
  exact victimBefore_eq (List.mem_filter.mp ha).2 (List.mem_filter.mp hb).2

/-- **The victims**: as many as asked for or as there are, pending and running ones only, pending
ones before running ones and young ones before old ones. -/
theorem pickScaleDownVictims_best (hids : (l.map Workload.id).Nodup) (count : ℤ) :
    let victims := pickScaleDownVictims l count
    (victims.length : ℤ) = min (max count 0)
        (l.countP fun v => v.status = .pending ∨ v.status = .running) ∧
      victims.Nodup ∧
      (∀ v ∈ victims, v ∈ l ∧ (v.status = .pending ∨ v.status = .running)) ∧
      ∀ v ∈ victims, ∀ u ∈ l, u ∉ victims →
        (v.status = .running → u.status ≠ .pending) ∧
        (v.status = u.status → ¬ v.createdAt < u.createdAt) := by
  have hactive : ∀ v : Workload, v.active = true ↔ v.status = .pending ∨ v.status = .running := by
    intro v
    simp [Workload.active, or_comm]
  refine ⟨?_, (nodup_pickScaleDownVictims hids count).of_map _, ?_, ?_⟩
  · have hcount : (l.countP fun v => v.status = .pending ∨ v.status = .running) =
        l.countP Workload.active := by
      refine List.countP_congr fun v _ => ?_
      rw [decide_eq_true_eq, hactive]
    rw [hcount, pickScaleDownVictims, List.length_take, (pickScaleDownVictims_perm l).length_eq,
      activeWorkloads, ← List.countP_eq_length_filter]
    omega
  · intro v hv
    obtain ⟨hmem, hact⟩ := mem_pickScaleDownVictims hv
    exact ⟨hmem, (hactive v).mp hact⟩
  · intro v hv u hu hleft
    constructor
    · intro hrun hpend
      have hle := victimKey_le_of_pickScaleDownVictims hv hu ((hactive u).mpr (Or.inl hpend)) hleft
      have hlt : true < false := by simpa [victimKey, Prod.Lex.toLex_le_toLex, hrun, hpend] using hle
      exact absurd hlt (by decide)
    · intro hsame hlater
      have hact : u.active = true := by
        rw [hactive, ← hsame, ← hactive]
        exact (mem_pickScaleDownVictims hv).2
      have hle := victimKey_le_of_pickScaleDownVictims hv hu hact hleft
      simp only [victimKey, hsame, Prod.Lex.toLex_le_toLex, lt_irrefl, false_or,
        OrderDual.toDual_le_toDual, true_and] at hle
      exact absurd hlater (not_lt.mpr hle)

/-- A pending workload and the younger of two running ones go. -/
theorem pickScaleDownVictims_best_three :
    let l : List Workload := [
      { id := "a", deploymentID := "d", nodeID := "n", status := .running, createdAt := 1 },
      { id := "b", deploymentID := "d", nodeID := "n", status := .running, createdAt := 2 },
      { id := "c", deploymentID := "d", nodeID := "n", status := .pending, createdAt := 0 },
      { id := "d", deploymentID := "d", nodeID := "n", status := .terminated, createdAt := 3 }]
    ((pickScaleDownVictims l 2).map Workload.id = ["c", "b"]) ∧
      ((pickScaleDownVictims l 2).length : ℤ) = 2 := by
  refine ⟨by decide, ?_⟩
  exact (pickScaleDownVictims_best (by decide) 2).1

end Orchestrator
