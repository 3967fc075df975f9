/-
# What a reconcile pass does

The outcome of `reconcileDeployment`, stage by stage: how many replicas were placed
(`PlacedMany`), which workloads were marked as terminating (`MarkedBy`), and the record
that is written back, of which only the status part is new (`Deployment.core`).
-/
import Orchestrator.Logic.Placement

namespace Orchestrator

open Lib

variable {env : Env} {P : Rules} {o : Config} {dep : Deployment} {w w' : World} {p : M Deployment}
  {d : Deployment} {l : List Workload} {count : ℤ} {id : String}

/-! ### The part of a deployment that a status change keeps -/

/-- A deployment without its status, its conditions and its bookkeeping. -/
structure DepCore where
  id : String
  spec : DeploymentSpec
  currentRevision : ℤ
  revisionHistory : List DeploymentRevision
  deletionTimestamp : Option Time

def Deployment.core (d : Deployment) : DepCore :=
  { id := d.id, spec := d.spec, currentRevision := d.currentRevision,
    revisionHistory := d.revisionHistory, deletionTimestamp := d.deletionTimestamp }

def DepCore.viaJSON (c : DepCore) : DepCore :=
  { c with
    spec := c.spec.viaJSON
    revisionHistory := c.revisionHistory.map DeploymentRevision.viaJSON }

@[simp] lemma core_viaJSON (d : Deployment) : d.viaJSON.core = d.core.viaJSON := rfl

/-! ### Marking workloads -/

/-- The workloads `vs` were marked as terminating. -/
def MarkedBy (vs : List Workload) (w w' : World) : Prop :=
  ∃ (τ : String → Time) (W : Table Workload Workload.id)
    (A : Table Assignment (Tbl.key .assignment)),
    Eff w w' w.nodes w.deps W A ∧
    (W.rows = w.workloads.rows.map fun u =>
      if u.id ∈ vs.map Workload.id then u.marked (τ u.id) else u) ∧
    (vs = [] → w' = w)

lemma MarkedBy.nil (w : World) : MarkedBy [] w w := by
  refine ⟨fun _ => 0, w.workloads, w.queue, Quiet.refl w, ?_, fun _ => rfl⟩
  simp

/-- Terminating the workloads of a list of stored ones, each once, marks them. -/
lemma terminateAll_returns {vs : List Workload} (hnd : (vs.map Workload.id).Nodup)
    (hmem : ∀ v ∈ vs, v ∈ w.workloads.rows) :
    Returns env P (Prog.forEach vs terminateWorkload) w fun _ w' => MarkedBy vs w w' := by
  induction vs generalizing w with
  | nil => exact returns_pure (MarkedBy.nil w)
  | cons v vs ih =>
    rw [List.map_cons, List.nodup_cons] at hnd
    have hv : v ∈ w.workloads.rows := hmem v (by simp)
    refine (terminateWorkload_returns hv).bind ?_
    rintro _ w₁ ⟨now, A, he⟩
    have hrows : (w.workloads.put (v.marked now)).rows = w.workloads.rows.map fun u =>
        if u.id = v.id then u.marked now else u :=
      Table.rows_put_modified (g := fun u => u.marked now) hv rfl
    have hmem₁ : ∀ u ∈ vs, u ∈ w₁.workloads.rows := by
      intro u hu
      rw [he.workloads, Table.mem_rows_put]
      refine Or.inr ⟨hmem u (by simp [hu]), ?_⟩
      intro hid
      exact hnd.1 (List.mem_map.mpr ⟨u, hu, hid⟩)
    refine (ih hnd.2 hmem₁).mono ?_
    rintro _ w₂ ⟨τ, W, A', he', hW, -⟩
    rw [he.nodes, he.deps] at he'
    refine ⟨fun id => if id = v.id then now else τ id, W, A', he.trans he', ?_, by simp⟩
    rw [hW, he.workloads, hrows, List.map_map]
    refine List.map_congr_left ?_
    intro u _
    by_cases hid : u.id = v.id
    · -- `v` itself: marked now, and not again by the rest of the list
      have hnot : (u.marked now).id ∉ vs.map Workload.id := by
        rw [show (u.marked now).id = v.id from hid]
        exact hnd.1
      simp only [Function.comp_apply, if_pos hid]
      rw [if_neg hnot, if_pos (by simp [hid])]
    · simp [hid]

/-! ### Creating replicas -/

/-- `n` replicas of `dep` were placed, one after the other. -/
inductive PlacedMany (env : Env) (dep : Deployment) : ℕ → World → World → Prop
  | zero (w : World) : PlacedMany env dep 0 w w
  | succ {n : ℕ} {w w₁ w₂ : World} (h : Creation env dep w (.ok ()) w₁)
      (hs : PlacedMany env dep n w₁ w₂) : PlacedMany env dep (n + 1) w w₂

lemma Creation.deps {r : Except Err Unit} (h : Creation env dep w r w') : w'.deps = w.deps := by
  rcases h with ⟨-, ⟨w₁, hc, n, v, k, seen, A, -, -, -, -, -, -, he⟩, -⟩ |
    ⟨-, -, h | ⟨v, n, seen, -, h⟩⟩
  · rw [he.deps, hc.deps]
  · exact Eff.deps h
  · exact h.deps

lemma PlacedMany.deps {n : ℕ} (h : PlacedMany env dep n w w') : w'.deps = w.deps := by
  induction h with
  | zero w => rfl
  | succ h _ ih => rw [ih, h.deps]

/-- The outcome of the loop that creates `n` replicas. -/
def Creations (env : Env) (dep : Deployment) (n : ℕ) (w : World) (r : Option Err) (w' : World) :
    Prop :=
  match r with
  | none => PlacedMany env dep n w w'
  | some e => ∃ j w₁, j < n ∧ PlacedMany env dep j w w₁ ∧ Creation env dep w₁ (.error e) w'

lemma createReplicas_returns (n : ℕ) (hP : Allows P dep w.deps) :
    Returns env P (createReplicas o dep n) w fun r w' => Creations env dep n w r w' := by
  induction n generalizing w with
  | zero => exact returns_pure (PlacedMany.zero w)
  | succ n ih =>
    refine Prog.Sat.bind_ok (R := fun r w' => Creation env dep w r w')
      (Prog.Sat.attempt ((createWorkloadForDeployment_holds hP).mono ?_)) ?_
    · intro r w' h
      exact ⟨r, rfl, h⟩
    · rintro (e | ⟨⟩) w₁ h
      · exact returns_pure ⟨0, w, Nat.succ_pos n, PlacedMany.zero w, h⟩
      · rw [← h.deps] at hP
        refine (ih hP).mono ?_
        rintro (_ | e) w₂ hr
        · exact PlacedMany.succ h hr
        · obtain ⟨j, w₃, hj, hs, hc⟩ := hr
          exact ⟨j + 1, w₃, Nat.succ_lt_succ hj, PlacedMany.succ h hs, hc⟩

/-! ### Status records -/

/-- A program that stays off the store and returns a record with the property `R`. -/
def Drafts (R : Deployment → Prop) (p : M Deployment) : Prop :=
  p.Only (fun c => c.oracle = true) fun r => ∃ d, r = .ok d ∧ R d

namespace Drafts

variable {R R' : Deployment → Prop} {p : M Deployment}

lemma reads (hp : Drafts R p) : Reads p fun r => ∃ d, r = .ok d ∧ R d :=
  Prog.Only.weaken (fun _ => Call.reads_of_oracle) hp

lemma bind {f : Deployment → M Deployment} (hp : Drafts R p) (hf : ∀ d, R d → Drafts R' (f d)) :
    Drafts R' (p >>= f) := by
  refine Prog.Only.bind hp ?_ ?_
  · rintro d ⟨d', hd, hR⟩
    cases hd
    exact hf d hR
  · rintro e ⟨d', hd, -⟩
    cases hd

lemma timeNow {f : Time → M Deployment} (hf : ∀ t, Drafts R (f t)) :
    Drafts R (timeNow >>= f) := ⟨rfl, hf⟩

lemma pure {d : Deployment} (h : R d) : Drafts R (Pure.pure d) := ⟨d, rfl, h⟩

lemma returns (hp : Drafts R p) (w : World) :
    Returns env P p w fun d w' => R d ∧ Quiet w w' :=
  Prog.Sat.mono (hp.reads.quiet w) fun _ _ ⟨⟨d, hd, hR⟩, hq⟩ => ⟨d, hd, hR, hq⟩

/-- The record is written to the store. -/
lemma store_returns (hp : Drafts R p) (w : World) :
    Returns env P (p >>= StateStore.updateDeployment) w fun _ w' => ∃ d, R d ∧
      Eff w w' w.nodes (w.deps.put d.viaJSON) w.workloads w.queue := by
  refine (hp.returns w).bind ?_
  rintro d w₁ ⟨hR, hq⟩
  refine (updateDeployment_returns d w₁).mono ?_
  intro _ w₂ he
  rw [hq.nodes, hq.deps, hq.workloads, hq.queue] at he
  exact ⟨d, hR, hq.eff he⟩

end Drafts

/-- A program that stays off the store and returns a record with the given core. -/
def KeepsCore (c : DepCore) (p : M Deployment) : Prop :=
  p.Only (fun c => c.oracle = true) fun r => ∃ d, r = .ok d ∧ d.core = c

variable {c : DepCore}

lemma KeepsCore.reads (hp : KeepsCore c p) :
    Reads p fun r => ∃ d, r = .ok d ∧ d.core = c :=
  Drafts.reads hp

lemma KeepsCore.bind {f : Deployment → M Deployment}
    (hp : KeepsCore c p) (hf : ∀ d, d.core = c → KeepsCore c (f d)) : KeepsCore c (p >>= f) :=
  Drafts.bind hp hf

lemma KeepsCore.timeNow {f : Time → M Deployment} (hf : ∀ t, KeepsCore c (f t)) :
    KeepsCore c (timeNow >>= f) := Drafts.timeNow hf

lemma KeepsCore.pure (h : d.core = c) : KeepsCore c (Pure.pure d) :=
  Drafts.pure h

lemma keepsCore_markStable (h : d.core = c) :
    KeepsCore c (markStable d) :=
  .timeNow fun _ => .timeNow fun _ => .pure h

lemma keepsCore_stableStatus (h : d.core = c) :
    KeepsCore c (stableStatus d) :=
  .timeNow fun _ => keepsCore_markStable h

lemma keepsCore_progressStatus (phase : RolloutPhase)
    (message : String) (available : Bool) (h : d.core = c) :
    KeepsCore c (progressStatus d phase message available) := by
  refine .timeNow fun _ => .timeNow fun _ => ?_
  split
  · exact keepsCore_markStable h
  · exact .pure h

lemma keepsCore_rolloutStatus (d : Deployment) (phase : RolloutPhase) (active : List Workload) :
    KeepsCore d.core (rolloutStatus d phase active) := by
  refine KeepsCore.bind ?_ fun d' h => .timeNow fun _ => .timeNow fun _ => .pure h
  split
  · exact keepsCore_stableStatus rfl
  · exact keepsCore_progressStatus _ _ _ rfl

/-- A record with the core of `d` is written back. -/
def WroteBack (c : DepCore) (w w' : World) : Prop :=
  ∃ d', d'.core = c.viaJSON ∧ Eff w w' w.nodes (w.deps.put d') w.workloads w.queue

lemma KeepsCore.store_returns (hp : KeepsCore c p) (w : World) :
    Returns env P (p >>= StateStore.updateDeployment) w fun _ w' => WroteBack c w w' := by
  refine (Drafts.store_returns hp w).mono ?_
  rintro _ w' ⟨d, hc, he⟩
  exact ⟨d.viaJSON, by rw [core_viaJSON, hc], he⟩

/-! ### Terminating replicas -/

lemma pickScaleDownVictims_perm (l : List Workload) :
    (sortStable victimBefore (activeWorkloads l)).Perm (activeWorkloads l) :=
  sortStable_perm _ _

lemma mem_pickScaleDownVictims {v : Workload}
    (h : v ∈ pickScaleDownVictims l count) : v ∈ l ∧ v.active = true := by
  have hv := (pickScaleDownVictims_perm l).mem_iff.mp (List.mem_of_mem_take h)
  exact List.mem_filter.mp hv

lemma nodup_pickScaleDownVictims (h : (l.map Workload.id).Nodup) (count : ℤ) :
    ((pickScaleDownVictims l count).map Workload.id).Nodup := by
  have hact : ((activeWorkloads l).map Workload.id).Nodup :=
    h.sublist (List.filter_sublist.map _)
  have hsort : ((sortStable victimBefore (activeWorkloads l)).map Workload.id).Nodup :=
    ((pickScaleDownVictims_perm l).map _).nodup_iff.mpr hact
  exact hsort.sublist ((List.take_sublist _ _).map _)

lemma pickScaleDownVictims_of_nonpos (h : count ≤ 0) :
    pickScaleDownVictims l count = [] := by
  rw [pickScaleDownVictims, Int.toNat_of_nonpos h, List.take_zero]

lemma nodup_deployed (w : World) (id : String) : ((w.deployed id).map Workload.id).Nodup :=
  w.workloads.nodup_keys.sublist (List.filter_sublist.map _)

lemma mem_deployed {v : Workload} :
    v ∈ w.deployed id ↔ v ∈ w.workloads.rows ∧ v.deploymentID = id := by
  simp [World.deployed]

/-- Terminating victims picked from the workloads of a deployment marks them. -/
lemma terminateVictims_returns (hl : l.Sublist (w.deployed id))
    (count : ℤ) :
    Returns env P (Prog.forEach (pickScaleDownVictims l count) enqueueDeleteForWorkload) w
      fun _ w' => MarkedBy (pickScaleDownVictims l count) w w' := by
  refine terminateAll_returns (nodup_pickScaleDownVictims ?_ count) ?_
  · exact (nodup_deployed w id).sublist (hl.map _)
  · intro v hv
    exact (mem_deployed.mp (hl.subset (mem_pickScaleDownVictims hv).1)).1

/-- The active workloads of a deployment. -/
def World.activeOf (w : World) (id : String) : List Workload := activeWorkloads (w.deployed id)

/-- The old replicas that the availability budget lets go. -/
def oldVictims (dep : Deployment) (minAvailable : ℤ) (w : World) : List Workload :=
  let old := oldRevisionWorkloads (w.activeOf dep.id) dep.currentRevision
  pickScaleDownVictims old (min (old.length : ℤ) ((w.activeOf dep.id).length - minAvailable))

/-- The replicas in excess of the wanted number. -/
def excessVictims (dep : Deployment) (w : World) : List Workload :=
  pickScaleDownVictims (w.activeOf dep.id)
    ((w.activeOf dep.id).length - dep.spec.replicas.toInt)

/-- The outcome of the two rounds of terminations. -/
def ScaledDown (dep : Deployment) (minAvailable : ℤ) (w w' : World) : Prop :=
  ∃ w₁, MarkedBy (oldVictims dep minAvailable w) w w₁ ∧ MarkedBy (excessVictims dep w₁) w₁ w'

lemma onlyIf_terminate (hl : l.Sublist (w.deployed id))
    {budget : ℤ} (hb : budget ≤ 0 → count ≤ 0) :
    Returns env P (Prog.onlyIf (budget > 0)
        (Prog.forEach (pickScaleDownVictims l count) enqueueDeleteForWorkload)) w
      fun _ w' => MarkedBy (pickScaleDownVictims l count) w w' := by
  refine Prog.Sat.onlyIf (fun _ => terminateVictims_returns hl count) ?_
  intro h
  refine ⟨(), rfl, ?_⟩
  rw [pickScaleDownVictims_of_nonpos (hb (not_lt.mp h))]
  exact MarkedBy.nil w

lemma scaleDown_returns (dep : Deployment) (plan : RolloutPlan) (w : World) :
    Returns env P (scaleDown dep plan
        (oldRevisionWorkloads (w.activeOf dep.id) dep.currentRevision)
        (w.activeOf dep.id).length) w
      fun _ w' => ScaledDown dep plan.minAvailable w w' := by
  have hold : (oldRevisionWorkloads (w.activeOf dep.id) dep.currentRevision).Sublist
      (w.deployed dep.id) := List.filter_sublist.trans List.filter_sublist
  refine (onlyIf_terminate hold ?_).bind ?_
  · intro hb
    exact (min_le_right _ _).trans hb
  · intro _ w₁ h₁
    have hact : (w₁.activeOf dep.id).Sublist (w₁.deployed dep.id) := List.filter_sublist
    refine deployed_bind ?_
    exact (onlyIf_terminate hact fun h => h).mono fun _ w₂ h₂ => ⟨w₁, h₁, h₂⟩

/-! ### The end of a pass -/

/-- The outcome of the part of a pass after the creation of replicas. -/
def Finished (dep : Deployment) (plan : RolloutPlan) (w w' : World) : Prop :=
  ∃ w₁, (if plan.phase = .canary then w₁ = w else ScaledDown dep plan.minAvailable w w₁) ∧
    WroteBack dep.core w₁ w'

/-- The terminations of a pass, if it holds no canary. -/
lemma prune_returns (dep : Deployment) (plan : RolloutPlan) (w : World) :
    Returns env P (Prog.onlyIf (plan.phase ≠ .canary) (scaleDown dep plan
        (oldRevisionWorkloads (w.activeOf dep.id) dep.currentRevision)
        (w.activeOf dep.id).length)) w
      fun _ w₁ => if plan.phase = .canary then w₁ = w else ScaledDown dep plan.minAvailable w w₁ := by
  refine Prog.Sat.onlyIf ?_ ?_
  · intro h
    simp only [if_neg h]
    exact scaleDown_returns dep plan w
  · intro h
    rw [not_not] at h
    exact ⟨(), rfl, by simp only [if_pos h]⟩

lemma finishPass_returns (dep : Deployment) (plan : RolloutPlan) (w : World) :
    Returns env P (finishPass dep plan) w fun _ w' => Finished dep plan w w' := by
  refine deployed_bind ((prune_returns dep plan w).bind ?_)
  intro _ w₁ h₁
  refine deployed_bind ?_
  refine ((keepsCore_rolloutStatus dep plan.phase _).store_returns w₁).mono ?_
  intro _ w₂ h₂
  exact ⟨w₁, h₁, h₂⟩

lemma placementFailed_returns (dep : Deployment) (phase : RolloutPhase) (e : Err) (w : World) :
    Returns env P (placementFailed dep phase e) w fun _ w' => WroteBack dep.core w w' := by
  refine stamp_bind fun t₁ w₁ q₁ => stamp_bind fun t₂ w₂ q₂ => stamp_bind fun t₃ w₃ q₃ =>
    stamp_bind fun t₄ w₄ q₄ => ?_
  have hq : Quiet w w₄ := ((q₁.trans q₂).trans q₃).trans q₄
  refine (updateDeployment_returns _ w₄).mono ?_
  intro _ w₅ he
  rw [hq.nodes, hq.deps, hq.workloads, hq.queue] at he
  exact ⟨_, rfl, hq.eff he⟩

/-- The outcome of `reconcileReplicas`: either some placement failed, or all replicas that
were wanted were created and the pass was finished. -/
def Pass (env : Env) (o : Config) (dep : Deployment) (w w' : World) : Prop :=
  let plan := rolloutPlan dep (w.deployed dep.id)
  ∃ r w₁, (createReplicas o dep plan.toCreate.toNat).result (exec env) w = .ok r ∧
    Creations env dep plan.toCreate.toNat w r w₁ ∧
    match r with
    | some _ => WroteBack dep.core w₁ w'
    | none => Finished dep plan w₁ w'

lemma reconcileReplicas_returns (hP : Allows P dep w.deps) :
    Returns env P (reconcileReplicas o dep) w fun _ w' => Pass env o dep w w' := by
  refine deployed_bind ?_
  refine (createReplicas_returns _ hP).self.bind ?_ ?_
  · rintro r w₁ ⟨hr, -, r', hr', hc⟩
    cases hr'
    cases r with
    | none =>
      refine (finishPass_returns dep _ w₁).mono ?_
      intro _ w₂ h₂
      exact ⟨none, w₁, hr.symm, hc, h₂⟩
    | some e =>
      refine (placementFailed_returns dep _ e w₁).mono ?_
      intro _ w₂ h₂
      exact ⟨some e, w₁, hr.symm, hc, h₂⟩
  · rintro e w₁ ⟨-, -, r', hr', -⟩
    cases hr'

/-! ### The progress deadline -/

/-- The outcome of the branch for a rollout past its deadline: a status is written, and
possibly the specification of the previous revision with it. -/
def FailedRollout (dep : Deployment) (w w' : World) : Prop :=
  WroteBack dep.core w w' ∨ ∃ target now,
    dep.revision? (dep.currentRevision - 1) = some target ∧
    WroteBack (dep.rollbackTo target now).core w w'

lemma rollbackDeploymentLocked_returns (dep : Deployment) (rev : ℤ) (message : String) (w : World) :
    Returns env P (rollbackDeploymentLocked dep rev message) w fun d w' => Quiet w w' ∧
      (d = dep ∨ ∃ target now, dep.revision? rev = some target ∧
        d.core = (dep.rollbackTo target now).core) := by
  unfold rollbackDeploymentLocked
  cases hrev : dep.revision? rev with
  | none => exact returns_pure ⟨Quiet.refl w, Or.inl rfl⟩
  | some target =>
    refine stamp_bind fun now w₁ hq => ?_
    exact returns_pure ⟨hq, Or.inr ⟨target, now, rfl, rfl⟩⟩

/-- Failed rollouts of this deployment are rolled back. -/
def Deployment.RollsBack (dep : Deployment) : Prop :=
  dep.spec.rollout.autoRollbackOnFailure = true ∧ 1 < dep.currentRevision

instance (dep : Deployment) : Decidable dep.RollsBack :=
  inferInstanceAs (Decidable (_ ∧ _))

lemma failRollout_returns (dep : Deployment) (w : World) :
    Returns env P (failRollout dep) w fun _ w' =>
      FailedRollout dep w w' ∧ (¬ dep.RollsBack → WroteBack dep.core w w') := by
  refine stamp_bind fun t₁ w₁ q₁ => stamp_bind fun t₂ w₂ q₂ => stamp_bind fun t₃ w₃ q₃ => ?_
  have hroll : ∀ d : Deployment, d.core = dep.core → Returns env P
      (if d.spec.rollout.autoRollbackOnFailure ∧ d.currentRevision > 1 then
        rollbackDeploymentLocked d (d.currentRevision - 1)
          "Automatic rollback after progress deadline exceeded"
      else pure d) w₃ fun d' w₄ => Quiet w₃ w₄ ∧ (d'.core = dep.core ∨ dep.RollsBack ∧ ∃ target now,
        dep.revision? (dep.currentRevision - 1) = some target ∧
        d'.core = (dep.rollbackTo target now).core) := by
    intro d hd
    obtain ⟨hid, hspec, hcur, hhist, hdel⟩ := DepCore.mk.inj hd
    split
    · next hauto =>
      rw [hspec, hcur] at hauto
      refine (rollbackDeploymentLocked_returns d _ _ w₃).mono ?_
      rintro d' w₄ ⟨hq, rfl | ⟨target, now, ht, hc⟩⟩
      · exact ⟨hq, Or.inl hd⟩
      · refine ⟨hq, Or.inr ⟨hauto, target, now, ?_, ?_⟩⟩
        · rwa [Deployment.revision?, hcur, hhist] at ht
        · rw [hc]
          simp [Deployment.core, Deployment.rollbackTo, hid, hcur, hhist, hdel]
    · exact returns_pure ⟨Quiet.refl w₃, Or.inl hd⟩
  refine Returns.bind (hroll _ ?_) ?_
  · rfl
  rintro d w₄ ⟨q₄, hd⟩
  refine stamp_bind fun t₅ w₅ q₅ => ?_
  have hq : Quiet w w₅ := (((q₁.trans q₂).trans q₃).trans q₄).trans q₅
  refine (updateDeployment_returns _ w₅).mono ?_
  intro _ w₆ he
  rw [hq.nodes, hq.deps, hq.workloads, hq.queue] at he
  rcases hd with hd | ⟨hauto, target, now, ht, hd⟩
  · have hback : WroteBack dep.core w w₆ := by
      refine ⟨_, ?_, hq.eff he⟩
      rw [← hd]
      rfl
    exact ⟨Or.inl hback, fun _ => hback⟩
  · refine ⟨Or.inr ⟨target, now, ht, _, ?_, hq.eff he⟩, fun h => absurd hauto h⟩
    rw [← hd]
    rfl

lemma progressDeadlineExceeded_returns (dep : Deployment) (w : World) :
    Returns env P (progressDeadlineExceeded dep) w fun _ w' => Quiet w w' := by
  unfold progressDeadlineExceeded
  split
  · refine stamp_bind fun t w₁ hq => ?_
    exact returns_pure hq
  · exact returns_pure (Quiet.refl w)

/-! ### `reconcileDeployment` -/

/-- Whether the deadline check of a pass finds the rollout past its deadline. -/
def PastDeadline (env : Env) (dep : Deployment) (w : World) : Prop :=
  (progressDeadlineExceeded dep).result (exec env) w = .ok true

instance (env : Env) (dep : Deployment) (w : World) : Decidable (PastDeadline env dep w) :=
  inferInstanceAs (Decidable (_ = _))

/-- The state after the deadline check. -/
def afterDeadlineCheck (env : Env) (dep : Deployment) (w : World) : World :=
  (progressDeadlineExceeded dep).final (exec env) w

lemma quiet_afterDeadlineCheck (env : Env) (dep : Deployment) (w : World) :
    Quiet w (afterDeadlineCheck env dep w) := by
  have hret : Returns env Rules.any (progressDeadlineExceeded dep) w fun _ w' => Quiet w w' :=
    progressDeadlineExceeded_returns dep w
  obtain ⟨_, -, h⟩ := hret.run
  exact h

/-- The outcome of `reconcileDeployment` for a stored deployment `d`. -/
def Reconciled (env : Env) (o : Config) (d : Deployment) (w w' : World) : Prop :=
  let dep := d.prepared
  (PastDeadline env dep w ∧ FailedRollout dep (afterDeadlineCheck env dep w) w') ∨
    (¬ PastDeadline env dep w ∧ Pass env o dep (afterDeadlineCheck env dep w) w')

/-- A pass over a stored deployment checks the deadline, and goes on as it finds it. -/
lemma reconcileDeployment_cases {Q : Except Err Unit → World → Prop}
    (hd : w.deps.get id = some d)
    (hpast : PastDeadline env d.prepared w →
      Holds env P (failRollout d.prepared) (afterDeadlineCheck env d.prepared w) Q)
    (hgo : ¬ PastDeadline env d.prepared w →
      Holds env P (reconcileReplicas o d.prepared) (afterDeadlineCheck env d.prepared w) Q) :
    Holds env P (reconcileDeployment o id) w Q := by
  refine withLock_holds (find_bind ?_ ?_)
  · intro d₀ hd₀
    obtain rfl := Option.some.inj (hd.symm.trans hd₀)
    refine (progressDeadlineExceeded_returns d.prepared w).self.bind ?_ ?_
    · rintro b w₁ ⟨hb, rfl, b', hb', hq⟩
      cases hb'
      cases b with
      | true => exact hpast hb.symm
      | false =>
        refine hgo ?_
        rw [PastDeadline, ← hb]
        simp
    · rintro e w₁ ⟨-, -, b', hb', -⟩
      cases hb'
  · intro hnone
    exact nomatch hd.symm.trans hnone

/-- The outcome of a call, and that a failed rollout leaves the revision alone if the deployment
is not one to roll back. -/
lemma reconcileDeployment_outcome
    (hP : ∀ d, w.deps.get id = some d → Allows P d.prepared w.deps) :
    Holds env P (reconcileDeployment o id) w fun r w' =>
      (w.deps.get id = none ∧ r = .error .notFound ∧ w' = w) ∨
      ∃ d, w.deps.get id = some d ∧ r = .ok () ∧ Reconciled env o d w w' ∧
        (PastDeadline env d.prepared w → ¬ d.prepared.RollsBack →
          WroteBack d.prepared.core (afterDeadlineCheck env d.prepared w) w') := by
  cases hd : w.deps.get id with
  | none =>
    refine withLock_holds (find_bind (fun d hd' => nomatch hd.symm.trans hd') fun _ => ?_)
    exact Or.inl ⟨rfl, rfl, rfl⟩
  | some d =>
    refine reconcileDeployment_cases hd (fun hpast => ?_) fun hpast => ?_
    · refine Prog.Sat.mono (failRollout_returns d.prepared _) ?_
      rintro _ w₂ ⟨_, rfl, h₂, hkeep⟩
      exact Or.inr ⟨d, rfl, rfl, Or.inl ⟨hpast, h₂⟩, fun _ => hkeep⟩
    · have hP' := hP d hd
      rw [← (quiet_afterDeadlineCheck env d.prepared w).deps] at hP'
      refine Prog.Sat.mono (reconcileReplicas_returns hP') ?_
      rintro _ w₂ ⟨_, rfl, h₂⟩
      exact Or.inr ⟨d, rfl, rfl, Or.inr ⟨hpast, h₂⟩, fun h => absurd h hpast⟩

lemma reconcileDeployment_holds
    (hP : ∀ d, w.deps.get id = some d → Allows P d.prepared w.deps) :
    Holds env P (reconcileDeployment o id) w fun r w' =>
      (w.deps.get id = none ∧ r = .error .notFound ∧ w' = w) ∨
      ∃ d, w.deps.get id = some d ∧ r = .ok () ∧ Reconciled env o d w w' := by
  refine (reconcileDeployment_outcome hP).mono ?_
  rintro r w' (h | ⟨d, hd, hr, h, -⟩)
  · exact Or.inl h
  · exact Or.inr ⟨d, hd, hr, h⟩

/-- A pass over a stored deployment returns. -/
lemma reconcileDeployment_returns (hd : w.deps.get id = some d)
    (hP : Allows P d.prepared w.deps) :
    Returns env P (reconcileDeployment o id) w fun _ w' => Reconciled env o d w w' := by
  have hsame : ∀ d', w.deps.get id = some d' → d' = d := fun d' hd' =>
    Option.some.inj (hd'.symm.trans hd)
  refine Prog.Sat.mono (reconcileDeployment_holds fun d' hd' => hsame d' hd' ▸ hP) ?_
  rintro r w' (⟨hnone, -⟩ | ⟨d', hd', hr, h⟩)
  · rw [hd] at hnone
    cases hnone
  · exact ⟨(), hr, hsame d' hd' ▸ h⟩

/-! ### `reconcileDeletion` -/

/-- The outcome of `reconcileDeletion` for a stored deployment `d`: workloads that are not
terminating yet are marked, or, if only terminated ones are stored, the finalizer or the
record itself is removed. -/
def DeletionStep (d : Deployment) (w w' : World) : Prop :=
  MarkedBy ((w.deployed d.id).filter fun v =>
      ¬ (v.status = .terminating ∨ v.status = .terminated)) w w' ∨
  (∀ v ∈ w.deployed d.id, v.status = .terminated) ∧
    (WroteBack d.core w w' ∨
      Eff w w' w.nodes (w.deps.del d.id) (w.workloads.delWhere fun v => v.deploymentID = d.id)
        w.queue)

lemma reconcileDeletion_holds (id : String) (w : World) :
    Holds env P (reconcileDeletion id) w fun r w' =>
      (w.deps.get id = none ∧ r = .error .notFound ∧ w' = w) ∨
      ∃ d, w.deps.get id = some d ∧ r = .ok () ∧ DeletionStep d w w' := by
  refine withLock_holds (find_bind ?_ ?_)
  · intro d hd
    have hid : d.id = id := Table.key_of_get hd
    refine deployed_bind ?_
    have hflip : (fun v : Workload => if v.status = .terminating ∨ v.status = .terminated then
        (pure () : M Unit) else terminateWorkload v) = fun v =>
        if ¬ (v.status = .terminating ∨ v.status = .terminated) then terminateWorkload v
        else pure () := by
      funext v
      split_ifs <;> rfl
    rw [hflip, Prog.forEach_ite]
    refine (terminateAll_returns ?_ ?_).bind ?_
    · exact (nodup_deployed w id).sublist (List.filter_sublist.map _)
    · intro v hv
      exact (mem_deployed.mp (List.mem_filter.mp hv).1).1
    intro _ w₁ h₁
    split
    · exact Or.inr ⟨d, hd, rfl, Or.inl (by rw [hid]; exact h₁)⟩
    · next hany =>
      have hall : ∀ v ∈ w.deployed d.id, v.status = .terminated := by
        rw [hid]
        simpa using hany
      -- nothing was left to mark
      have hw₁ : w₁ = w := by
        obtain ⟨-, -, -, -, -, hnil⟩ := h₁
        refine hnil (List.filter_eq_nil_iff.mpr ?_)
        intro v hv
        rw [hid] at hall
        simp [hall v hv]
      subst hw₁
      change Holds env P (if _ then _ else _) w₁ _
      split
      · refine Prog.Sat.mono (updateDeployment_returns _ w₁) ?_
        rintro _ w₂ ⟨_, rfl, h₂⟩
        exact Or.inr ⟨d, hd, rfl, Or.inr ⟨hall, Or.inl ⟨_, rfl, h₂⟩⟩⟩
      · refine Prog.Sat.mono (deleteDeployment_returns ?_) ?_
        · intro v hv hv'
          exact hall v (mem_deployed.mpr ⟨hv, hv'⟩)
        · rintro _ w₂ ⟨_, rfl, h₂⟩
          exact Or.inr ⟨d, hd, rfl, Or.inr ⟨hall, Or.inr h₂⟩⟩
  · intro hd
    exact Or.inl ⟨hd, rfl, rfl⟩

end Orchestrator
