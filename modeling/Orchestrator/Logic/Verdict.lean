/-
# The status that is written

Three functions compute the rollout status of a deployment: the end of `reconcileDeployment`,
the last write of `CreateDeployment`, and a termination report.  What they say is the phase and
the condition `Available` (`Deployment.Declares`).  For the first one, which counts the active
workloads as it has just listed them, the verdict is stated here: the rollout is complete exactly
if enough replicas run and no old one is left.
-/
import Orchestrator.Logic.Census

namespace Orchestrator

open Lib

variable {env : Env} {P : Rules} {o : Config} {d dep : Deployment} {w : World}

/-! ### Conditions -/

lemma mem_setCondition {existing : List DeploymentCondition} {next c : DeploymentCondition} :
    c ∈ setCondition existing next ↔ c = next ∨ (c ∈ existing ∧ c.type ≠ next.type) := by
  unfold setCondition
  split_ifs with hany
  · obtain ⟨x, hx, hxt⟩ := List.any_eq_true.mp hany
    rw [decide_eq_true_eq] at hxt
    constructor
    · intro hc
      obtain ⟨y, hy, rfl⟩ := List.mem_map.mp hc
      split_ifs with hyt
      · exact Or.inl rfl
      · exact Or.inr ⟨hy, hyt⟩
    · rintro (rfl | ⟨hc, hct⟩)
      · exact List.mem_map.mpr ⟨x, hx, if_pos hxt⟩
      · exact List.mem_map.mpr ⟨c, hc, if_neg hct⟩
  · have hnone : ∀ y ∈ existing, y.type ≠ next.type := by
      intro y hy hyt
      exact hany (List.any_eq_true.mpr ⟨y, hy, decide_eq_true hyt⟩)
    rw [List.mem_append, List.mem_singleton]
    constructor
    · rintro (hc | rfl)
      · exact Or.inr ⟨hc, hnone c hc⟩
      · exact Or.inl rfl
    · rintro (rfl | ⟨hc, -⟩)
      · exact Or.inr rfl
      · exact Or.inl hc

/-- The condition of the given type is there, and wherever it is, it has the status `b`. -/
structure Deployment.Declares (d : Deployment) (type : DeploymentConditionType) (b : Bool) : Prop where
  present : ∃ c ∈ d.conditions, c.type = type
  agrees : ∀ c ∈ d.conditions, c.type = type → c.status = b

section Declares

variable {type type' : DeploymentConditionType} {b b' : Bool} {reason message : String} {now : Time}

lemma Deployment.declares_condition (d : Deployment) :
    (d.condition type b reason message now).Declares type b := by
  constructor
  · exact ⟨_, mem_setCondition.mpr (Or.inl rfl), rfl⟩
  · intro c hc hct
    rcases mem_setCondition.mp hc with rfl | ⟨-, hne⟩
    · rfl
    · exact absurd hct hne

/-- Setting another condition changes nothing. -/
lemma Deployment.Declares.condition (h : d.Declares type b) (hne : type ≠ type') :
    (d.condition type' b' reason message now).Declares type b := by
  constructor
  · obtain ⟨c, hc, rfl⟩ := h.present
    exact ⟨c, mem_setCondition.mpr (Or.inr ⟨hc, hne⟩), rfl⟩
  · intro c hc hct
    rcases mem_setCondition.mp hc with rfl | ⟨hc, -⟩
    · exact absurd hct.symm hne
    · exact h.agrees c hc hct

lemma Deployment.Declares.congr {d' : Deployment} (h : d.Declares type b)
    (hc : d'.conditions = d.conditions) : d'.Declares type b :=
  ⟨hc ▸ h.present, hc ▸ h.agrees⟩

end Declares

/-! ### The verdict of a pass -/

/-- Enough replicas run, and no old one is left. -/
def Complete (dep : Deployment) (active : List Workload) : Prop :=
  runningCount active ≥ dep.spec.replicas.toInt ∧
    (oldRevisionWorkloads active dep.currentRevision).length = 0

/-- What a record says of the rollout of its deployment. -/
structure Announces (id : String) (phase : RolloutPhase) (available : Bool) (d : Deployment) :
    Prop where
  id_eq : d.id = id
  phase_eq : d.rolloutStatus.phase = phase
  condition : d.Declares .available available

lemma announces_markStable {id : String} {phase : RolloutPhase} {b : Bool}
    (h : Announces id phase b d) : Drafts (Announces id phase b) (markStable d) :=
  .timeNow fun _ => .timeNow fun _ =>
    .pure ⟨h.id_eq, h.phase_eq, (h.condition.condition (by decide)).condition (by decide)⟩

lemma announces_stableStatus (d : Deployment) :
    Drafts (Announces d.id .stable true) (stableStatus d) :=
  .timeNow fun _ => announces_markStable ⟨rfl, rfl, Deployment.declares_condition _⟩

lemma announces_progressStatus (d : Deployment) (phase : RolloutPhase) (message : String)
    (available : Bool) :
    Drafts (Announces d.id (if available then .stable else phase) available)
      (progressStatus d phase message available) := by
  refine .timeNow fun _ => .timeNow fun _ => ?_
  cases available with
  | true => exact announces_markStable ⟨rfl, rfl, (Deployment.declares_condition _).congr rfl⟩
  | false => exact .pure ⟨rfl, rfl, Deployment.declares_condition _⟩

instance (dep : Deployment) (active : List Workload) : Decidable (Complete dep active) :=
  inferInstanceAs (Decidable (_ ∧ _))

/-- Both branches of the status go by whether the rollout is complete. -/
lemma drafts_rolloutStatus {R : Deployment → Prop} {phase : RolloutPhase} {active : List Workload}
    (hstable : Complete d active → Drafts R (stableStatus d))
    (hprogress : ∀ message,
      Drafts R (progressStatus d phase message (decide (Complete d active))))
    (hlast : ∀ d' status t, R d' → status.phase = d'.rolloutStatus.phase →
      R { d' with observedGeneration := d'.generation, rolloutStatus := status, updatedAt := t }) :
    Drafts R (rolloutStatus d phase active) := by
  refine Drafts.bind (R := R) ?_ fun d' h => .timeNow fun _ => .timeNow fun t =>
    .pure (hlast d' _ t h rfl)
  by_cases hcase : ((oldRevisionWorkloads active d.currentRevision).length : ℤ) = 0 ∧
      ((activeForRevision active d.currentRevision).length : ℤ) ≥ d.spec.replicas.toInt ∧
      max 0 (d.spec.replicas.toInt - runningCount active) = 0
  · have hcomplete : Complete d active := by
      obtain ⟨hold, -, hready⟩ := hcase
      exact ⟨by omega, by exact_mod_cast hold⟩
    rw [if_pos hcase]
    exact hstable hcomplete
  · have hiff : (runningCount active ≥ d.spec.replicas.toInt ∧
        ((oldRevisionWorkloads active d.currentRevision).length : ℤ) = 0) ↔ Complete d active := by
      rw [Complete, Nat.cast_eq_zero]
    simp only [if_neg hcase, hiff]
    exact hprogress _

/-- **The verdict**: both branches of the status say that the rollout is complete exactly if it
is. -/
lemma announces_rolloutStatus (d : Deployment) (phase : RolloutPhase) (active : List Workload) :
    Drafts (Announces d.id (if Complete d active then .stable else phase)
      (decide (Complete d active))) (rolloutStatus d phase active) := by
  refine drafts_rolloutStatus ?_ ?_ ?_
  · intro hcomplete
    rw [if_pos hcomplete, decide_eq_true hcomplete]
    exact announces_stableStatus d
  · intro message
    have hpost := announces_progressStatus d phase message (decide (Complete d active))
    simpa only [decide_eq_true_eq] using hpost
  · exact fun d' status t h hphase => ⟨h.id_eq, hphase.trans h.phase_eq, h.condition.congr rfl⟩

/-! ### The record that a pass leaves -/

lemma finishPass_verdict (dep : Deployment) (plan : RolloutPlan) (w : World) :
    Returns env P (finishPass dep plan) w fun _ w' => ∃ d', w'.deps.get dep.id = some d' ∧
      Announces dep.id (if Complete dep (w'.activeOf dep.id) then .stable else plan.phase)
        (decide (Complete dep (w'.activeOf dep.id))) d' := by
  refine deployed_bind ((prune_returns dep plan w).bind ?_)
  intro _ w₁ _
  refine deployed_bind (((announces_rolloutStatus dep plan.phase _).store_returns w₁).mono ?_)
  rintro _ w₂ ⟨d', h, he⟩
  have hactive : w₂.activeOf dep.id = activeWorkloads (w₁.deployed dep.id) := by
    rw [World.activeOf, he.deployed]
    rfl
  refine ⟨d'.viaJSON, ?_, ?_⟩
  · rw [he.deps, ← h.id_eq]
    exact Table.get_put_self _ d'.viaJSON
  · rw [hactive]
    exact ⟨h.id_eq, h.phase_eq, h.condition.congr rfl⟩

/-- The record that a pass leaves when it reaches its end: within its deadline, with every
placement successful. -/
lemma reconcileDeployment_verdict {id : String} (hd : w.deps.get id = some d)
    (hpast : ¬ PastDeadline env d.prepared w)
    (hok : (createReplicas o d.prepared
      (rolloutPlan d.prepared (w.deployed d.prepared.id)).toCreate.toNat).result (exec env)
        (afterDeadlineCheck env d.prepared w) = .ok none) :
    Holds env Rules.any (reconcileDeployment o id) w fun _ w' =>
      ∃ d', w'.deps.get d.prepared.id = some d' ∧
        Announces d.prepared.id
          (if Complete d.prepared (w'.activeOf d.prepared.id) then .stable
            else (rolloutPlan d.prepared (w.deployed d.prepared.id)).phase)
          (decide (Complete d.prepared (w'.activeOf d.prepared.id))) d' := by
  refine reconcileDeployment_cases hd (fun h => absurd h hpast) fun _ => ?_
  refine deployed_bind ((createReplicas_returns _ (allows_any _ _)).self.bind ?_ ?_)
  · rintro r w₂ ⟨hr, -, r', hr', -⟩
    cases hr'
    rw [(quiet_afterDeadlineCheck env d.prepared w).deployed] at hr ⊢
    obtain rfl : r = none := Except.ok.inj (hr.trans hok)
    exact Prog.Sat.mono (finishPass_verdict d.prepared _ w₂) fun _ _ ⟨_, _, h⟩ => h
  · rintro e w₂ ⟨-, -, r', hr', -⟩
    cases hr'

end Orchestrator
