/-
# Turns of the autoscaler

A pass of `reconcileAutoscaling` lists the policies, reads the clock, and gives every policy a
turn.  A turn stores a deployment with another replica count, and then the policy with the time
of the pass, or it leaves the store alone.
-/
import Orchestrator.Logic.Effects

namespace Orchestrator

open Lib

variable {env : Env} {o : Config} {now : Time} {p : AutoscalerPolicy} {d : Deployment} {w : World}

/-! ### One turn -/

/-- The last 200 samples. -/
def latest (items : List DeploymentMetricSample) : List DeploymentMetricSample :=
  items.drop (items.length - 200)

/-- The samples of a deployment that a turn looks at. -/
def World.samples (w : World) (id : String) : List DeploymentMetricSample :=
  latest (w.store.list .metric (keyDeploymentMetricPrefix id))

/-- The replica count that a policy recommends for a stored deployment. -/
def recommendation (o : Config) (now : Time) (p : AutoscalerPolicy) (d : Deployment) (w : World) :
    ℤ :=
  recommendedReplicas o.fl p (observedUsage o.fl now p (w.samples d.id)) d.spec.replicas.toInt

/-- The cooldown of the policy keeps the recommended change back. -/
def Blocked (o : Config) (now : Time) (p : AutoscalerPolicy) (d : Deployment) (w : World) : Prop :=
  inCooldown p (decide (d.spec.replicas.toInt < recommendation o now p d w)) now = true

/-- The policy scales the deployment. -/
structure Scales (o : Config) (now : Time) (p : AutoscalerPolicy) (d : Deployment) (w : World) :
    Prop where
  sampled : w.samples d.id ≠ []
  change : recommendation o now p d w ≠ d.spec.replicas.toInt
  free : ¬ Blocked o now p d w

/-- The policy after it has scaled at the time `now`. -/
structure AutoscalerPolicy.ScaledAt (p : AutoscalerPolicy) (now : Time) (q : AutoscalerPolicy) :
    Prop where
  lastScaleAt : q.lastScaleAt = now
  rest : { q with
    lastScaleAt := p.lastScaleAt, lastScaleDirection := p.lastScaleDirection,
    createdAt := p.createdAt, updatedAt := p.updatedAt } = p

/-- What a turn that scales leaves: the deployment and the policy are stored, and nothing else. -/
structure Scaled (o : Config) (now : Time) (p : AutoscalerPolicy) (d : Deployment) (w w' : World) :
    Prop where
  stored : ∃ q, p.ScaledAt now q ∧ w'.store =
    (w.store.put .deployment (d.scaled (recommendation o now p d w) now)).put .policy q
  tick : w.tick ≤ w'.tick

lemma upsertAutoscalerPolicy_run (env : Env) (p : AutoscalerPolicy) (w : World) : ∃ u c w',
    (StateStore.upsertAutoscalerPolicy p).run (exec env) w = (.ok (), w') ∧
      w'.store = w.store.put .policy { p with updatedAt := u, createdAt := c } ∧
      w.tick ≤ w'.tick := by
  unfold StateStore.upsertAutoscalerPolicy orNow
  split
  · exact ⟨_, _, _, rfl, rfl, Nat.le_succ _⟩
  · exact ⟨_, _, _, rfl, rfl, le_rfl⟩

lemma listDeploymentMetrics_eq (id : String) : StateStore.listDeploymentMetrics id 200 =
    .call (.list .metric (keyDeploymentMetricPrefix id)) fun items => pure (latest items) := by
  unfold StateStore.listDeploymentMetrics
  rw [if_neg (by decide)]
  rfl

/-- The end of a turn: the two records are stored if the count is to change and may change. -/
def scaleBy (o : Config) (now : Time) (p : AutoscalerPolicy) (d : Deployment)
    (samples : List DeploymentMetricSample) : M Unit :=
  let current := d.spec.replicas.toInt
  let recommended := recommendedReplicas o.fl p (observedUsage o.fl now p samples) current
  let up := decide (current < recommended)
  if samples = [] ∨ recommended = current ∨ inCooldown p up now = true then pure ()
  else .call (.put .deployment (d.scaled recommended now)) fun _ =>
    StateStore.upsertAutoscalerPolicy { p with
      lastScaleAt := now
      lastScaleDirection := if up then "up" else "down"
      updatedAt := now }

lemma scaleBy_eq_pure {samples : List DeploymentMetricSample} (h : samples = [] ∨
      recommendedReplicas o.fl p (observedUsage o.fl now p samples) d.spec.replicas.toInt =
        d.spec.replicas.toInt ∨
      inCooldown p (decide (d.spec.replicas.toInt < recommendedReplicas o.fl p
        (observedUsage o.fl now p samples) d.spec.replicas.toInt)) now = true) :
    scaleBy o now p d samples = pure () :=
  if_pos h

lemma scaleBy_eq_call {samples : List DeploymentMetricSample} (h : ¬ (samples = [] ∨
      recommendedReplicas o.fl p (observedUsage o.fl now p samples) d.spec.replicas.toInt =
        d.spec.replicas.toInt ∨
      inCooldown p (decide (d.spec.replicas.toInt < recommendedReplicas o.fl p
        (observedUsage o.fl now p samples) d.spec.replicas.toInt)) now = true)) :
    ∃ direction, scaleBy o now p d samples =
      .call (.put .deployment (d.scaled (recommendedReplicas o.fl p (observedUsage o.fl now p samples)
        d.spec.replicas.toInt) now)) fun _ =>
      StateStore.upsertAutoscalerPolicy { p with
        lastScaleAt := now, lastScaleDirection := direction, updatedAt := now } :=
  ⟨_, if_neg h⟩

/-- The calls of a turn, one after another. -/
lemma autoscalePolicy_eq (o : Config) (now : Time) (p : AutoscalerPolicy) :
    autoscalePolicy o now p = .call (.get .deployment p.deploymentID) fun
      | none => pure ()
      | some (d : Deployment) => .call (.list .metric (keyDeploymentMetricPrefix d.id)) fun items =>
          scaleBy o now p d (latest items) := by
  unfold autoscalePolicy
  simp only [listDeploymentMetrics_eq]
  refine congrArg (Prog.call _) (funext fun a => ?_)
  cases a with
  | none => rfl
  | some d =>
    refine congrArg (Prog.call _) (funext fun items : List DeploymentMetricSample => ?_)
    dsimp only
    generalize latest items = samples
    rfl

/-- The recommended count is between the bounds of the policy. -/
lemma recommendedReplicas_bounds (fl : ℚ → ℚ) (p : AutoscalerPolicy) (u : Usage) (current : ℤ) :
    p.minReplicas.toInt ≤ recommendedReplicas fl p u current ∧
      recommendedReplicas fl p u current ≤ max p.minReplicas.toInt p.maxReplicas.toInt :=
  ⟨le_max_left _ _, max_le_max le_rfl (min_le_left _ _)⟩

/-- The recommended count is the one that is stored. -/
lemma replicas_scaled (o : Config) (now : Time) (p : AutoscalerPolicy) (d : Deployment)
    (w : World) : (d.scaled (recommendation o now p d w) now).spec.replicas.toInt =
      recommendation o now p d w := by
  have hbounds : _ ≤ recommendation o now p d w ∧ recommendation o now p d w ≤ _ :=
    recommendedReplicas_bounds o.fl p _ _
  have hmin := Int64.le_toInt p.minReplicas
  have hmin' := Int64.toInt_lt p.minReplicas
  have hmax := Int64.toInt_lt p.maxReplicas
  exact Int64.toInt_ofInt_of_le (by omega) (by omega)

/-- The replica count that a call writes. -/
def Call.replicas : Call → Option ℤ
  | .put .deployment d => some (Deployment.spec d).replicas.toInt
  | _ => none

/-- The replica counts that a turn writes. -/
def written (env : Env) (o : Config) (now : Time) (p : AutoscalerPolicy) (w : World) : List ℤ :=
  ((autoscalePolicy o now p).calls (exec env) w).filterMap fun x => x.1.replicas

/-- A turn for a stored deployment reads twice, and ends as its samples say. -/
lemma autoscalePolicy_of_some (env : Env) (o : Config) (now : Time)
    (hd : w.deps.get p.deploymentID = some d) :
    (autoscalePolicy o now p).run (exec env) w =
      (scaleBy o now p d (w.samples d.id)).run (exec env) w ∧
    written env o now p w =
      ((scaleBy o now p d (w.samples d.id)).calls (exec env) w).filterMap fun x => x.1.replicas := by
  have hget : exec env (.get .deployment p.deploymentID) w = (some d, w) := Prod.ext hd rfl
  have hlist : exec env (.list .metric (keyDeploymentMetricPrefix d.id)) w =
      (w.store.list .metric (keyDeploymentMetricPrefix d.id), w) := rfl
  rw [written, autoscalePolicy_eq, Prog.run_call, Prog.calls, hget]
  dsimp only
  rw [Prog.run_call, Prog.calls, hlist]
  dsimp only
  rw [← World.samples]
  refine ⟨rfl, ?_⟩
  rw [List.filterMap_cons_none rfl, List.filterMap_cons_none rfl]

/-- A turn that scales nothing leaves the store as it is. -/
lemma autoscalePolicy_idle (env : Env) (o : Config) (now : Time)
    (h : ∀ d, w.deps.get p.deploymentID = some d → ¬ Scales o now p d w) :
    (autoscalePolicy o now p).run (exec env) w = (.ok (), w) ∧ written env o now p w = [] := by
  cases hd : w.deps.get p.deploymentID with
  | none =>
    have hget : exec env (.get .deployment p.deploymentID) w = (none, w) := Prod.ext hd rfl
    rw [written, autoscalePolicy_eq, Prog.run_call, Prog.calls, hget]
    exact ⟨rfl, rfl⟩
  | some d =>
    have hheld : w.samples d.id = [] ∨ recommendation o now p d w = d.spec.replicas.toInt ∨
        Blocked o now p d w := by
      by_contra hno
      rw [not_or, not_or] at hno
      exact h d hd ⟨hno.1, hno.2.1, hno.2.2⟩
    obtain ⟨hrun, hwritten⟩ := autoscalePolicy_of_some env o now hd
    rw [hrun, hwritten, scaleBy_eq_pure hheld]
    exact ⟨rfl, rfl⟩

lemma written_upsertAutoscalerPolicy (env : Env) (p : AutoscalerPolicy) (w : World) :
    ((StateStore.upsertAutoscalerPolicy p).calls (exec env) w).filterMap
      (fun x => x.1.replicas) = [] := by
  unfold StateStore.upsertAutoscalerPolicy orNow
  split <;> rfl

/-- A turn that scales writes the recommended count, and that it did so. -/
lemma autoscalePolicy_scales (env : Env) (hd : w.deps.get p.deploymentID = some d)
    (h : Scales o now p d w) :
    (∃ w', (autoscalePolicy o now p).run (exec env) w = (.ok (), w') ∧ Scaled o now p d w w') ∧
      written env o now p w = [recommendation o now p d w] := by
  have hfree : ¬ (w.samples d.id = [] ∨ recommendation o now p d w = d.spec.replicas.toInt ∨
      Blocked o now p d w) := by
    rintro (h' | h' | h')
    · exact h.sampled h'
    · exact h.change h'
    · exact h.free h'
  obtain ⟨direction, hscale⟩ := scaleBy_eq_call hfree
  obtain ⟨hrun, hwritten⟩ := autoscalePolicy_of_some env o now hd
  rw [← recommendation] at hscale
  rw [hrun, hwritten, hscale]
  set w₁ : World := ⟨w.store.put .deployment (d.scaled (recommendation o now p d w) now), w.tick⟩
  set q := { p with lastScaleAt := now, lastScaleDirection := direction, updatedAt := now }
  obtain ⟨u, c, w', hupsert, hstore, htick⟩ := upsertAutoscalerPolicy_run env q w₁
  refine ⟨⟨w', hupsert, ⟨{ q with updatedAt := u, createdAt := c }, ⟨rfl, rfl⟩, hstore⟩, htick⟩, ?_⟩
  exact congrArg₂ List.cons (replicas_scaled o now p d w) (written_upsertAutoscalerPolicy env q w₁)

/-! ### A pass -/

/-- The turns of a list of policies: each policy, with the state in which its turn begins. -/
def turns (env : Env) (o : Config) (now : Time) :
    List AutoscalerPolicy → World → List (AutoscalerPolicy × World)
  | [], _ => []
  | p :: ps, w => (p, w) :: turns env o now ps ((autoscalePolicy o now p).final (exec env) w)

/-- The turns of a pass. -/
def passTurns (env : Env) (o : Config) (w : World) : List (AutoscalerPolicy × World) :=
  turns env o (env.clock w.tick) (w.store .policy).rows { w with tick := w.tick + 1 }

lemma autoscalePolicy_result (env : Env) (o : Config) (now : Time) (p : AutoscalerPolicy)
    (w : World) : (autoscalePolicy o now p).result (exec env) w = .ok () := by
  unfold Prog.result
  by_cases h : ∃ d, w.deps.get p.deploymentID = some d ∧ Scales o now p d w
  · obtain ⟨d, hd, hs⟩ := h
    obtain ⟨⟨w', hrun, -⟩, -⟩ := autoscalePolicy_scales env hd hs
    rw [hrun]
  · rw [(autoscalePolicy_idle env o now fun d hd hs => h ⟨d, hd, hs⟩).1]

/-- The calls of a loop over policies are those of the turns. -/
lemma forEach_autoscalePolicy_calls (env : Env) (o : Config) (now : Time)
    (ps : List AutoscalerPolicy) (w : World) :
    (Prog.forEach ps (autoscalePolicy o now)).calls (exec env) w =
      (turns env o now ps w).flatMap fun t =>
        (autoscalePolicy o now t.1).calls (exec env) t.2 := by
  induction ps generalizing w with
  | nil => rfl
  | cons p ps ih =>
    rw [Prog.forEach_cons, Prog.calls_bind, autoscalePolicy_result]
    dsimp only
    rw [ih, turns, List.flatMap_cons]

/-- **A pass** lists the policies, reads the clock, and makes the calls of the turns. -/
theorem reconcileAutoscaling_calls (env : Env) (o : Config) (w : World) :
    (reconcileAutoscaling o).calls (exec env) w = (.list .policy "", w) :: (.now, w) ::
      (passTurns env o w).flatMap fun t =>
        (autoscalePolicy o (env.clock w.tick) t.1).calls (exec env) t.2 := by
  rw [passTurns, ← forEach_autoscalePolicy_calls]
  rfl

/-- The last state of the turns. -/
def lastState (env : Env) (o : Config) (now : Time) (ps : List AutoscalerPolicy) (w : World) :
    World :=
  ps.foldl (fun w p => (autoscalePolicy o now p).final (exec env) w) w

lemma forEach_autoscalePolicy_final (env : Env) (o : Config) (now : Time)
    (ps : List AutoscalerPolicy) (w : World) :
    (Prog.forEach ps (autoscalePolicy o now)).final (exec env) w = lastState env o now ps w := by
  induction ps generalizing w with
  | nil => rfl
  | cons p ps ih =>
    have hok := autoscalePolicy_result env o now p w
    have hrun : (autoscalePolicy o now p).run (exec env) w =
        (.ok (), (autoscalePolicy o now p).final (exec env) w) := Prod.ext hok rfl
    rw [Prog.forEach_cons, Prog.final, Prog.run_bind_ok _ hrun]
    exact ih _

lemma reconcileAutoscaling_final (env : Env) (o : Config) (w : World) :
    (reconcileAutoscaling o).final (exec env) w = lastState env o (env.clock w.tick)
      (w.store .policy).rows { w with tick := w.tick + 1 } := by
  rw [← forEach_autoscalePolicy_final]
  rfl

end Orchestrator
