/-
# Automatic rollback

A rollout that misses its deadline and a deployment with too many failed workloads are rolled back
automatically, to the revision before the one the decision is about.  What is installed becomes a
revision of its own, so a second rollback, decided about that revision, goes back to the revision
the first one has abandoned.

The deadline is judged on the stored record.  The liveness check judges the record as it was listed,
which may be older than the stored one by then: several failures of one listing roll back several
times, to the same specification.  No abandoned specification comes back if no decision is about a
revision that an automatic rollback has installed, and no two decisions that have another one after
them lead to one specification.
-/
import Orchestrator.Logic.Operations
import Orchestrator.Logic.Census
import Orchestrator.System

namespace Orchestrator

open Lib

variable {env : Env} {o : Config} {d d' : Deployment} {id : String} {w w' : World}

/-! ### The record after an automatic step -/

/-- `d'` is `d` rolled back to the revision `rev`. -/
def Restores (d d' : Deployment) (rev : ℤ) : Prop :=
  ∃ target now, d.revision? rev = some target ∧ d'.core = (d.rollbackTo target now).core.viaJSON

/-- `d'` has the specification and the revisions of `d`, as they are or as a pass reads them. -/
def SameRevision (d d' : Deployment) : Prop :=
  d' = d ∨ d'.core = d.prepared.core.viaJSON

lemma Restores.currentRevision {rev : ℤ} (h : Restores d d' rev) :
    d'.currentRevision = d.currentRevision + 1 := by
  obtain ⟨target, now, -, hcore⟩ := h
  exact congrArg DepCore.currentRevision hcore

lemma Restores.length_history {rev : ℤ} (h : Restores d d' rev) :
    d'.revisionHistory.length = d.revisionHistory.length + 1 := by
  obtain ⟨target, now, -, hcore⟩ := h
  rw [show d'.revisionHistory = _ from congrArg DepCore.revisionHistory hcore]
  simp [DepCore.viaJSON, Deployment.core, Deployment.rollbackTo]

lemma SameRevision.currentRevision (h : SameRevision d d') (hpos : 0 < d.currentRevision) :
    d'.currentRevision = d.currentRevision := by
  rcases h with rfl | hcore
  · rfl
  · have hcur : d'.currentRevision = d.prepared.currentRevision :=
      congrArg DepCore.currentRevision hcore
    rw [hcur, Deployment.prepared]
    exact if_neg (not_le.mpr hpos)

lemma SameRevision.length_history (h : SameRevision d d') :
    d'.revisionHistory.length = d.revisionHistory.length := by
  rcases h with rfl | hcore
  · rfl
  · rw [show d'.revisionHistory = _ from congrArg DepCore.revisionHistory hcore]
    simp [DepCore.viaJSON, Deployment.core, Deployment.prepared]

/-- A deployment that is rolled back has a revision, so that `prepared` leaves it alone. -/
lemma Deployment.RollsBack.restores (h : d.prepared.RollsBack) {target : DeploymentRevision}
    {now : Time} (ht : d.prepared.revision? (d.prepared.currentRevision - 1) = some target)
    (hcore : d'.core = (d.prepared.rollbackTo target now).core.viaJSON) :
    Restores d d' (d.currentRevision - 1) := by
  have hcur : d.prepared.currentRevision = d.currentRevision := by
    have hpos := h.2
    simp only [Deployment.prepared] at hpos ⊢
    split at hpos
    · omega
    · next hle => rw [if_neg hle]
  refine ⟨target, now, ?_, ?_⟩
  · rw [← hcur]
    exact ht
  · have hsame : (d.prepared.rollbackTo target now).core = (d.rollbackTo target now).core := by
      simp only [Deployment.core, Deployment.rollbackTo, hcur]
      rfl
    rw [hcore, hsame]

/-- The deployment records after a pass. -/
lemma reconciled_record (env : Env) (o : Config) (hd : w.deps.get id = some d) :
    ∃ d', ((reconcileDeployment o id).final (exec env) w).deps = w.deps.put d' ∧
      (d'.core = d.prepared.core.viaJSON ∨
        PastDeadline env d.prepared w ∧ d.prepared.RollsBack ∧
          Restores d d' (d.currentRevision - 1)) := by
  have hrun : Holds env Rules.any (reconcileDeployment o id) w _ :=
    reconcileDeployment_outcome fun d _ => allows_any _ _
  have hq := quiet_afterDeadlineCheck env d.prepared w
  rcases hrun.run with ⟨hnone, -⟩ | ⟨e, he, -, h, hkeep⟩
  · rw [hd] at hnone
    cases hnone
  rw [hd] at he
  cases he
  rcases h with ⟨hpast, hfail⟩ | ⟨-, r, w₁, -, hc, hend⟩
  · by_cases hroll : d.prepared.RollsBack
    · rcases hfail with ⟨d', hcore, heff⟩ | ⟨target, now, ht, d', hcore, heff⟩
      · exact ⟨d', by rw [heff.deps, hq.deps], Or.inl hcore⟩
      · exact ⟨d', by rw [heff.deps, hq.deps],
          Or.inr ⟨hpast, hroll, hroll.restores ht hcore⟩⟩
    · obtain ⟨d', hcore, heff⟩ := hkeep hpast hroll
      exact ⟨d', by rw [heff.deps, hq.deps], Or.inl hcore⟩
  · have hdeps : w₁.deps = w.deps := hc.deps.trans hq.deps
    cases r with
    | some e =>
      obtain ⟨d', hcore, heff⟩ := hend
      exact ⟨d', by rw [heff.deps, hdeps], Or.inl hcore⟩
    | none =>
      obtain ⟨w₂, hscale, d', hcore, heff⟩ := hend
      refine ⟨d', ?_, Or.inl hcore⟩
      split at hscale
      · rw [heff.deps, hscale, hdeps]
      · rw [heff.deps, hscale.deps, hdeps]

/-- How many workloads of its revision have to fail before a deployment is rolled back. -/
def Deployment.failureLimit (dep : Deployment) : ℤ :=
  if dep.spec.rollout.maxFailedWorkloads ≤ 0 then 1 else dep.spec.rollout.maxFailedWorkloads

/-- Too many workloads of the listed revision have failed. -/
def Failing (dep : Deployment) (w : World) : Prop :=
  dep.failureLimit ≤ ((w.deployed dep.id).countP fun v =>
    v.version = dep.currentRevision && v.status = .failed)

instance (dep : Deployment) (w : World) : Decidable (Failing dep w) :=
  inferInstanceAs (Decidable (_ ≤ _))

/-- A liveness failure of the listed deployment `dep` rolls the stored record `d` back. -/
def Deployment.Reverts (dep d : Deployment) (w : World) : Prop :=
  dep.RollsBack ∧ Failing dep w ∧ d.revision? (dep.currentRevision - 1) ≠ none

/-- The deployment records after a liveness failure of the listed deployment `dep`. -/
lemma maybeAutoRollback_returns {P : Rules} (dep : Deployment) (w : World) :
    Returns env P (maybeAutoRollbackForFailures dep) w fun _ w' =>
      w'.workloads = w.workloads ∧
      ((w'.deps = w.deps ∧ ∀ d, w.deps.get dep.id = some d → ¬ dep.Reverts d w) ∨
      ∃ d d', w.deps.get dep.id = some d ∧ dep.Reverts d w ∧
        w'.deps = w.deps.put d' ∧ Restores d d' (dep.currentRevision - 1)) := by
  unfold maybeAutoRollbackForFailures
  split
  · next hauto =>
    refine ⟨(), rfl, rfl, Or.inl ⟨rfl, fun d _ h => ?_⟩⟩
    rcases hauto with hoff | hrev
    · exact absurd h.1.1 (by rw [hoff]; decide)
    · exact absurd h.1.2 (by omega)
  next hauto =>
  simp only [not_or, not_le, Bool.not_eq_false] at hauto
  refine deployed_bind ?_
  change Holds env _ (if _ < dep.failureLimit then _ else _) w _
  split
  · next hfew => exact ⟨(), rfl, rfl, Or.inl ⟨rfl, fun d _ h => absurd h.2.1 (not_le.mpr hfew)⟩⟩
  next hfail =>
  have hrev : ∀ r : ℤ, (if dep.currentRevision - 1 ≤ 0 then r else dep.currentRevision - 1) =
      dep.currentRevision - 1 := fun r => if_neg (by omega)
  refine Prog.Sat.ignore ((rollbackDeployment_outcome _ _).mono ?_)
  rintro r w' (⟨rfl, hnone⟩ | ⟨d, target, now, hd, ht, ⟨d', hcore, heff⟩, -⟩)
  · refine ⟨(), rfl, rfl, Or.inl ⟨rfl, fun d hd h => h.2.2 ?_⟩⟩
    rw [← hrev (d.currentRevision - 1)]
    exact hnone d hd
  · rw [hrev] at ht
    refine ⟨(), rfl, heff.workloads, Or.inr ⟨d, d', hd, ⟨hauto, not_lt.mp hfail, ?_⟩, heff.deps,
      target, now, ht, hcore⟩⟩
    rw [ht]
    exact Option.some_ne_none target

lemma maybeAutoRollback_record (env : Env) (w : World) (dep : Deployment) :
    let w' := (maybeAutoRollbackForFailures dep).final (exec env) w
    w'.deps = w.deps ∨ ∃ d d', w.deps.get dep.id = some d ∧ dep.Reverts d w ∧
      w'.deps = w.deps.put d' ∧ Restores d d' (dep.currentRevision - 1) := by
  have hrun : Returns env Rules.any (maybeAutoRollbackForFailures dep) w _ :=
    maybeAutoRollback_returns dep w
  obtain ⟨_, -, -, h⟩ := hrun.run
  exact h.imp_left And.left

/-! ### Runs -/

/-- The specification of a recorded revision, as a rollback stores it. -/
def Deployment.recorded (d : Deployment) (rev : ℤ) : Option DeploymentSpec :=
  (d.revision? rev).map fun r => r.spec.normalized.viaJSON

/-- No revision is recorded after the current one. -/
def Deployment.Numbered (d : Deployment) : Prop :=
  0 < d.currentRevision ∧ ∀ r ∈ d.revisionHistory, r.revision ≤ d.currentRevision

instance (d : Deployment) : Decidable d.Numbered :=
  inferInstanceAs (Decidable (_ ∧ ∀ r ∈ d.revisionHistory, _))

/-- A rollback: the revision it goes back to, the specification of the revision that it abandons,
and the one that it installs. -/
structure Rollback where
  target : ℤ
  abandoned : Option DeploymentSpec
  installed : Option DeploymentSpec

/-- The rollback of the record `d` to the revision `rev`. -/
def Deployment.rollback (d : Deployment) (rev : ℤ) : Rollback :=
  ⟨rev, d.recorded d.currentRevision, d.recorded rev⟩

/-- The control plane, and the automatic rollbacks of one deployment in the order in which they
happened. -/
structure Watched where
  world : World
  rollbacks : List Rollback

/-- What can happen: a pass, a liveness failure that is judged on a listed record, and anything
else, by the state it leads to. -/
inductive Occasion
  | pass (deploymentID : String)
  | liveness (dep : Deployment)
  | other (next : World)

def Occasion.run (env : Env) (o : Config) (t : Occasion) (w : World) : World :=
  match t with
  | .pass deploymentID => (reconcileDeployment o deploymentID).final (exec env) w
  | .liveness dep => (maybeAutoRollbackForFailures dep).final (exec env) w
  | .other next => next

/-- The revision of the deployment `id` that a step judges. -/
def Occasion.judged (id : String) (w : World) : Occasion → Option ℤ
  | .pass deploymentID =>
    if deploymentID = id then (w.deps.get id).map Deployment.currentRevision else none
  | .liveness dep => if dep.id = id then some dep.currentRevision else none
  | .other _ => none

/-- The verdict of a step is that a rollback is due. -/
def Occasion.Due (env : Env) (t : Occasion) (w : World) : Prop :=
  match t with
  | .pass deploymentID =>
    ∃ d ∈ w.deps.get deploymentID, PastDeadline env d.prepared w ∧ d.prepared.RollsBack
  | .liveness dep => dep.RollsBack ∧ Failing dep w
  | .other _ => False

instance (env : Env) (t : Occasion) (w : World) : Decidable (t.Due env w) :=
  match t with
  | .pass k => inferInstanceAs (Decidable (∃ d ∈ w.deps.get k, _ ∧ _))
  | .liveness _ => inferInstanceAs (Decidable (_ ∧ _))
  | .other _ => inferInstanceAs (Decidable False)

/-- The number of recorded revisions of a deployment. -/
def World.revisions (w : World) (id : String) : ℕ :=
  ((w.deps.get id).map fun d => d.revisionHistory.length).getD 0

/-- A step that judges the deployment and adds to its history is a rollback, to the revision before
the one it judges. -/
def watchStep (env : Env) (o : Config) (id : String) (t : Occasion) (s : Watched) : Watched :=
  let next := t.run env o s.world
  { world := next
    rollbacks := s.rollbacks ++
      match s.world.deps.get id, t.judged id s.world with
      | some d, some rev =>
        if s.world.revisions id < next.revisions id then [d.rollback (rev - 1)] else []
      | _, _ => [] }

/-- The step is none of a user on the revisions of the deployment. -/
def Unattended (id : String) (t : Occasion) (s : Watched) : Prop :=
  match t with
  | .other next => ∀ d' ∈ next.deps.get id, ∃ d ∈ s.world.deps.get id,
      d'.currentRevision = d.currentRevision ∧ d'.revisionHistory = d.revisionHistory
  | _ => True

/-- The specifications of the current revision of `d` and of those that the rollbacks have added to
it, by what `d` has recorded. -/
def Deployment.succession (d : Deployment) (rollbacks : List Rollback) :
    List (Option DeploymentSpec) :=
  (d.currentRevision :: rollbacks.map Rollback.target).map d.recorded

/-- If the step rolls back, it judges a revision up to the one of the record `d`, and what `d` has
recorded for the revision before differs from all specifications so far but the last. -/
def Judicious (env : Env) (id : String) (d : Deployment) (t : Occasion) (s : Watched) : Prop :=
  ∀ rev ∈ t.judged id s.world, t.Due env s.world → rev ≤ d.currentRevision ∧
    ∀ spec ∈ d.recorded (rev - 1), some spec ∉ (d.succession s.rollbacks).dropLast

lemma Restores.id_eq {rev : ℤ} (h : Restores d d' rev) : d'.id = d.id := by
  obtain ⟨target, now, -, hcore⟩ := h
  exact congrArg DepCore.id hcore

instance (env : Env) (id : String) (d : Deployment) (t : Occasion) (s : Watched) :
    Decidable (Judicious env id d t s) :=
  inferInstanceAs (Decidable (∀ rev ∈ t.judged id s.world, _ → _ ∧ ∀ spec ∈ d.recorded _, _))

/-- An automatic step on the record of a deployment that it judges. -/
lemma Occasion.record (env : Env) (o : Config) {t : Occasion} {rev : ℤ} (hd : w.deps.get id = some d)
    (ht : t.judged id w = some rev) : ∃ d', (t.run env o w).deps.get id = some d' ∧
      (SameRevision d d' ∨ t.Due env w ∧ Restores d d' (rev - 1)) := by
  have hid : d.id = id := Table.key_of_get hd
  have hput : ∀ d' : Deployment, d'.id = d.id → (w.deps.put d').get id = some d' := by
    intro d' h
    rw [← hid, ← h]
    exact Table.get_put_self _ _
  cases t with
  | pass k =>
    rw [Occasion.judged] at ht
    split at ht
    · next hk =>
      subst hk
      rw [hd] at ht
      cases ht
      obtain ⟨d', hdeps, hrec⟩ := reconciled_record env o hd
      refine ⟨d', ?_, ?_⟩
      · have hid' : d'.id = d.id := by
          rcases hrec with hcore | ⟨-, -, hres⟩
          · exact congrArg DepCore.id hcore
          · exact hres.id_eq
        rw [Occasion.run, hdeps, hput d' hid']
      · rcases hrec with hcore | ⟨hpast, hroll, hres⟩
        · exact Or.inl (Or.inr hcore)
        · exact Or.inr ⟨⟨d, hd, hpast, hroll⟩, hres⟩
    · cases ht
  | liveness dep =>
    rw [Occasion.judged] at ht
    split at ht
    · next hk =>
      subst hk
      cases ht
      rcases maybeAutoRollback_record env w dep with
        hsame | ⟨e, d', he, ⟨hroll, hfail, -⟩, hdeps, hres⟩
      · exact ⟨d, by rw [Occasion.run, hsame, hd], Or.inl (Or.inl rfl)⟩
      · rw [hd] at he
        cases he
        exact ⟨d', by rw [Occasion.run, hdeps, hput d' hres.id_eq],
          Or.inr ⟨⟨hroll, hfail⟩, hres⟩⟩
    · cases ht
  | other next => cases ht

/-- An automatic step leaves the deployments alone that it does not judge. -/
lemma Occasion.record_of_unjudged (env : Env) (o : Config) {t : Occasion} (ht : ∀ next, t ≠ .other next)
    (hj : w.deps.get id = none ∨ t.judged id w = none) :
    (t.run env o w).deps.get id = w.deps.get id := by
  cases t with
  | other next => exact absurd rfl (ht next)
  | pass k =>
    rw [Occasion.run]
    cases hd : w.deps.get k with
    | none => rw [reconcileDeployment_final_of_none hd]
    | some d =>
      obtain ⟨d', hdeps, hrec⟩ := reconciled_record env o hd
      have hne : id ≠ d'.id := by
        have hid' : d'.id = d.id := by
          rcases hrec with hcore | ⟨-, -, hres⟩
          · exact congrArg DepCore.id hcore
          · exact hres.id_eq
        rintro rfl
        rw [hid', Table.key_of_get hd] at hj
        simp [Occasion.judged, hd] at hj
      rw [hdeps, Table.get_put_of_ne _ hne]
  | liveness dep =>
    rw [Occasion.run]
    rcases maybeAutoRollback_record env w dep with hsame | ⟨d, d', hd, -, hdeps, hres⟩
    · rw [hsame]
    · have hne : id ≠ d'.id := by
        rintro rfl
        rw [hres.id_eq, Table.key_of_get hd] at hj
        simp [Occasion.judged, hd] at hj
      rw [hdeps, Table.get_put_of_ne _ hne]

/-! ### The log of a run -/

lemma World.revisions_eq (hd : w.deps.get id = some d) :
    w.revisions id = d.revisionHistory.length := by
  rw [World.revisions, hd]
  rfl

/-- The log grows by a rollback exactly when the record is rolled back. -/
lemma watchStep_record (env : Env) (o : Config) {t : Occasion} {s : Watched}
    (ht : ∀ next, t ≠ .other next)
    (hd : s.world.deps.get id = some d) :
    ∃ d', (watchStep env o id t s).world.deps.get id = some d' ∧
      ((watchStep env o id t s).rollbacks = s.rollbacks ∧ SameRevision d d' ∨
        ∃ rev, t.judged id s.world = some rev ∧ t.Due env s.world ∧
          (watchStep env o id t s).rollbacks = s.rollbacks ++ [d.rollback (rev - 1)] ∧
          Restores d d' (rev - 1)) := by
  cases hj : t.judged id s.world with
  | none =>
    refine ⟨d, (Occasion.record_of_unjudged env o ht (Or.inr hj)).trans hd, Or.inl ⟨?_, Or.inl rfl⟩⟩
    simp [watchStep, hj]
  | some rev =>
    obtain ⟨d', hd', hrec⟩ := Occasion.record env o hd hj
    have hlog : (watchStep env o id t s).rollbacks = s.rollbacks ++
        if d.revisionHistory.length < d'.revisionHistory.length then
          [d.rollback (rev - 1)] else [] := by
      rw [watchStep, World.revisions_eq hd, World.revisions_eq hd', hd, hj]
    refine ⟨d', hd', ?_⟩
    rcases hrec with hsame | ⟨hdue, hres⟩
    · refine Or.inl ⟨?_, hsame⟩
      rw [hlog, hsame.length_history, if_neg (lt_irrefl _), List.append_nil]
    · refine Or.inr ⟨rev, rfl, hdue, ?_, hres⟩
      rw [hlog, hres.length_history, if_pos (Nat.lt_succ_self _)]

/-! ### What is recorded -/

lemma recorded_of_map (rev : ℤ)
    (h : d'.revisionHistory = d.revisionHistory.map DeploymentRevision.viaJSON) :
    d'.recorded rev = d.recorded rev := by
  rw [Deployment.recorded, Deployment.revision?, h, List.find?_map, Option.map_map]
  refine congrArg (Option.map · (d.revision? rev)) (funext fun r => ?_)
  exact DeploymentSpec.viaJSON_viaJSON r.spec.normalized

lemma SameRevision.recorded (h : SameRevision d d') (rev : ℤ) :
    d'.recorded rev = d.recorded rev := by
  rcases h with rfl | hcore
  · rfl
  · exact recorded_of_map rev (congrArg DepCore.revisionHistory hcore)

lemma Restores.recorded {rev : ℤ} (h : Restores d d' rev) (n : ℤ) :
    d'.recorded n = (d.recorded n).or
      (if d.currentRevision + 1 = n then d.recorded rev else none) := by
  obtain ⟨target, now, htarget, hcore⟩ := h
  have hmap : d'.recorded n = (d.rollbackTo target now).recorded n :=
    recorded_of_map n (congrArg DepCore.revisionHistory hcore)
  rw [hmap, Deployment.recorded, Deployment.revision?, Deployment.rollbackTo, List.find?_append,
    Option.map_or]
  refine congrArg (Option.or _) ?_
  by_cases hn : d.currentRevision + 1 = n
  · simp [hn, Deployment.recorded, htarget]
  · simp [hn]

/-- What is installed is the specification that the record has recorded for the target. -/
lemma Restores.spec {rev : ℤ} (h : Restores d d' rev) : d.recorded rev = some d'.spec := by
  obtain ⟨target, now, htarget, hcore⟩ := h
  rw [Deployment.recorded, htarget, show d'.spec = _ from congrArg DepCore.spec hcore]
  rfl

/-- The record `d` stems from `d₀` by the rollbacks of the log. -/
structure Stems (d₀ : Deployment) (log : List Rollback) (d : Deployment) : Prop where
  pos : 0 < d.currentRevision
  last : ∀ rev, d.currentRevision < rev → d.recorded rev = none
  le : d₀.currentRevision ≤ d.currentRevision
  kept : ∀ rev ≤ d₀.currentRevision, d.recorded rev = d₀.recorded rev
  current : (d₀.succession log).getLast? = some (d.recorded d.currentRevision)

lemma Deployment.Numbered.stems (h : d.Numbered) : Stems d [] d := by
  refine ⟨h.1, fun rev hrev => ?_, le_rfl, fun _ _ => rfl, rfl⟩
  rw [Deployment.recorded, Deployment.revision?, Option.map_eq_none_iff, List.find?_eq_none]
  intro r hr heq
  exact absurd (h.2 r hr) (not_le.mpr ((of_decide_eq_true heq).symm ▸ hrev))

lemma Stems.of_same {d₀ : Deployment} {log : List Rollback} (h : Stems d₀ log d)
    (hcur : d'.currentRevision = d.currentRevision)
    (hrec : ∀ rev, d'.recorded rev = d.recorded rev) : Stems d₀ log d' := by
  refine ⟨?_, ?_, ?_, ?_, ?_⟩ <;> simp only [hcur, hrec]
  exacts [h.pos, h.last, h.le, h.kept, h.current]

lemma succession_concat (d : Deployment) (log : List Rollback) (b : Rollback) :
    d.succession (log ++ [b]) = d.succession log ++ [d.recorded b.target] := by
  simp [Deployment.succession]

lemma Stems.restores {d₀ : Deployment} {log : List Rollback} {rev : ℤ} (h : Stems d₀ log d)
    (hres : Restores d d' rev) (hrev : rev ≤ d₀.currentRevision) :
    Stems d₀ (log ++ [d.rollback rev]) d' := by
  have hcur := hres.currentRevision
  have hpos := h.pos
  have hle := h.le
  refine ⟨by omega, fun n hn => ?_, by omega, fun n hn => ?_, ?_⟩
  · rw [hres.recorded, h.last n (by omega), if_neg (by omega)]
    rfl
  · rw [hres.recorded, if_neg (by omega), Option.or_none, h.kept n hn]
  · rw [hcur, hres.recorded, h.last _ (lt_add_one _), if_pos rfl, Option.none_or,
      h.kept rev hrev, succession_concat, List.getLast?_concat]
    rfl

/-- Every specification of the succession but the last has been abandoned, and none has come
back. -/
structure GoesBack (id : String) (d₀ : Deployment) (s : Watched) : Prop where
  stems : ∀ d ∈ s.world.deps.get id, Stems d₀ s.rollbacks d
  abandoned : s.rollbacks.map Rollback.abandoned = (d₀.succession s.rollbacks).dropLast
  settled : s.rollbacks.Pairwise fun earlier later => later.installed ≠ earlier.abandoned

/-- A rollback that is decided with care. -/
lemma GoesBack.restores {d₀ : Deployment} {s s' : Watched} {rev : ℤ} (h : GoesBack id d₀ s)
    (hd : s.world.deps.get id = some d) (hd' : s'.world.deps.get id = some d')
    (hlog : s'.rollbacks = s.rollbacks ++ [d.rollback rev]) (hres : Restores d d' rev)
    (hrev : rev ≤ d₀.currentRevision)
    (hnew : ∀ spec ∈ d₀.recorded rev, some spec ∉ (d₀.succession s.rollbacks).dropLast) :
    GoesBack id d₀ s' := by
  have hstems := h.stems d hd
  refine ⟨?_, ?_, ?_⟩
  · intro e he
    cases hd'.symm.trans he
    rw [hlog]
    exact hstems.restores hres hrev
  · rw [hlog, List.map_append, h.abandoned, succession_concat, List.dropLast_concat]
    exact List.dropLast_append_getLast? _ hstems.current
  · rw [hlog, List.pairwise_append]
    refine ⟨h.settled, List.pairwise_singleton _ _, ?_⟩
    intro a ha b hb heq
    obtain rfl := List.mem_singleton.mp hb
    have hspec := hres.spec
    refine hnew d'.spec ((hstems.kept rev hrev).symm.trans hspec) ?_
    rw [← h.abandoned, ← hspec]
    exact List.mem_map.mpr ⟨a, ha, heq.symm⟩

lemma GoesBack.step {d₀ : Deployment} {t : Occasion} {s : Watched} (h : GoesBack id d₀ s)
    (hun : Unattended id t s) (hj : Judicious env id d₀ t s) :
    GoesBack id d₀ (watchStep env o id t s) := by
  -- a step that logs nothing
  have hquiet : (watchStep env o id t s).rollbacks = s.rollbacks →
      (∀ d' ∈ (watchStep env o id t s).world.deps.get id, Stems d₀ s.rollbacks d') →
      GoesBack id d₀ (watchStep env o id t s) := by
    intro hlog hstems
    exact ⟨by rwa [hlog], by rw [hlog, h.abandoned], by rw [hlog]; exact h.settled⟩
  by_cases hother : ∃ next, t = .other next
  · obtain ⟨next, rfl⟩ := hother
    refine hquiet (by simp [watchStep, Occasion.judged]) fun d' hd' => ?_
    obtain ⟨d, hd, hcur, hhist⟩ := hun d' hd'
    refine (h.stems d hd).of_same hcur fun rev => ?_
    rw [Deployment.recorded, Deployment.revision?, hhist]
    rfl
  have ht : ∀ next, t ≠ .other next := fun next heq => hother ⟨next, heq⟩
  cases hd : s.world.deps.get id with
  | none =>
    refine hquiet (by simp [watchStep, hd]) fun d' hd' => ?_
    have hnone : some d' = none :=
      hd'.symm.trans ((Occasion.record_of_unjudged env o ht (Or.inl hd)).trans hd)
    cases hnone
  | some d =>
    have hstems := h.stems d hd
    obtain ⟨d', hd', hcase⟩ := watchStep_record env o ht hd
    rcases hcase with ⟨hlog, hsame⟩ | ⟨rev, hrev, hdue, hlog, hres⟩
    · refine hquiet hlog fun e he => ?_
      cases hd'.symm.trans he
      exact hstems.of_same (hsame.currentRevision hstems.pos) hsame.recorded
    · obtain ⟨hle, hnew⟩ := hj rev hrev hdue
      exact h.restores hd hd' hlog hres (by omega) hnew

/-- **Automatic rollback.**  The log of a step is what the record shows: nothing, or the
specification of the revision that was current and the one that is installed as the next revision.
In every run without an update or a rollback by a user, in which no rollback is decided about a
revision that the run itself has installed and what was recorded at the start for the revisions
before the ones decided about does not repeat, no rollback installs the specification of a revision
that an earlier one has abandoned. -/
theorem automatic_rollback_settles (env : Env) (o : Config) (id : String) :
    (∀ t s d, (∀ next, t ≠ .other next) → s.world.deps.get id = some d →
      ∃ d', (watchStep env o id t s).world.deps.get id = some d' ∧
        ((watchStep env o id t s).rollbacks = s.rollbacks ∧ SameRevision d d' ∨
          ∃ rev, (watchStep env o id t s).rollbacks = s.rollbacks ++ [d.rollback rev] ∧
            Restores d d' rev ∧ (d.rollback rev).installed = some d'.spec)) ∧
    ∀ w d s, w.deps.get id = some d → d.Numbered →
      Runs (watchStep env o id) (fun t x => Unattended id t x ∧ Judicious env id d t x) ⟨w, []⟩ s →
      s.rollbacks.Pairwise fun earlier later => later.installed ≠ earlier.abandoned := by
  constructor
  · intro t s d ht hd
    obtain ⟨d', hd', hcase⟩ := watchStep_record env o ht hd
    refine ⟨d', hd', ?_⟩
    rcases hcase with hsame | ⟨rev, -, -, hlog, hres⟩
    · exact Or.inl hsame
    · exact Or.inr ⟨rev - 1, hlog, hres, hres.spec⟩
  · intro w d s hd hnum hrun
    have hstart : GoesBack id d ⟨w, []⟩ := by
      refine ⟨fun e he => ?_, rfl, List.Pairwise.nil⟩
      cases hd.symm.trans he
      exact hnum.stems
    exact (hrun.invariant hstart fun t x hx hok => hx.step hok.1 hok.2).settled

/-! ### A deployment that misses every deadline -/

/-- A deployment that is rolled back a second after its rollout has started. -/
def hastySpec (image : String) : DeploymentSpec :=
  { webSpec with
    image := image
    rollout := { progressDeadlineSeconds := 1, autoRollbackOnFailure := true } }

def hastyID : String := tickingEnv.deploymentID 5

/-- The deployment is updated to its second revision, of which a replica fails. -/
def hastyWorld : World :=
  let w := (after (Sys.step tickingEnv plainConfig) [.registerNode smallNode,
    .createDeployment (hastySpec "web:1"), .updateDeployment hastyID (hastySpec "web:2")]
    Sys.init).world
  let failed : Workload :=
    { id := "w1", deploymentID := hastyID, nodeID := "n1", status := .failed, version := 2 }
  { w with store := w.store.put .workload failed }

/-- The rollbacks of some steps. -/
def hastyRollbacks (ts : List Occasion) : List Rollback :=
  (after (watchStep tickingEnv plainConfig hastyID) ts ⟨hastyWorld, []⟩).rollbacks

/-- The images that a rollback abandons and installs. -/
def Rollback.images (b : Rollback) : Option String × Option String :=
  (b.abandoned.map DeploymentSpec.image, b.installed.map DeploymentSpec.image)

/-- A missed deadline and then a failure of the second revision, judged on the record that was
listed before: both restore the first revision. -/
theorem automatic_rollback_settles_twice : ∃ d, hastyWorld.deps.get hastyID = some d ∧
    (hastyRollbacks [.pass hastyID, .liveness d]).map Rollback.images =
      [(some "web:2", some "web:1"), (some "web:1", some "web:1")] ∧
    (hastyRollbacks [.pass hastyID, .liveness d]).Pairwise
      fun earlier later => later.installed ≠ earlier.abandoned := by
  obtain ⟨d, hd, hnum, hfirst, hsecond, himages⟩ : ∃ d, hastyWorld.deps.get hastyID = some d ∧
      let s := watchStep tickingEnv plainConfig hastyID (.pass hastyID) ⟨hastyWorld, []⟩
      d.Numbered ∧
        Judicious tickingEnv hastyID d (.pass hastyID) ⟨hastyWorld, []⟩ ∧
        Judicious tickingEnv hastyID d (.liveness d) s ∧
        (hastyRollbacks [.pass hastyID, .liveness d]).map Rollback.images =
          [(some "web:2", some "web:1"), (some "web:1", some "web:1")] := by
    decide +kernel
  exact ⟨d, hd, himages, (automatic_rollback_settles tickingEnv plainConfig hastyID).2 hastyWorld
    d _ hd hnum (Runs.of_list [Occasion.pass hastyID, .liveness d]
      ⟨⟨trivial, hfirst⟩, ⟨trivial, hsecond⟩, trivial⟩)⟩

/-- The second missed deadline restores the revision that the first has abandoned, and so on. -/
theorem automatic_rollback_oscillates :
    (hastyRollbacks (List.replicate 3 (.pass hastyID))).map Rollback.images =
        [(some "web:2", some "web:1"), (some "web:1", some "web:2"), (some "web:2", some "web:1")] ∧
      ¬ (hastyRollbacks (List.replicate 2 (.pass hastyID))).Pairwise
        fun earlier later => later.installed ≠ earlier.abandoned := by
  decide +kernel

end Orchestrator
