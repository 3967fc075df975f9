/-
# Rollbacks in one health pass

`evaluateWorkloadHealth` lists the workloads and the deployments once.  Every workload that fails
its liveness probe is stored as failed, and the deployment is then judged as it was listed: with
the revision, the limit and the history it had before the pass.  A rollback does not change this,
so every failure that finds the limit reached rolls the deployment back once more.

The number of rollbacks is `rollbacks`; it is at most one under the condition of
`health_pass_rollbacks_iff`.
-/
import Orchestrator.Properties.Oscillation

namespace Orchestrator

open Lib

variable {env : Env} {d e : Deployment} {w w' : World} {v : Workload} {now : Time}

/-! ### Counting failures -/

/-- The workloads of a deployment that fail their liveness probe, in the order of the pass. -/
def failures (now : Time) (d : Deployment) (w : World) : List Workload :=
  w.workloads.rows.filter fun v => livenessFailure now w.deps.rows v = some d

/-- How many workloads of the listed revision have failed. -/
def failedCount (d : Deployment) (w : World) : ℕ :=
  (w.deployed d.id).countP fun v => v.version = d.currentRevision && v.status = .failed

/-- How many of the failures find the limit reached, if `n` workloads have failed before. -/
def overLimit (d : Deployment) : ℕ → List Workload → ℕ
  | _, [] => 0
  | n, v :: vs =>
    let n := n + if v.version = d.currentRevision then 1 else 0
    (if d.failureLimit ≤ n then 1 else 0) + overLimit d n vs

/-- A rollback would find its target. -/
def Deployment.Armed (d : Deployment) : Prop :=
  d.RollsBack ∧ d.revision? (d.currentRevision - 1) ≠ none

instance (d : Deployment) : Decidable d.Armed := inferInstanceAs (Decidable (_ ∧ _))

/-- The number of rollbacks of a deployment in a pass. -/
def rollbacks (now : Time) (d : Deployment) (w : World) : ℕ :=
  if d.Armed then overLimit d (failedCount d w) (failures now d w) else 0

section Counting

variable {n : ℕ} {vs : List Workload}

/-- Once the limit is reached, it stays so. -/
lemma overLimit_of_le (h : d.failureLimit ≤ n) : overLimit d n vs = vs.length := by
  induction vs generalizing n with
  | nil => rfl
  | cons v vs ih =>
    have hle : d.failureLimit ≤ (n + if v.version = d.currentRevision then 1 else 0 : ℕ) := by
      split_ifs <;> push_cast <;> omega
    rw [overLimit, if_pos hle, ih hle, List.length_cons]
    omega

/-- Two failures find the limit reached if all of them but the last make it reached. -/
lemma two_le_overLimit_iff : 2 ≤ overLimit d n vs ↔ 2 ≤ vs.length ∧
    d.failureLimit ≤ (n + vs.dropLast.countP (fun v => v.version = d.currentRevision) : ℕ) := by
  induction vs generalizing n with
  | nil => exact iff_of_false (by simp [overLimit]) fun h => absurd h.1 (by simp)
  | cons v vs ih =>
    cases vs with
    | nil =>
      refine iff_of_false ?_ fun h => absurd h.1 (by simp)
      rw [overLimit, overLimit]
      split_ifs <;> decide
    | cons u us =>
      set n' := n + if v.version = d.currentRevision then 1 else 0 with hn'
      have hcount : n + (v :: u :: us).dropLast.countP (fun v => v.version = d.currentRevision) =
          n' + (u :: us).dropLast.countP (fun v => v.version = d.currentRevision) := by
        rw [List.dropLast_cons_cons, List.countP_cons, hn']
        simp only [decide_eq_true_eq]
        omega
      rw [overLimit, ← hn', hcount]
      by_cases hle : d.failureLimit ≤ n'
      · rw [if_pos hle, overLimit_of_le hle]
        exact iff_of_true (by rw [List.length_cons]; omega) ⟨by simp, by push_cast; omega⟩
      · rw [if_neg hle, zero_add, ih]
        refine and_congr_left fun hlim => iff_of_true ?_ (by simp)
        -- a single failure would not be counted, and without it the limit is not reached
        cases us with
        | nil => exact absurd hlim (by simpa using hle)
        | cons x xs => simp

end Counting

/-! ### One failure -/

/-- A record in place of another one: the count changes as the predicate does. -/
lemma countP_put {t : Table Workload Workload.id} {v' : Workload} (p : Workload → Bool)
    (hv : v ∈ t.rows) (hid : v'.id = v.id) (hp : p v = false) :
    (t.put v').rows.countP p = t.rows.countP p + if p v' then 1 else 0 := by
  rw [(t.perm_put v').countP_eq, (Table.perm_of_get (Table.get_of_mem hv)).countP_eq, hid,
    List.countP_cons, List.countP_cons, hp]
  rfl

/-- `v'` is the workload `v`, and it has failed. -/
structure Workload.FailedAs (v v' : Workload) : Prop where
  id : v'.id = v.id
  deploymentID : v'.deploymentID = v.deploymentID
  version : v'.version = v.version
  status : v'.status = .failed

/-- A workload that is stored as failed counts if it is of the listed revision. -/
lemma failedCount_put (d : Deployment) {v' : Workload} (hv : v ∈ w.workloads.rows)
    (hrun : v.status = .running) (hv' : v.FailedAs v')
    (hput : w'.workloads = w.workloads.put v') : failedCount d w' = failedCount d w +
      if v.deploymentID = d.id ∧ v.version = d.currentRevision then 1 else 0 := by
  have hcount : ∀ w : World, failedCount d w = w.workloads.rows.countP fun v =>
      (v.version = d.currentRevision && v.status = .failed) && v.deploymentID = d.id :=
    fun w => List.countP_filter
  rw [hcount, hcount, hput, countP_put _ hv hv'.id (by simp [hrun])]
  refine congrArg _ (if_congr ?_ rfl rfl)
  simp [hv'.status, hv'.version, hv'.deploymentID, and_comm]

/-- What `k` rollbacks leave of a deployment. -/
structure RolledBack (d : Deployment) (k : ℕ) (e : Deployment) : Prop where
  id : e.id = d.id
  revision : e.currentRevision = d.currentRevision + k
  history : e.revisionHistory.length = d.revisionHistory.length + k
  target : e.revision? (d.currentRevision - 1) = none ↔ d.revision? (d.currentRevision - 1) = none

lemma RolledBack.zero (d : Deployment) : RolledBack d 0 d :=
  ⟨rfl, (add_zero _).symm, rfl, Iff.rfl⟩

lemma RolledBack.succ {k : ℕ} {e e' : Deployment} (h : RolledBack d k e) {rev : ℤ}
    (hres : Restores e e' rev) : RolledBack d (k + 1) e' where
  id := hres.id_eq.trans h.id
  revision := by
    rw [hres.currentRevision, h.revision]
    push_cast
    ring
  history := by
    rw [hres.length_history, h.history]
    ring
  target := by
    -- the new revision has a higher number than the one that is looked for
    rw [← h.target]
    obtain ⟨target, now, -, hcore⟩ := hres
    have hhist : e'.revisionHistory = (e.rollbackTo target now).core.viaJSON.revisionHistory :=
      congrArg DepCore.revisionHistory hcore
    have hnew : e.currentRevision + 1 ≠ d.currentRevision - 1 := by
      rw [h.revision]
      omega
    simp only [Deployment.revision?, hhist, DepCore.viaJSON, Deployment.core, Deployment.rollbackTo,
      List.find?_eq_none, List.mem_map, List.mem_append, List.mem_singleton]
    constructor
    · intro hnone r hr
      exact hnone r.viaJSON ⟨r, Or.inl hr, rfl⟩
    · rintro hnone _ ⟨r, hr | rfl, rfl⟩
      · exact hnone r hr
      · exact fun h => hnew (of_decide_eq_true h)

/-! ### The pass -/

lemma livenessFailure_mem {l : List Deployment} (h : livenessFailure now l v = some d) :
    d ∈ l ∧ d.id = v.deploymentID := by
  rw [livenessFailure, Option.filter_eq_some_iff] at h
  exact ⟨List.mem_of_find?_eq_some h.1, by simpa using List.find?_some h.1⟩

/-- What holds while the workloads `vs` are still to be visited, if there are to be `n` rollbacks
in all. -/
structure Visiting (now : Time) (l : List Deployment) (d : Deployment) (n : ℕ) (vs : List Workload)
    (w : World) : Prop where
  nodup : (vs.map Workload.id).Nodup
  stored : ∀ v ∈ vs, v ∈ w.workloads.rows
  rolledBack : ∃ k e, w.deps.get d.id = some e ∧ RolledBack d k e ∧
    k + (if d.Armed then overLimit d (failedCount d w)
      (vs.filter fun v => livenessFailure now l v = some d) else 0) = n

/-- A workload that does not fail is passed by. -/
lemma Visiting.pass {l : List Deployment} {n : ℕ} {vs : List Workload}
    (h : Visiting now l d n (v :: vs) w) (hv : livenessFailure now l v = none) :
    Visiting now l d n vs w where
  nodup := (List.nodup_cons.mp h.nodup).2
  stored u hu := h.stored u (List.mem_cons_of_mem _ hu)
  rolledBack := by
    have hrest := h.rolledBack
    rwa [List.filter_cons_of_neg (by simp [hv])] at hrest

/-- A liveness failure: the workload is stored as failed, and the listed deployment is judged. -/
structure Fails (v : Workload) (d : Deployment) (w w₁ w' : World) : Prop where
  failed : ∃ v', v.FailedAs v' ∧ w₁.workloads = w.workloads.put v'
  deps : w₁.deps = w.deps
  kept : w'.workloads = w₁.workloads
  judged : (w'.deps = w₁.deps ∧ ∀ e, w₁.deps.get d.id = some e → ¬ d.Reverts e w₁) ∨
    ∃ e e', w₁.deps.get d.id = some e ∧ d.Reverts e w₁ ∧ w'.deps = w₁.deps.put e' ∧
      Restores e e' (d.currentRevision - 1)

/-- Another deployment is not touched by a failure. -/
lemma Fails.get_of_ne {w₁ : World} (h : Fails v d w w₁ w') {id : String} (hne : id ≠ d.id) :
    w'.deps.get id = w.deps.get id := by
  rcases h.judged with ⟨hsame, -⟩ | ⟨e, e', he, -, hput, hres⟩
  · rw [hsame, h.deps]
  · have hid : e'.id = d.id := hres.id_eq.trans (Table.key_of_get he)
    rw [hput, Table.get_put_of_ne _ (hid ▸ hne), h.deps]

/-- A failure counts against the deployment of the workload. -/
lemma Fails.failedCount_eq {w₁ : World} (h : Fails v e w w₁ w') (hv : v ∈ w.workloads.rows)
    (hrun : v.status = .running) (d : Deployment) :
    failedCount d w₁ = failedCount d w +
        (if v.deploymentID = d.id ∧ v.version = d.currentRevision then 1 else 0) ∧
      failedCount d w' = failedCount d w₁ := by
  obtain ⟨v', hv', hput⟩ := h.failed
  refine ⟨failedCount_put d hv hrun hv' hput, ?_⟩
  rw [failedCount, World.deployed, h.kept]
  rfl

section Visiting

variable {l : List Deployment} {n : ℕ} {vs : List Workload} {w₁ : World}

/-- The workloads that are not visited yet are stored as they were listed. -/
lemma Visiting.rest (h : Visiting now l d n (v :: vs) w) (hfails : Fails v e w w₁ w') :
    (vs.map Workload.id).Nodup ∧ ∀ u ∈ vs, u ∈ w'.workloads.rows := by
  obtain ⟨v', hv', hput⟩ := hfails.failed
  obtain ⟨hnotin, hnodup⟩ := List.nodup_cons.mp h.nodup
  refine ⟨hnodup, fun u hu => ?_⟩
  rw [hfails.kept, hput, Table.mem_rows_put, hv'.id]
  refine Or.inr ⟨h.stored u (List.mem_cons_of_mem _ hu), fun hid => ?_⟩
  exact hnotin (List.mem_map.mpr ⟨u, hu, hid⟩)

/-- A workload of another deployment fails. -/
lemma Visiting.fail_other (h : Visiting now l d n (v :: vs) w)
    (hv : livenessFailure now l v = some e) (hne : e.id ≠ d.id) (hfails : Fails v e w w₁ w') :
    Visiting now l d n vs w' := by
  obtain ⟨hnodup, hstored⟩ := h.rest hfails
  obtain ⟨k, x, hx, hrolled, hsum⟩ := h.rolledBack
  obtain ⟨hcount, hsame⟩ :=
    hfails.failedCount_eq (h.stored v List.mem_cons_self) (livenessFailure_some hv) d
  have hoff : ¬ (v.deploymentID = d.id ∧ v.version = d.currentRevision) :=
    fun h => hne ((livenessFailure_mem hv).2.trans h.1)
  have hed : e ≠ d := fun h => hne (congrArg Deployment.id h)
  refine ⟨hnodup, hstored, k, x, (hfails.get_of_ne hne.symm).trans hx, hrolled, ?_⟩
  rw [List.filter_cons_of_neg (by simpa [hv] using hed)] at hsum
  rw [hsame, hcount, if_neg hoff, add_zero]
  exact hsum

/-- A workload of the deployment fails: it is rolled back if the limit is reached by now. -/
lemma Visiting.fail_own (h : Visiting now l d n (v :: vs) w)
    (hv : livenessFailure now l v = some d) (hfails : Fails v d w w₁ w') :
    Visiting now l d n vs w' := by
  obtain ⟨hnodup, hstored⟩ := h.rest hfails
  obtain ⟨k, x, hx, hrolled, hsum⟩ := h.rolledBack
  obtain ⟨hcount, hsame⟩ :=
    hfails.failedCount_eq (h.stored v List.mem_cons_self) (livenessFailure_some hv) d
  have hreached : failedCount d w + (if v.version = d.currentRevision then 1 else 0) =
      failedCount d w₁ :=
    hcount.symm ▸ congrArg _ (if_congr (and_iff_right (livenessFailure_mem hv).2.symm).symm rfl rfl)
  rw [List.filter_cons_of_pos (by simpa using hv), overLimit, hreached] at hsum
  refine ⟨hnodup, hstored, ?_⟩
  rcases hfails.judged with ⟨hdeps, hnot⟩ | ⟨y, y', hy, hreverts, hdeps, hres⟩
  · refine ⟨k, x, by rw [hdeps, hfails.deps, hx], hrolled, ?_⟩
    rw [hsame, ← hsum]
    split_ifs with harmed hlim
    · exact absurd ⟨harmed.1, hlim, fun h => harmed.2 (hrolled.target.mp h)⟩
        (hnot x (by rw [hfails.deps, hx]))
    · rw [zero_add]
    · rfl
  · obtain rfl : x = y := Option.some.inj (hx.symm.trans (by rw [← hfails.deps, hy]))
    have harmed : d.Armed := ⟨hreverts.1, fun h => hreverts.2.2 (hrolled.target.mpr h)⟩
    have hlim : d.failureLimit ≤ failedCount d w₁ := hreverts.2.1
    refine ⟨k + 1, y', ?_, hrolled.succ hres, ?_⟩
    · rw [hdeps, ← hrolled.id, ← hres.id_eq]
      exact Table.get_put_self _ y'
    · rw [hsame, ← hsum, if_pos harmed, if_pos harmed, if_pos hlim, add_assoc]

end Visiting

/-- **A pass** rolls a deployment back as often as a failure finds the limit reached. -/
theorem evaluateWorkloadHealth_returns (hd : w.deps.get d.id = some d) :
    Returns env Rules.any evaluateWorkloadHealth w fun _ w' => ∃ e,
      w'.deps.get d.id = some e ∧ RolledBack d (rollbacks (env.clock w.tick) d w) e := by
  refine listWorkloads_bind (listDeployments_bind ((timeNow_returns w).bind ?_))
  rintro now w₀ ⟨rfl, hq, -⟩
  generalize env.clock w.tick = now
  refine Prog.Sat.forEach (I := Visiting now w.deps.rows d (rollbacks now d w)) ?_ ?_ _ ?_
  · intro v vs w₁ h
    cases hfail : livenessFailure now w.deps.rows v with
    | none => exact h.pass hfail
    | some e =>
      refine Returns.bind (restatusWorkload_returns (v := { v with
        status := .failed, restartCount := v.restartCount + 1 }) (h.stored v List.mem_cons_self)
        rfl rfl nofun) ?_
      rintro _ w₂ ⟨t, he⟩
      refine Prog.Sat.mono (maybeAutoRollback_returns e w₂) ?_
      rintro _ w₃ ⟨_, rfl, hkept, hjudged⟩
      have hfails : Fails v e w₁ w₂ w₃ := by
        refine ⟨⟨_, ?_, he.workloads⟩, he.deps, hkept, hjudged⟩
        exact ⟨rfl, rfl, rfl, rfl⟩
      obtain ⟨hmem, -⟩ := livenessFailure_mem hfail
      by_cases hid : e.id = d.id
      · obtain rfl : e = d := Table.eq_of_mem_of_key_eq hmem (Table.mem_of_get hd) hid
        exact h.fail_own hfail hfails
      · exact h.fail_other hfail hid hfails
  · rintro w₁ ⟨-, -, k, e, he, hrolled, hsum⟩
    have hk : k = rollbacks now d w := by
      rw [← hsum]
      split_ifs <;> rfl
    exact ⟨(), rfl, e, he, hk ▸ hrolled⟩
  · refine ⟨w.workloads.nodup_keys, fun v hv => by rwa [hq.workloads], 0, d, ?_, .zero d, ?_⟩
    · rw [hq.deps, hd]
    · rw [zero_add, failedCount, hq.deployed]
      rfl

/-- The deployment is rolled back more than once: all its failures but the last make the limit
reached. -/
structure RollsBackTwice (now : Time) (d : Deployment) (w : World) : Prop where
  armed : d.Armed
  failures : 2 ≤ (failures now d w).length
  limit : d.failureLimit ≤ (failedCount d w +
    (Orchestrator.failures now d w).dropLast.countP (fun v => v.version = d.currentRevision) : ℕ)

lemma two_le_rollbacks_iff : 2 ≤ rollbacks now d w ↔ RollsBackTwice now d w := by
  unfold rollbacks
  split_ifs with h
  · rw [two_le_overLimit_iff]
    exact ⟨fun h' => ⟨h, h'.1, h'.2⟩, fun h' => ⟨h'.failures, h'.limit⟩⟩
  · exact iff_of_false (by decide) fun h' => h h'.armed

/-- **Rollbacks in one health pass.** For every store and every stored deployment: the pass adds
exactly `rollbacks` revisions, and at most one if and only if the deployment is not rolled back
twice. -/
theorem health_pass_rollbacks_iff (env : Env) (w : World) (id : String) (d : Deployment)
    (hd : w.deps.get id = some d) :
    ∃ d', (evaluateWorkloadHealth.final (exec env) w).deps.get id = some d' ∧
      d'.currentRevision = d.currentRevision + rollbacks (env.clock w.tick) d w ∧
      d'.revisionHistory.length = d.revisionHistory.length + rollbacks (env.clock w.tick) d w ∧
      (d'.currentRevision ≤ d.currentRevision + 1 ∧
          d'.revisionHistory.length ≤ d.revisionHistory.length + 1 ↔
        ¬ RollsBackTwice (env.clock w.tick) d w) := by
  obtain rfl : d.id = id := Table.key_of_get hd
  have hrun : Returns env Rules.any evaluateWorkloadHealth w _ := evaluateWorkloadHealth_returns hd
  obtain ⟨_, -, d', hd', hrolled⟩ := hrun.run
  refine ⟨d', hd', hrolled.revision, hrolled.history, ?_⟩
  rw [hrolled.revision, hrolled.history, ← two_le_rollbacks_iff]
  omega

/-- A deployment at its second revision, to be rolled back after one failure. -/
def secondRevision : Deployment :=
  let spec := { webSpec with
    rollout := { autoRollbackOnFailure := true }, livenessProbe := { enabled := true } }
  { newDeployment "dep-0" spec 0 with
    currentRevision := 2
    revisionHistory := [{ revision := 1, spec := spec, createdAt := 0 },
      { revision := 2, spec := spec, createdAt := 0 }] }

/-- A workload of it that runs without a container. -/
def hollow (id : String) : Workload :=
  { id := id, deploymentID := "dep-0", nodeID := "n1", image := "img", resources := ⟨100, 100⟩,
    status := .running, version := 2, createdAt := 0 }

/-- The deployment with these workloads. -/
def hollowWorld (ids : List String) : World where
  store := ids.foldl (fun s id => s.put .workload (hollow id))
    (Store.empty.put .deployment secondRevision)
  tick := 0

theorem health_pass_rollbacks_iff_one : ∃ d',
    (evaluateWorkloadHealth.final (exec tickingEnv) (hollowWorld ["w1"])).deps.get "dep-0" = some d' ∧
      d'.currentRevision = 3 := by
  obtain ⟨d', hd', hrev, -⟩ := health_pass_rollbacks_iff tickingEnv (hollowWorld ["w1"]) "dep-0"
    secondRevision (by decide +kernel)
  refine ⟨d', hd', hrev.trans ?_⟩
  decide +kernel

/-- Two workloads fail in one pass, and the deployment is rolled back twice. -/
theorem health_pass_rolls_back_twice :
    ((evaluateWorkloadHealth.final (exec tickingEnv) (hollowWorld ["w1", "w2"])).deps.get
      "dep-0").map (fun d => (d.currentRevision, d.revisionHistory.length)) = some (4, 4) := by
  decide +kernel

end Orchestrator
