/-
# Jobs and their deployments

A run that stores new jobs, makes passes of `reconcileJobsAndCron`, and sees arbitrary
workload outcomes.  Every deployment that is not marked for deletion belongs to a running job
that names it, as long as a pass lists each job once and retries none: a second copy of a
pending job starts a second deployment, and a retry clears the name of the deployment before
it asks for its deletion.
-/
import Orchestrator.Logic.Frames
import Orchestrator.System

namespace Orchestrator

open Lib

variable {j : Job} {d : Deployment} {j' : Job} {now : Time} {id : String}

/-! ### The claim on a state -/

/-- The deployment was created for the job. -/
def Deployment.MadeFor (d : Deployment) (j : Job) : Prop := d.spec.name = "job-" ++ j.id

/-- A job has at most one deployment that is not marked for deletion: the one it names, and
none once it is done. -/
structure OneLivePerJob (w : World) : Prop where
  one : ∀ j ∈ w.jobs.rows, ∀ d ∈ w.deps.rows, ∀ d' ∈ w.deps.rows, d.MadeFor j → d'.MadeFor j →
    d.deletionTimestamp = none → d'.deletionTimestamp = none → d = d'
  named : ∀ j ∈ w.jobs.rows, ∀ d ∈ w.deps.rows, d.MadeFor j → d.deletionTimestamp = none →
    j.deployment = d.id
  done : ∀ j ∈ w.jobs.rows, j.status = .succeeded ∨ j.status = .failed →
    ∀ d ∈ w.deps.rows, d.MadeFor j → d.deletionTimestamp ≠ none

/-! ### Runs -/

/-- What happens in a run: a new job, a pass, a report on a workload, or any change to the
tables other than those of jobs, cron jobs and deployments. -/
inductive JobEvent
  | upsert (job : Job)
  | pass
  | report (id : String) (status : WorkloadStatus) (containerID : String)
  | change (settings : Store)

/-- The tables that a change leaves alone. -/
def Tbl.ofJobs : Tbl → Bool
  | .job | .cronJob | .deployment => true
  | _ => false

def JobEvent.step (env : Env) (o : Config) (e : JobEvent) (w : World) : World :=
  match e with
  | .upsert job => (upsertJob job).final (exec env) w
  | .pass => (reconcileJobsAndCron o).final (exec env) w
  | .report id status containerID =>
      (reportWorkloadStatus id status containerID).final (exec env) w
  | .change settings =>
      { w with store := fun t => if t.ofJobs then w.store t else settings t }

/-- The jobs that a pass goes through, in order. -/
def World.listedJobs (w : World) : List Job :=
  w.jobsOf "default" ++ ((w.store .nameSpace).rows.map fun ns : Namespace => w.jobsOf ns.name).flatten

/-- The id under which a job is stored. -/
def Job.storedID (env : Env) (w : World) (job : Job) : String :=
  if blank job.id then jobID (env.clock w.tick) else job.id

/-- A new job is stored under an id that is not in use. -/
def JobEvent.Fresh (env : Env) : JobEvent → World → Prop
  | .upsert job, w => ∀ j ∈ w.jobs.rows, j.id ≠ job.storedID env w
  | _, _ => True

/-- A running job that may be retried has no failed workload. -/
def Job.Calm (j : Job) (w : World) : Prop :=
  j.status = .running → j.failed + 1 ≤ j.spec.backoffLimit →
    ∀ v ∈ w.workloads.rows, v.deploymentID = j.deployment → v.status ≠ .failed

/-- A pass lists each job once, and none of them is up for a retry. -/
def JobEvent.Orderly : JobEvent → World → Prop
  | .pass, w => (w.listedJobs.map Job.id).Nodup ∧ ∀ j ∈ w.listedJobs, j.Calm w
  | _, _ => True

instance JobEvent.decidableFresh (env : Env) (e : JobEvent) (w : World) :
    Decidable (e.Fresh env w) :=
  match e with
  | .upsert _ => inferInstanceAs (Decidable (∀ j ∈ w.jobs.rows, _))
  | .pass | .report _ _ _ | .change _ => .isTrue trivial

instance Job.decidableCalm (j : Job) (w : World) : Decidable (j.Calm w) :=
  inferInstanceAs (Decidable (_ → _ → ∀ v ∈ w.workloads.rows, _))

instance JobEvent.decidableOrderly (e : JobEvent) (w : World) : Decidable (e.Orderly w) :=
  match e with
  | .pass => inferInstanceAs (Decidable (List.Nodup _ ∧ ∀ j ∈ w.listedJobs, _))
  | .upsert _ | .report _ _ _ | .change _ => .isTrue trivial

/-! ### The invariant -/

/-- Every deployment that is not marked belongs to a running job that names it. -/
def Attended (w : World) : Prop :=
  ∀ d ∈ w.deps.rows, d.deletionTimestamp = none →
    ∃ j ∈ w.jobs.rows, j.status = .running ∧ j.deployment = d.id ∧ d.MadeFor j

variable {env : Env} {o : Config} {w w' : World}

lemma Deployment.MadeFor.id_eq (h : d.MadeFor j)
    (h' : d.MadeFor j') : j.id = j'.id := by
  have heq : "job-" ++ j.id = "job-" ++ j'.id := h.symm.trans h'
  exact (String.append_right_inj _).mp heq

/-- The job to which an unmarked deployment belongs is the one it was made for. -/
lemma Attended.running (h : Attended w) (hd : d ∈ w.deps.rows)
    (hlive : d.deletionTimestamp = none) (hj : j ∈ w.jobs.rows) (hmade : d.MadeFor j) :
    j.status = .running ∧ j.deployment = d.id := by
  obtain ⟨j', hj', hrun, hdep, hmade'⟩ := h d hd hlive
  obtain rfl : j' = j := Table.eq_of_mem_of_key_eq hj' hj (hmade'.id_eq hmade)
  exact ⟨hrun, hdep⟩

lemma Attended.oneLive (h : Attended w) : OneLivePerJob w where
  one := by
    intro j hj d hd d' hd' hm hm' hl hl'
    have hid := (h.running hd hl hj hm).2
    have hid' := (h.running hd' hl' hj hm').2
    exact Table.eq_of_mem_of_key_eq hd hd' (hid.symm.trans hid')
  named j hj d hd hm hl := (h.running hd hl hj hm).2
  done := by
    intro j hj hdone d hd hm hl
    have hrun := (h.running hd hl hj hm).1
    rcases hdone with hs | hs <;> rw [hrun] at hs <;> cases hs

/-! ### What the calls do to the deployments -/

/-- The first pass over a new deployment and the write-back leave its record, up to its
status. -/
lemma firstPass_returns {D : Table Deployment Deployment.id} {spec : DeploymentSpec}
    {w : World} (h : w.deps = D.put (newDeployment id spec.admitted now).viaJSON) :
    Returns env openRules (do
      reconcileDeployment o id
      let dep ← createdStatus (newDeployment id spec.admitted now)
      (StateStore.updateDeployment dep).ignore
      pure dep) w fun d w' => d.id = id ∧
        ∃ d', d'.core = (newDeployment id spec.admitted now).core.viaJSON ∧ w'.deps = D.put d' := by
  have hget : w.deps.get id = some (newDeployment id spec.admitted now).viaJSON := by
    rw [h]
    exact Table.get_put_self D (newDeployment id spec.admitted now).viaJSON
  have hmem := Table.mem_of_get hget
  refine (reconcileDeployment_returns hget (allows_prepared hmem rfl)).bind ?_
  intro _ w₁ hrec
  obtain ⟨w₂, d', -, hw₂, hpass, he⟩ := hrec.chain (S := fun _ => True) hmem rfl
  refine (Drafts.returns (keepsCore_createdStatus _) w₁).bind ?_
  rintro dep w₃ ⟨hcore, hq⟩
  have hput : Returns env openRules (StateStore.updateDeployment dep).ignore w₃ fun _ w' =>
      w'.deps = w₃.deps.put dep.viaJSON :=
    (updateDeployment_returns dep w₃).ignore fun _ _ h => h.deps
  refine hput.bind fun _ w₄ hw₄ => ?_
  have hid : dep.id = id := congrArg DepCore.id hcore
  refine returns_pure ⟨hid, dep.viaJSON, by rw [core_viaJSON, hcore], ?_⟩
  have hid' : d'.id = id := congrArg DepCore.id hpass.of_new
  have hnew : (newDeployment id spec.admitted now).viaJSON.id = dep.viaJSON.id := hid.symm
  rw [hw₄, hq.deps, he.deps, hw₂, h, Table.put_put _ (hid'.trans hnew), Table.put_put _ hnew]

/-- The records of the deployments after `CreateDeployment`: as they were if it fails, and
with one more record if it returns a deployment. -/
lemma createDeployment_deps (env : Env) (spec : DeploymentSpec) (w : World) :
    Holds env openRules (createDeployment o spec) w fun r w' =>
      (w'.deps = w.deps ∧ ∃ e, r = .error e) ∨
      ∃ d d', r = .ok d ∧ w.deps.get d.id = none ∧ w'.deps = w.deps.put d' ∧ d'.id = d.id ∧
        d'.spec.name = spec.name ∧ d'.deletionTimestamp = none := by
  unfold createDeployment
  split
  · exact .inl ⟨rfl, _, rfl⟩
  split
  · exact .inl ⟨rfl, _, rfl⟩
  refine (((admitSpec_writesIn _).spares (t := .deployment) (by decide)).frame
    (steers_admitSpec _)).bind ?_ fun e w₀ h => .inl ⟨h.2, e, rfl⟩
  rintro _ w₀ ⟨-, hw₀⟩
  refine stamp_bind fun now w₁ q₁ => (randIntn_returns w₁).bind ?_
  rintro r w₂ ⟨-, q₂, -⟩
  have hdeps : w₂.deps = w.deps := ((q₁.trans q₂).deps).trans hw₀
  refine (createDeployment_store _ w₂).bind ?_ ?_
  swap
  · rintro e w₃ (⟨-, rfl, -⟩ | ⟨-, hr, -⟩)
    · exact .inl ⟨hdeps, e, rfl⟩
    · cases hr
  rintro _ w₃ (⟨-, -, e, hr⟩ | ⟨hnew, -, he⟩)
  · cases hr
  rw [hdeps] at hnew he
  refine Prog.Sat.mono (firstPass_returns he.deps) ?_
  rintro _ w₄ ⟨d, rfl, hid, d', hcore, hw₄⟩
  refine .inr ⟨d, d', rfl, ?_, hw₄, ?_, ?_, ?_⟩
  · rw [hid]
    exact hnew
  · exact (congrArg DepCore.id hcore).trans hid.symm
  · exact congrArg (fun c => c.spec.name) hcore
  · exact congrArg DepCore.deletionTimestamp hcore

/-- `DeleteDeployment` marks the record, if there is one. -/
lemma deleteDeployment_deps (id : String) (w : World) :
    Holds env openRules (deleteDeployment id) w fun _ w' =>
      (w'.deps = w.deps ∧ w.deps.get id = none) ∨
      ∃ d d', w.deps.get id = some d ∧ w'.deps = w.deps.put d' ∧ d'.id = id ∧
        d'.deletionTimestamp ≠ none := by
  refine withLock_holds (find_bind ?_ fun h => .inl ⟨rfl, h⟩)
  intro d hd
  refine stamp_bind fun now w₁ hq => Prog.Sat.mono (updateDeployment_returns _ w₁) ?_
  rintro _ w₂ ⟨_, -, he⟩
  rw [hq.deps] at he
  have hid : d.id = id := Table.key_of_get hd
  exact .inr ⟨d, _, hd, he.deps, hid, nofun⟩

/-! ### Writes and the invariant -/

lemma Attended.of_tables (h : Attended w) (hD : w'.deps = w.deps) (hJ : w'.jobs = w.jobs) :
    Attended w' := by
  unfold Attended
  rw [hD, hJ]
  exact h

/-- A job is stored that no unmarked deployment belongs to. -/
lemma Attended.put_job (h : Attended w) (hD : w'.deps = w.deps)
    (hJ : w'.jobs = w.jobs.put j)
    (hidle : ∀ d ∈ w.deps.rows, d.deletionTimestamp = none → ¬ d.MadeFor j) : Attended w' := by
  intro d hd hlive
  rw [hD] at hd
  obtain ⟨j', hj', hrun, hdep, hmade⟩ := h d hd hlive
  refine ⟨j', ?_, hrun, hdep, hmade⟩
  rw [hJ]
  refine Table.mem_rows_put.mpr (.inr ⟨hj', fun hid => hidle d hd hlive ?_⟩)
  have hid' : j'.id = j.id := hid
  rw [Deployment.MadeFor, ← hid']
  exact hmade

/-- A job that no unmarked deployment belongs to is removed. -/
lemma Attended.del_job (h : Attended w) (hD : w'.deps = w.deps)
    (hJ : w'.jobs = w.jobs.del id)
    (hidle : ∀ j ∈ w.jobs.rows, j.id = id → j.status ≠ .running) : Attended w' := by
  intro d hd hlive
  rw [hD] at hd
  obtain ⟨j, hj, hrun, hrest⟩ := h d hd hlive
  refine ⟨j, ?_, hrun, hrest⟩
  rw [hJ]
  exact Table.mem_rows_del.mpr ⟨hj, fun hid => hidle j hj hid hrun⟩

/-- A pending job gets a deployment, and names it. -/
lemma Attended.start (h : Attended w) (hj : j ∈ w.jobs.rows)
    (hpending : j.status = .pending) (hD : w'.deps = w.deps.put d) (hJ : w'.jobs = w.jobs.put j')
    (hid : j'.id = j.id) (hrun : j'.status = .running) (hdep : j'.deployment = d.id)
    (hmade : d.MadeFor j) : Attended w' := by
  intro d₁ hd₁ hlive
  rw [hD, Table.mem_rows_put] at hd₁
  rw [hJ]
  rcases hd₁ with rfl | ⟨hd₁, -⟩
  · refine ⟨j', Table.mem_rows_put.mpr (.inl rfl), hrun, hdep, ?_⟩
    rw [Deployment.MadeFor, hid]
    exact hmade
  · obtain ⟨j₁, hj₁, hrun₁, hrest⟩ := h d₁ hd₁ hlive
    refine ⟨j₁, Table.mem_rows_put.mpr (.inr ⟨hj₁, fun hk => ?_⟩), hrun₁, hrest⟩
    -- the job was pending, and so is not the running one of another deployment
    obtain rfl : j₁ = j := Table.eq_of_mem_of_key_eq hj₁ hj (hk.trans hid)
    rw [hpending] at hrun₁
    cases hrun₁

/-- A running job is stored as done, and its deployment is marked. -/
lemma Attended.finish (h : Attended w) (hj : j ∈ w.jobs.rows) (hid : j'.id = j.id)
    (hJ : w'.jobs = w.jobs.put j')
    (hD : (w'.deps = w.deps ∧ w.deps.get j.deployment = none) ∨
      ∃ d d', w.deps.get j.deployment = some d ∧ w'.deps = w.deps.put d' ∧
        d'.id = j.deployment ∧ d'.deletionTimestamp ≠ none) : Attended w' := by
  intro d₁ hd₁ hlive
  -- an unmarked deployment is another one than that of the job
  have hother : d₁ ∈ w.deps.rows ∧ d₁.id ≠ j.deployment := by
    rcases hD with ⟨hD, hnone⟩ | ⟨d, d', hd, hD, hd', hmark⟩
    · rw [hD] at hd₁
      refine ⟨hd₁, fun hk => ?_⟩
      rw [← hk, Table.get_of_mem hd₁] at hnone
      cases hnone
    · rw [hD, Table.mem_rows_put] at hd₁
      rcases hd₁ with rfl | ⟨hd₁, hne⟩
      · exact absurd hlive hmark
      · exact ⟨hd₁, hd' ▸ hne⟩
  obtain ⟨j₁, hj₁, hrun₁, hdep₁, hmade₁⟩ := h d₁ hother.1 hlive
  refine ⟨j₁, ?_, hrun₁, hdep₁, hmade₁⟩
  rw [hJ]
  refine Table.mem_rows_put.mpr (.inr ⟨hj₁, fun hk => hother.2 ?_⟩)
  obtain rfl : j₁ = j := Table.eq_of_mem_of_key_eq hj₁ hj (hk.trans hid)
  exact hdep₁.symm

/-! ### The body of the loop -/

/-- What the body of the loop does with a job: the invariant is kept, the other jobs are as
they were, and no workload has failed. -/
structure Turned (j : Job) (w w' : World) : Prop where
  attended : Attended w'
  others : ∀ k, k ≠ j.id → w'.jobs.get k = w.jobs.get k
  failed : ∀ v ∈ w'.workloads.rows, v.status = .failed → v ∈ w.workloads.rows

lemma Turned.refl (h : Attended w) : Turned j w w := ⟨h, fun _ _ => rfl, fun _ hv _ => hv⟩

lemma startJob_turned (h : Attended w) (hj : w.jobs.get j.id = some j)
    (hpending : j.status = .pending) :
    Holds env openRules (startJob o j) w fun _ w' => Turned j w w' := by
  unfold startJob
  split
  swap
  · exact .refl h
  have hcreate := (createDeployment_gentle o j.deploymentSpec).failed
    ((createDeployment_writesIn o j.deploymentSpec).frame
      (createDeployment_deps env j.deploymentSpec w))
  refine hcreate.attempt_bind ?_
  rintro r w₁ ⟨⟨hdeps, hrest⟩, hfailed⟩
  have hjobs : w₁.jobs = w.jobs := hrest .job (by decide)
  rcases hdeps with ⟨hdeps, e, rfl⟩ | ⟨d, d', rfl, hnew, hdeps, hid, hname, hlive⟩
  · exact ⟨h.of_tables hdeps hjobs, fun k _ => congrArg (Table.get · k) hjobs, hfailed⟩
  refine Prog.Sat.ignore (((storeJob_writesIn _).frame (storeJob_returns _ w₁)).mono ?_)
  rintro _ w₂ ⟨⟨_, -, j', hput, hid', hdep, hrun⟩, hrest₂⟩
  rw [hjobs] at hput
  refine ⟨?_, ?_, ?_⟩
  · exact h.start (Table.mem_of_get hj) hpending ((hrest₂ .deployment (by decide)).trans hdeps)
      hput hid' hrun (hdep.trans hid.symm) hname
  · exact fun k hk => hput ▸ Table.get_put_of_ne _ fun h => hk (h.trans hid')
  · have hwl : w₂.workloads = w₁.workloads := hrest₂ .workload (by decide)
    rw [hwl]
    exact hfailed

lemma watchJob_turned (h : Attended w) (hj : w.jobs.get j.id = some j)
    (hrun : j.status = .running) (hcalm : j.Calm w) :
    Holds env openRules (watchJob now j) w fun _ w' => Turned j w w' := by
  unfold watchJob
  split
  · exact .refl h
  refine deployed_bind ?_
  dsimp only
  split
  · exact .refl h
  rename_i v hv
  -- the job that is stored names the same deployment, since it is not retried
  have hkeep : ∀ job', job' = (if v.status = .running then
      { j with succeeded := j.succeeded + 1, runCount := j.runCount + 1,
               status := .succeeded, completedAt := now } else j.afterFailure now) →
      job'.id = j.id ∧ job'.deployment = j.deployment := by
    rintro _ rfl
    split
    · exact ⟨rfl, rfl⟩
    rename_i hnot
    have hmem : v ∈ w.deployed j.deployment := List.mem_of_find?_eq_some hv
    have hstatus : v.status = .failed := by simpa [hnot] using List.find?_some hv
    have hdep := mem_deployed.mp hmem
    have hlimit : j.failed + 1 > j.spec.backoffLimit := by
      by_contra hle
      exact hcalm hrun (not_lt.mp hle) v hdep.1 hdep.2 hstatus
    rw [Job.afterFailure, if_pos hlimit]
    exact ⟨rfl, rfl⟩
  generalize (if v.status = .running then _ else j.afterFailure now) = job' at hkeep ⊢
  obtain ⟨hid, hdep⟩ := hkeep _ rfl
  refine Prog.Sat.bind_ok (R := fun _ w₁ => ∃ j', w₁.jobs = w.jobs.put j' ∧ j'.id = j.id ∧
    ∀ t, t ∉ [Tbl.job] → w₁.store t = w.store t) (Prog.Sat.ignore ?_) ?_
  · refine ((storeJob_writesIn job').frame (storeJob_returns job' w)).mono ?_
    rintro _ w₁ ⟨⟨_, -, j', hput, hid', -⟩, hrest⟩
    exact ⟨(), rfl, j', hput, hid'.trans hid, hrest⟩
  rintro _ w₁ ⟨j', hput, hid', hrest⟩
  refine Prog.Sat.ignore (((deleteDeployment_writesIn _).frame
    (deleteDeployment_deps job'.deployment w₁)).mono ?_)
  rintro _ w₂ ⟨hdeps, hrest₂⟩
  have hdeps₁ : w₁.deps = w.deps := hrest .deployment (by decide)
  have hwl₁ : w₁.workloads = w.workloads := hrest .workload (by decide)
  have hwl₂ : w₂.workloads = w₁.workloads := hrest₂ .workload (by decide)
  have hjobs₂ : w₂.jobs = w.jobs.put j' := (hrest₂ .job (by decide)).trans hput
  rw [hdeps₁, hdep] at hdeps
  refine ⟨h.finish (Table.mem_of_get hj) hid' hjobs₂ hdeps, ?_, ?_⟩
  · exact fun k hk => hjobs₂ ▸ Table.get_put_of_ne _ fun h => hk (h.trans hid')
  · rw [hwl₂, hwl₁]
    exact fun v hv _ => hv

lemma reconcileJob_turned (h : Attended w)
    (hj : w.jobs.get j.id = some j) (hcalm : j.Calm w) :
    Holds env openRules (reconcileJob o now j) w fun _ w' => Turned j w w' := by
  -- a job that is done belongs to no unmarked deployment, so it may go
  have hdelete : j.status ≠ .running →
      Holds env openRules (StateStore.deleteJob j.id).ignore w fun _ w' => Turned j w w' := by
    intro hdone
    refine Prog.Sat.ignore ⟨trivial, ?_⟩
    have hjobs : (exec env (.del .job j.id) w).2.jobs = w.jobs.del j.id :=
      Store.set_self w.store .job (w.jobs.del j.id)
    refine ⟨h.del_job rfl hjobs ?_, fun k hk => hjobs ▸ Table.get_del_of_ne _ hk,
      fun v hv _ => hv⟩
    intro j' hj' hid
    obtain rfl : j' = j := Table.eq_of_mem_of_key_eq hj' (Table.mem_of_get hj) hid
    exact hdone
  unfold reconcileJob
  split
  · rename_i hs
    exact startJob_turned h hj hs
  · rename_i hs
    exact watchJob_turned h hj hs hcalm
  · rename_i hs
    split
    · exact hdelete (by simp [hs])
    · exact .refl h
  · rename_i hs
    split
    · exact hdelete (by simp [hs])
    · exact .refl h
  · exact .refl h

/-- The loop: the jobs that are still to come are as they were listed. -/
lemma forEach_reconcileJob_attended (l : List Job) (h : Attended w)
    (hl : ∀ j ∈ l, w.jobs.get j.id = some j) (hcalm : ∀ j ∈ l, j.Calm w)
    (hnodup : (l.map Job.id).Nodup) :
    Holds env openRules (Prog.forEach l (reconcileJob o now)) w fun _ w' => Attended w' := by
  refine Prog.Sat.forEach (I := fun l w => Attended w ∧ (∀ j ∈ l, w.jobs.get j.id = some j) ∧
    (∀ j ∈ l, j.Calm w) ∧ (l.map Job.id).Nodup) ?_ (fun _ h => h.1) l ⟨h, hl, hcalm, hnodup⟩
  rintro j l w ⟨h, hl, hcalm, hnodup⟩
  rw [List.map_cons, List.nodup_cons] at hnodup
  refine (reconcileJob_turned h (hl j List.mem_cons_self) (hcalm j List.mem_cons_self)).mono ?_
  intro r w' ht
  cases r with
  | error e => exact ht.attended
  | ok _ =>
    refine ⟨ht.attended, fun j' hj' => ?_, fun j' hj' hrun hle v hv hdep hf => ?_, hnodup.2⟩
    · rw [ht.others _ fun hid => hnodup.1 (hid ▸ List.mem_map_of_mem hj')]
      exact hl j' (List.mem_cons_of_mem _ hj')
    · exact hcalm j' (List.mem_cons_of_mem _ hj') hrun hle v (ht.failed v hv hf) hdep hf

lemma World.mem_listedJobs (h : j ∈ w.listedJobs) : j ∈ w.jobs.rows := by
  have hof : ∀ ns, j ∈ w.jobsOf ns → j ∈ w.jobs.rows := by
    intro ns hj
    unfold World.jobsOf at hj
    split at hj
    · exact hj
    · exact (List.mem_filter.mp hj).1
  rcases List.mem_append.mp h with h | h
  · exact hof _ h
  · obtain ⟨l, hl, hj⟩ := List.mem_flatten.mp h
    obtain ⟨ns, -, rfl⟩ := List.mem_map.mp hl
    exact hof _ hj

/-! ### Steps and runs -/

/-- The invariant of the runs: no cron job adds jobs of its own. -/
structure JobInv (w : World) : Prop where
  attended : Attended w
  noCron : (w.store .cronJob).rows = []

lemma JobInv.pass (h : JobInv w) (hok : JobEvent.pass.Orderly w) :
    Holds env openRules (reconcileJobsAndCron o) w fun _ w' => JobInv w' := by
  have hlist : w.byNamespace .cronJob keyCronJobPrefix = [] :=
    List.eq_nil_iff_forall_not_mem.mpr fun cj hcj => by
      have hmem := World.mem_of_byNamespace hcj
      rw [h.noCron] at hmem
      cases hmem
  have hcron : Returns env openRules (Prog.forEach (w.byNamespace .cronJob keyCronJobPrefix)
      (runCronJob (env.clock w.tick))) { w with tick := w.tick + 1 } fun _ w' =>
        w' = { w with tick := w.tick + 1 } := by
    rw [hlist]
    exact returns_pure rfl
  refine ⟨trivial, list_bind (lists_bind ⟨trivial, hcron.bind ?_⟩)⟩
  rintro _ _ rfl
  have hloop : Holds env openRules (Prog.forEach w.listedJobs (reconcileJob o (env.clock w.tick)))
      { w with tick := w.tick + 1 } fun _ w' => Attended w' :=
    forEach_reconcileJob_attended w.listedJobs h.attended
      (fun j hj => Table.get_of_mem (World.mem_listedJobs hj)) hok.2 hok.1
  have hwrites : WritesIn jobTables
      (Prog.forEach w.listedJobs (reconcileJob o (env.clock w.tick))) :=
    .forEach fun j _ => reconcileJob_writesIn o _ j
  refine listJobs_bind (listsJobs_bind ((hwrites.frame hloop).mono ?_))
  rintro _ w' ⟨hw', hrest⟩
  exact ⟨hw', (congrArg Table.rows (hrest .cronJob (by decide))).trans h.noCron⟩

/-- `UpsertJob` stores the job under its id, or fails. -/
lemma upsertJob_put (job : Job) (w : World) :
    Holds env openRules (upsertJob job) w fun _ w' =>
      w'.jobs = w.jobs ∨ ∃ j, w'.jobs = w.jobs.put j ∧ j.id = job.storedID env w := by
  have hstore : ∀ (j : Job) (id : String) (w₁ : World), w₁.jobs = w.jobs →
      Holds env openRules (do StateStore.upsertJob j; StateStore.getJob id) w₁ fun _ w' =>
        ∃ j', w'.jobs = w.jobs.put j' ∧ j'.id = j.id := by
    intro j id w₁ hw₁
    refine (storeJob_returns j w₁).bind ?_
    rintro _ w₂ ⟨j', hput, hid, -⟩
    exact find_holds fun _ => ⟨j', hput.trans (congrArg (Table.put · j') hw₁), hid⟩
  have hid : Returns env openRules (if blank job.id then jobID <$> timeNow else pure job.id) w
      fun id w₁ => id = job.storedID env w ∧ w₁.jobs = w.jobs := by
    unfold Job.storedID
    split
    · exact ⟨trivial, _, rfl, rfl, rfl⟩
    · exact returns_pure ⟨rfl, rfl⟩
  unfold upsertJob
  by_cases hname : blank job.spec.name = true
  · rw [if_pos hname]
    exact .inl rfl
  · rw [if_neg hname]
    refine hid.bind ?_
    rintro _ w₁ ⟨rfl, hw₁⟩
    exact Prog.Sat.mono (hstore _ _ _ hw₁) fun _ _ h => .inr h

lemma JobInv.upsert {job : Job} (h : JobInv w) (hok : (JobEvent.upsert job).Fresh env w) :
    Holds env openRules (upsertJob job) w fun _ w' => JobInv w' := by
  refine ((upsertJob_writesIn job).frame (upsertJob_put job w)).mono ?_
  rintro _ w' ⟨hjobs, hrest⟩
  have hdeps : w'.deps = w.deps := hrest .deployment (by decide)
  refine ⟨?_, (congrArg Table.rows (hrest .cronJob (by decide))).trans h.noCron⟩
  rcases hjobs with hjobs | ⟨j, hjobs, hid⟩
  · exact h.attended.of_tables hdeps hjobs
  · refine h.attended.put_job hdeps hjobs fun d hd hlive hmade => ?_
    obtain ⟨j', hj', -, -, hmade'⟩ := h.attended d hd hlive
    exact hok j' hj' ((hmade'.id_eq hmade).trans hid)

lemma JobInv.report {containerID : String} {status : WorkloadStatus} (h : JobInv w) :
    Holds env openRules (reportWorkloadStatus id status containerID) w fun _ w' => JobInv w' := by
  refine ((reportWorkloadStatus_writesIn id status containerID).frame
    (reportWorkloadStatus_holds id status containerID fun _ => trivial)).mono ?_
  rintro _ w' ⟨hr, hrest⟩
  refine ⟨?_, (congrArg Table.rows (hrest .cronJob (by decide))).trans h.noCron⟩
  have hjobs : w'.jobs = w.jobs := hrest .job (by decide)
  rcases hr.deps with hdeps | ⟨d, d', hd, hcore, hdeps⟩
  · exact h.attended.of_tables hdeps hjobs
  · intro d₁ hd₁ hlive
    rw [hdeps, Table.mem_rows_put] at hd₁
    rw [hjobs]
    rcases hd₁ with rfl | ⟨hd₁, -⟩
    · -- only the status of the deployment has changed
      have hmark : d.deletionTimestamp = none := by
        exact (congrArg DepCore.deletionTimestamp hcore).symm.trans hlive
      obtain ⟨j, hj, hrun, hdep, hmade⟩ := h.attended d hd hmark
      have hname : d₁.spec.name = d.spec.name := congrArg (fun c : DepCore => c.spec.name) hcore
      exact ⟨j, hj, hrun, hdep.trans (congrArg DepCore.id hcore).symm, hname.trans hmade⟩
    · exact h.attended d₁ hd₁ hlive

lemma JobInv.change {settings : Store} (h : JobInv w) :
    JobInv { w with store := fun t => if t.ofJobs then w.store t else settings t } :=
  ⟨h.attended, h.noCron⟩

/-- **One live deployment per job**: in every run of new jobs, passes and workload outcomes
whose passes list each job once and retry none, a job has at most one deployment that is not
marked for deletion, the one it names, and none once it is done. -/
theorem one_live_deployment_per_job (env : Env) (o : Config) (w₀ : World)
    (hdeps : w₀.deps.rows = []) (hcron : w₀.cronJobs.rows = [])
    (h : Runs (JobEvent.step env o) (fun e w => e.Fresh env w ∧ e.Orderly w) w₀ w) :
    OneLivePerJob w := by
  have hinv : JobInv w := by
    refine h.invariant (I := JobInv) ⟨?_, hcron⟩ ?_
    · intro d hd
      rw [hdeps] at hd
      cases hd
    · rintro e w hw ⟨hfresh, hok⟩
      cases e with
      | upsert job => exact (hw.upsert hfresh).run
      | pass => exact (hw.pass hok).run
      | report id status containerID => exact hw.report.run
      | change settings => exact hw.change
  exact hinv.attended.oneLive

/-- A store with a ready node and a record of the namespace. -/
def jobWorld : World :=
  { store := (Store.empty.put .node { smallNode with status := .ready }).put .nameSpace
      { name := "team", tenant := "default" }
    tick := 0 }

/-- A job that may be retried once. -/
def onceMore : Job :=
  { id := "j1", spec := { nameSpace := "team", name := "tidy", backoffLimit := 1,
                          template := webSpec } }

theorem one_live_deployment_per_job_succeeded :
    let w := after (JobEvent.step steadyEnv plainConfig) [.upsert onceMore, .pass,
      .report (steadyEnv.workloadID 7) .running "c1", .pass] jobWorld
    w.jobs.rows.map Job.status = [.succeeded] ∧ w.deps.rows.length = 1 ∧ OneLivePerJob w :=
  ⟨by decide +kernel, by decide +kernel,
    one_live_deployment_per_job steadyEnv plainConfig jobWorld (by decide +kernel)
      (by decide +kernel) (.of_list _ (by decide +kernel))⟩

/-- The first workload fails, and the job is retried.  The deployment of the first attempt is
never marked for deletion, and the job now has two. -/
theorem retry_leaks_deployment :
    let w := after (JobEvent.step steadyEnv plainConfig) [.upsert onceMore, .pass,
      .report (steadyEnv.workloadID 7) .failed "", .pass, .pass] jobWorld
    Runs (JobEvent.step steadyEnv plainConfig) (fun e w => e.Fresh steadyEnv w) jobWorld w ∧
      (w.deps.rows.map fun d => (d.spec.name, d.deletionTimestamp)) =
        [("job-j1", none), ("job-j1", none)] ∧ ¬ OneLivePerJob w := by
  intro w
  have hjobs : ∃ j ∈ w.jobs.rows, ∃ d ∈ w.deps.rows, ∃ d' ∈ w.deps.rows,
      d.spec.name = "job-" ++ j.id ∧ d'.spec.name = "job-" ++ j.id ∧
      d.deletionTimestamp = none ∧ d'.deletionTimestamp = none ∧ d.id ≠ d'.id := by
    decide +kernel
  refine ⟨.of_list _ (by decide +kernel), by decide +kernel, fun h => ?_⟩
  obtain ⟨j, hj, d, hd, d', hd', hm, hm', hl, hl', hne⟩ := hjobs
  exact hne (congrArg Deployment.id (h.one j hj d hd d' hd' hm hm' hl hl'))

end Orchestrator
