/-
# Is a deletion irrevocable?

Any number of calls of `DeleteDeployment`, `ReconcileAll`, `ReportWorkloadStatus`,
`CreateDeployment` and `UpdateDeployment` run concurrently, with their store calls
interleaved.  The record of a deployment whose deletion has been accepted stays marked until
it is removed, gets no new workload, and is not stored again, provided that no thread acts on
a view of the record that a deletion has overtaken.  Without this proviso a status report
undoes an accepted deletion.
-/
import Orchestrator.Logic.ThreadSafety
import Orchestrator.Properties.Availability

namespace Orchestrator

open Lib

/-- The calls that run concurrently. -/
inductive Op
  | delete (id : String)
  | reconcileAll
  | report (id : String) (status : WorkloadStatus) (containerID : String)
  | create (spec : DeploymentSpec)
  | update (id : String) (next : DeploymentSpec)

/-- The program of a call, without the record that it returns. -/
def Op.program (o : Config) : Op → M Unit
  | delete id => deleteDeployment id
  | reconcileAll => Orchestrator.reconcileAll o
  | report id status containerID => reportWorkloadStatus id status containerID
  | create spec => createDeployment o spec >>= fun _ => pure ()
  | update id next => updateDeployment id next >>= fun _ => pure ()

/-- The state before the calls, observed for the deployment `id`. -/
def Shared.init (id : String) (w : World) : Shared where
  world := w
  owner := none
  seen _ := none
  deleted := (w.deps.get id).any Deployment.isMarked
  known := (w.deployed id).map Workload.id

/-- Every thread is about to make its call. -/
def calling (id : String) (o : Config) (ops : ℕ → Op) (w : World) :
    Pool Call.Res Err Unit Shared where
  shared := Shared.init id w
  threads i := (ops i).program o

variable {env : Env} {id : String} {o : Config} {ops : ℕ → Op} {w : World}

lemma Shared.valid_init : (Shared.init id w).Valid id where
  mark b hb := by
    obtain ⟨d, hd, rfl⟩ := Option.map_eq_some_iff.mp hb
    have hget : w.deps.get id = some d := hd
    simp [Shared.init, hget]
  workloads v hv hdep := List.mem_map_of_mem (List.mem_filter.mpr ⟨hv, by simpa using hdep⟩)

lemma Shared.sound_init : (Shared.init id w).Sound id fun _ => {} where
  valid := Shared.valid_init
  knows _ := ⟨⟨nofun, nofun⟩, rfl, nofun, nofun, nofun⟩

/-- What a finished call leaves behind. -/
def Op.Done (id : String) (op : Op) (r : Except Err Unit) (l : View) : Prop :=
  op = .delete id → r = .ok () → l.marked = true

lemma Op.follows (op : Op) {l : View} (hl : Out l) :
    (watching id).Follows (op.program o) l (op.Done id) := by
  cases op with
  | delete k =>
    refine (follows_deleteDeployment k).mono fun r l' h hop hr => ?_
    cases hop
    exact h.2 ⟨(), hr⟩ rfl
  | reconcileAll => exact (keeps_reconcileAll l hl).mono fun _ _ _ => nofun
  | report k status cid =>
    exact (keeps_reportWorkloadStatus k status cid l hl).mono fun _ _ _ => nofun
  | create spec =>
    exact (Protocol.Keeps.bind (keeps_createDeployment spec) (fun _ => .ret _) l hl).mono
      fun _ _ _ => nofun
  | update k next =>
    exact (follows_updateDeployment k next).bind (fun _ _ _ => nofun) fun _ _ _ => nofun

/-- In every run the threads keep to the protocol, and what a deletion leaves stays. -/
lemma abide_run {s : Shared} {Q : ℕ → Except Err Unit → View → Prop}
    {p p' : Pool Call.Res Err Unit Shared}
    (h : Protocol.Abide (watching id) (fun s' view => s'.Sound id view ∧ Irrevocable id s s') Q p)
    (hrun : Runs (plane env id).step (Pool.Next (Current id)) p p') :
    Protocol.Abide (watching id) (fun s' view => s'.Sound id view ∧ Irrevocable id s s') Q p' := by
  refine Protocol.run_abide ?_ h hrun
  rintro i c s' view ⟨hsound, hirr⟩ he hc ha
  obtain ⟨hans, hfollow⟩ := follow_step env hsound.valid (hsound.knows i) he hc ha
  exact ⟨hans, hsound.follow hfollow, hirr.trans hfollow.irrevocable⟩

/-- **A deletion is irrevocable** in every run of concurrent calls in which the views that the
threads act on are current.  Once a `DeleteDeployment` of `id` has returned without an error,
in every later state the record, if it is stored, is marked, every stored workload of the
deployment is one that had been stored by then, and a record that is gone is not stored
again. -/
theorem deletion_irrevocable {p p' : Pool Call.Res Err Unit Shared}
    (hrun : Runs (plane env id).step (Pool.Next (Current id)) (calling id o ops w) p)
    (hlater : Runs (plane env id).step (Pool.Next (Current id)) p p') {j : ℕ}
    (hj : ops j = .delete id) (hret : p.threads j = .ret (.ok ())) :
    (∀ d, p'.shared.world.deps.get id = some d → d.deletionTimestamp ≠ none) ∧
    (∀ v ∈ p'.shared.world.workloads.rows, v.deploymentID = id → v.id ∈ p.shared.known) ∧
    (p.shared.world.deps.get id = none → p'.shared.world.deps.get id = none) := by
  obtain ⟨view, ⟨hsound, -⟩, hfollow⟩ := abide_run (s := Shared.init id w)
    ⟨fun _ => {}, ⟨Shared.sound_init, .refl⟩, fun i => (ops i).follows (l := {}) rfl⟩ hrun
  obtain ⟨view', ⟨hsound', hirr⟩, -⟩ := abide_run (s := p.shared)
    ⟨view, ⟨hsound, .refl⟩, hfollow⟩ hlater
  have hdone := hfollow j
  rw [hret] at hdone
  obtain ⟨hdel', hknown, hgone⟩ := hirr ((hsound.knows j).marked (hdone hj rfl))
  have hp' := hsound'.valid
  refine ⟨?_, ?_, ?_⟩
  · intro d hd hnone
    have hmark : p'.shared.mark id = some d.isMarked := by
      rw [Shared.mark, hd]
      rfl
    have h := hp'.mark _ hmark
    rw [hdel', Deployment.isMarked, hnone] at h
    cases h
  · intro v hv hdep
    exact hknown (hp'.workloads v hv hdep)
  · intro hnone
    have hmark : p'.shared.mark id = none := hgone (by rw [Shared.mark, hnone]; rfl)
    exact Option.map_eq_none_iff.mp hmark

/-- Thread `j` has returned without an error. -/
def succeeded (p : Pool Call.Res Err Unit Shared) (j : ℕ) : Bool :=
  match p.threads j with
  | .ret (.ok _) => true
  | _ => false

lemma threads_of_succeeded {p : Pool Call.Res Err Unit Shared} {j : ℕ}
    (h : succeeded p j = true) : p.threads j = .ret (.ok ()) := by
  unfold succeeded at h
  split at h
  · assumption
  · cases h

/-- One replica of a deployment runs. -/
def servingWorld : World :=
  (after (Sys.step steadyEnv plainConfig) (servingRun (rollingSpec "a" 1 0 0)) Sys.init).world

/-- The deployment is deleted while its replica is reported as terminated and a controller
pass runs. -/
def deletingOps : ℕ → Op
  | 0 => .delete servingID
  | 1 => .report (steadyEnv.workloadID 8) .terminated ""
  | _ => .reconcileAll

/-- The calls after the given steps of the threads. -/
def deletingRun (schedule : List ℕ) : Pool Call.Res Err Unit Shared :=
  after (plane steadyEnv servingID).step schedule
    (calling servingID plainConfig deletingOps servingWorld)

/-- The deletion is accepted, then the controller pass runs, then the report comes in. -/
theorem deletion_irrevocable_serving :
    let p := deletingRun (List.replicate 5 0)
    let p' := after (plane steadyEnv servingID).step
      (List.replicate 60 2 ++ List.replicate 15 1) p
    succeeded p 0 = true ∧ succeeded p' 1 = true ∧
      ∀ d, p'.shared.world.deps.get servingID = some d → d.deletionTimestamp ≠ none := by
  intro p p'
  have hrun : Runs (plane steadyEnv servingID).step (Pool.Next (Current servingID))
      (calling servingID plainConfig deletingOps servingWorld) p :=
    Runs.of_list _ (by decide +kernel)
  have hlater : Runs (plane steadyEnv servingID).step (Pool.Next (Current servingID)) p p' :=
    Runs.of_list _ (by decide +kernel)
  have hret : succeeded p 0 = true := by decide +kernel
  exact ⟨hret, by decide +kernel,
    (deletion_irrevocable hrun hlater (j := 0) rfl (threads_of_succeeded hret)).1⟩

/-- The report reads the record, the deletion is accepted, and the report writes its copy
back: the record is stored without a deletion timestamp. -/
theorem deletion_undone :
    let p := deletingRun (List.replicate 5 1 ++ List.replicate 5 0)
    let p' := after (plane steadyEnv servingID).step (List.replicate 10 1) p
    succeeded p 0 = true ∧ p.shared.mark servingID = some true ∧
      (p'.shared.world.deps.get servingID).any (fun d => d.deletionTimestamp = none) = true := by
  decide +kernel

end Orchestrator
