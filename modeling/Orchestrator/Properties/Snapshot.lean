/-
# Is a snapshot one state of the store?

`Snapshot` lists the nodes, the deployments and the workloads in three transactions.  A write
that falls between two of them makes the answer a state that the store never had.  If no step
changes a collection that has been listed already, the answer is the state of the store at the
last listing.
-/
import Orchestrator.Logic.Clients
import Orchestrator.System

namespace Orchestrator

open Lib

/-- The collections of a snapshot, as they are in a store. -/
def Store.clusterState (s : Store) : ClusterState where
  nodes := (s .node).rows
  deployments := (s .deployment).rows
  workloads := (s .workload).rows

namespace Snapshot

/-- What is left of a snapshot that has listed the nodes. -/
def afterNodes (nodes : List Node) : M ClusterState := do
  let deps ← StateStore.listDeployments
  let workloads ← StateStore.listWorkloads
  pure { nodes := nodes, deployments := deps, workloads := workloads }

/-- What is left of a snapshot that has listed the nodes and the deployments. -/
def afterDeployments (nodes : List Node) (deps : List Deployment) : M ClusterState := do
  let workloads ← StateStore.listWorkloads
  pure { nodes := nodes, deployments := deps, workloads := workloads }

/-- The collections that a snapshot has listed, by what is left of it. -/
def listed : M ClusterState → List Tbl
  | .call (.list .deployment _) _ => [.node]
  | .call (.list .workload _) _ => [.node, .deployment]
  | _ => []

/-- Threads over the store.  Those that do not take a snapshot can be any program. -/
abbrev Threads := Pool Call.Res Err ClusterState Commons

/-- The step of thread `i` does not change what the snapshot of thread `j` has listed. -/
def Spared (env : ℕ → Env) (j i : ℕ) (p : Threads) : Prop :=
  ∀ t ∈ listed (p.threads j), ((clients env).step i p).shared.store t = p.shared.store t

variable {env : ℕ → Env} {i j : ℕ} {p q p' : Threads}

/-- How far the snapshot of thread `j` has got in the run from `p` to `q`. -/
inductive Stage (env : ℕ → Env) (j : ℕ) (p q : Threads) : Prop
  | start (h : q.threads j = StateStore.snapshot)
  | nodes (h : q.threads j = afterNodes (q.shared.store .node).rows)
  | deployments (h : q.threads j =
      afterDeployments (q.shared.store .node).rows (q.shared.store .deployment).rows)
  | done (q₀ : Threads) (before : Runs (clients env).step (Spared env j) p q₀)
      (rest : Runs (clients env).step (Spared env j) q₀ q)
      (h : q.threads j = .ret (.ok q₀.shared.store.clusterState))

/-- A step of the thread that takes the snapshot lists the next collection. -/
lemma Stage.own (h : Stage env j p q) (hrun : Runs (clients env).step (Spared env j) p q)
    (hok : Spared env j j q) : Stage env j p ((clients env).step j q) := by
  have hnext := hrun.tail j hok
  have hlist : ∀ {t : Tbl} {k : List t.Val → M ClusterState},
      q.threads j = .call (.list t "") k →
        ((clients env).step j q).threads j = k (q.shared.store t).rows ∧
        ((clients env).step j q).shared.store = q.shared.store := by
    intro t k hcall
    rw [Machine.step, hcall]
    exact ⟨if_pos rfl, rfl⟩
  cases h with
  | start h =>
    obtain ⟨hk, hs⟩ := hlist (t := .node) h
    exact .nodes (by rw [hk, hs]; rfl)
  | nodes h =>
    obtain ⟨hk, hs⟩ := hlist (t := .deployment) h
    exact .deployments (by rw [hk, hs]; rfl)
  | deployments h =>
    obtain ⟨hk, hs⟩ := hlist (t := .workload) h
    exact .done _ hnext .refl (by rw [hk, hs]; rfl)
  | done q₀ before rest h =>
    refine .done q₀ before (rest.tail j hok) ?_
    rw [Machine.step, h]
    exact h

/-- A step of another thread leaves what has been listed. -/
lemma Stage.other (h : Stage env j p q) (hij : j ≠ i) (hok : Spared env j i q) :
    Stage env j p ((clients env).step i q) := by
  have hthread : ((clients env).step i q).threads j = q.threads j := by
    rcases (clients env).step_cases i q with hst | ⟨_, _, _, _, _, _, hothers⟩
    · rw [hst]
    · exact hothers j hij
  cases h with
  | start h => exact .start (hthread.trans h)
  | nodes h =>
    rw [Spared, h] at hok
    refine .nodes ?_
    rw [hthread, h, hok .node List.mem_cons_self]
  | deployments h =>
    rw [Spared, h] at hok
    refine .deployments ?_
    rw [hthread, h, hok .node List.mem_cons_self,
      hok .deployment (List.mem_cons_of_mem _ List.mem_cons_self)]
  | done q₀ before rest h => exact .done q₀ before (rest.tail i hok) (hthread.trans h)

lemma Stage.run (hstart : p.threads j = StateStore.snapshot)
    (hrun : Runs (clients env).step (Spared env j) p q) : Stage env j p q := by
  induction hrun with
  | refl => exact .start hstart
  | tail i hrun hok ih =>
    by_cases hij : j = i
    · subst hij
      exact ih.own hrun hok
    · exact ih.other hij hok

/-- **A snapshot is atomic** in every run whose steps do not change a collection that it has
listed: what it returns are the nodes, the deployments and the workloads of one state between
its start and its end. -/
theorem snapshot_atomic (hstart : p.threads j = StateStore.snapshot)
    (hrun : Runs (clients env).step (Spared env j) p p') {cs : ClusterState}
    (hend : p'.threads j = .ret (.ok cs)) :
    ∃ q, Runs (clients env).step (Spared env j) p q ∧
      Runs (clients env).step (Spared env j) q p' ∧ cs = q.shared.store.clusterState := by
  cases Stage.run hstart hrun with
  | start h => cases hend.symm.trans h
  | nodes h => cases hend.symm.trans h
  | deployments h => cases hend.symm.trans h
  | done q₀ before rest h =>
    rw [hend] at h
    exact ⟨q₀, before, rest, Except.ok.inj (Prog.ret.inj h)⟩

/-- What thread `j` has returned. -/
def answer (p : Threads) (j : ℕ) : Option ClusterState :=
  match p.threads j with
  | .ret (.ok cs) => some cs
  | _ => none

/-- A node with a reservation for the workload `w1`. -/
def reserved : Store :=
  (Store.empty.put .node { smallNode with used := ⟨300, 300⟩, lastSeen := 5 }).put .workload
    { id := "w1", deploymentID := "d1", nodeID := "n1", resources := ⟨300, 300⟩,
      status := .terminating }

/-- A snapshot, and the report that the workload has terminated. -/
def reporting : Threads where
  shared := .start reserved
  threads
    | 0 => StateStore.snapshot
    | 1 => reportWorkloadStatus "w1" .terminated "" >>= fun _ => pure ⟨[], [], []⟩
    | _ => pure ⟨[], [], []⟩

/-- The threads after the given steps. -/
def interleaved (schedule : List ℕ) : Threads :=
  after (clients fun _ => steadyEnv).step schedule reporting

instance Spared.decidable (j i : ℕ) (p : Threads) : Decidable (Spared env j i p) :=
  inferInstanceAs (Decidable (∀ t ∈ listed (p.threads j),
    ((clients env).step i p).shared.store t = p.shared.store t))

/-- The snapshot is taken after the release, and before the workload is deleted. -/
theorem snapshot_atomic_between :
    ∃ q, Runs (clients fun _ => steadyEnv).step (Spared (fun _ => steadyEnv) 0) reporting q ∧
      Runs (clients fun _ => steadyEnv).step (Spared (fun _ => steadyEnv) 0) q
        (interleaved [1, 1, 1, 0, 0, 0, 1]) ∧
      (interleaved [1, 1, 1, 0, 0, 0]).shared.store.clusterState =
        q.shared.store.clusterState := by
  have hrun : Runs (clients fun _ => steadyEnv).step (Spared (fun _ => steadyEnv) 0) reporting
      (interleaved [1, 1, 1, 0, 0, 0, 1]) := .of_list _ (by decide +kernel)
  exact snapshot_atomic rfl hrun rfl

/-- The node is listed before the release, the workloads after the deletion: the answer is none
of the states that the store has had. -/
theorem snapshot_torn :
    (answer (interleaved [0, 1, 1, 1, 1, 0, 0]) 0).isSome = true ∧
      ∀ k ≤ 7, answer (interleaved [0, 1, 1, 1, 1, 0, 0]) 0 ≠
        some (interleaved ([0, 1, 1, 1, 1, 0, 0].take k)).shared.store.clusterState := by
  decide +kernel

end Snapshot

end Orchestrator
