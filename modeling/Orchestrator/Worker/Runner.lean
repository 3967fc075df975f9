/-
# The worker

`internal/worker/runner.go`: a runner polls assignments, executes them through the
container runtime, keeps its own count of used resources, and reports to the control plane.
What the runtime does is an oracle; a client call is the program that the control plane
runs for it.
-/
import Orchestrator.Service.Deployments
import Orchestrator.Service.Nodes

namespace Orchestrator

open Lib

/-- What the runtime and the file system do while one assignment is processed. -/
structure RuntimeOutcome where
  /-- `StopWorkload` succeeds. -/
  stopped : Bool
  /-- The secret files can be written. -/
  materialized : Bool
  /-- The container started by the `k`-th attempt of `RunWorkload`. -/
  started : ℕ → Option String

/-- The state of a runner: its node, its count of used resources, and the assignments it
has polled and not processed yet. -/
structure Runner where
  nodeID : String
  used : Resource := {}
  inbox : List Assignment := []

/-- `runWithBackoff`: the first attempt that succeeds, of `retries` many. -/
def runWithBackoff (started : ℕ → Option String) (retries : ℕ) : Option String :=
  (List.range retries).findSome? started

/-- The runner's part of the protocol that `ProcessAssignments` starts with. -/
def Runner.poll (r : Runner) (max : ℤ) : M Runner := do
  let assignments ← pollAssignments r.nodeID max
  pure { r with inbox := r.inbox ++ assignments }

/-- A report whose error is only logged. -/
def Runner.report (workloadID : String) (status : WorkloadStatus) (containerID : String) : M Unit :=
  (reportWorkloadStatus workloadID status containerID).ignore

/-- The loop body of `ProcessAssignments`. -/
def Runner.handle (r : Runner) (retries : ℕ) (rt : RuntimeOutcome) (a : Assignment) : M Runner :=
  match a.action with
  | .delete =>
    if rt.stopped then do
      Runner.report a.workloadID .terminated ""
      pure { r with used := r.used.release a.resources }
    else do
      Runner.report a.workloadID .failed ""
      pure r
  | .create | .unset =>
    if a.secretFiles = [] ∨ rt.materialized then
      match runWithBackoff rt.started retries with
      | some containerID => do
        Runner.report a.workloadID .running containerID
        pure { r with used := r.used.reserve a.resources }
      | none => do
        Runner.report a.workloadID .failed ""
        pure r
    else do
      Runner.report a.workloadID .failed ""
      pure r
  | .other _ => pure r

/-- Process the next polled assignment. -/
def Runner.work (r : Runner) (retries : ℕ) (rt : RuntimeOutcome) : M Runner :=
  match r.inbox with
  | [] => pure r
  | a :: rest => Runner.handle { r with inbox := rest } retries rt a

/-- `ProcessAssignments`: poll, then process everything that was polled. -/
def Runner.processAssignments (r : Runner) (max : ℤ) (retries : ℕ) (rt : ℕ → RuntimeOutcome) :
    M Runner := do
  let r ← r.poll max
  drain r.inbox.length r
where
  drain : ℕ → Runner → M Runner
    | 0, r => pure r
    | n + 1, r => do
      let r ← r.work retries (rt n)
      drain n r

/-- What the runtime does while `ReconcileRuntime` runs. -/
structure RuntimeDrift where
  /-- `ListManagedWorkloads`: the managed workloads with their containers, or an error. -/
  actual : Except Err (List (String × String))
  /-- `StopWorkload` of a workload that is not desired succeeds. -/
  stopped : String → Bool := fun _ => true
  /-- The order in which the desired workloads are gone through, which is that of a map. -/
  order : List String → List String := id
  order_perm : ∀ l, (order l).Perm l := by exact fun l => .refl l

/-- The desired workloads that the runtime does not have. -/
def missing (desired : List Workload) (actual : List (String × String)) : List String :=
  (desired.map Workload.id).filter fun id => decide (id ∉ actual.map Prod.fst)

/-- The managed workloads that are not desired. -/
def orphans (desired : List Workload) (actual : List (String × String)) : List String :=
  (actual.map Prod.fst).filter fun id => decide (id ∉ desired.map Workload.id)

/-- `ReconcileRuntime`.  The value lists the workloads that the runtime is asked to stop. -/
def Runner.reconcileRuntime (r : Runner) (rt : RuntimeDrift) : M (List String) := do
  let desired ← listNodeWorkloads r.nodeID
  match rt.actual with
  | .error e => Prog.fail e
  | .ok actual =>
    Prog.forEach (rt.order (missing desired actual)) fun id => Runner.report id .failed ""
    pure (orphans desired actual)

/-- `Heartbeat`: the runner's own count is sent. -/
def Runner.heartbeat (r : Runner) : M Unit := heartbeatNode r.nodeID r.used

end Orchestrator
