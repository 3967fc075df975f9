/-
# What the workers cause

Registration, heartbeats, polls and status reports as relations between the tables before
and after: the record a registration writes (`Registered`), the count a heartbeat writes
(`Beat`), the status a report writes (`Restated`), and the reservation that a termination
gives back (`Released`).
-/
import Orchestrator.Logic.Operations

namespace Orchestrator

open Lib

variable {env : Env} {S : Resource → Prop} {R : String → Prop} {o : Config} {w w' : World}
  {status : WorkloadStatus} {u : Workload}

/-! ### Registration and heartbeats -/

/-- A node was registered. -/
def Registered (node : Node) (w w' : World) : Prop :=
  ∃ health seen, Eff w w'
    (w.nodes.put { node.withDefaults with health := health, lastSeen := seen })
    w.deps w.workloads w.queue

lemma registerNode_holds (node : Node) :
    Holds env (planeRules S R) (registerNode o node) w fun _ w' =>
      w' = w ∨ ∃ w₁, Registered node w w₁ ∧ Chain env S w₁ w' := by
  unfold registerNode
  split
  · exact Or.inl rfl
  refine stamp_bind fun t₁ w₁ q₁ => stamp_bind fun t₂ w₂ q₂ => ?_
  have hq : Quiet w w₂ := q₁.trans q₂
  refine (upsertNode_returns _ w₂).bind ?_
  rintro _ w₃ ⟨seen, he⟩
  rw [hq.nodes, hq.deps, hq.workloads, hq.queue] at he
  refine (Steers.ignore steers_rebalanceWorkloads).mono ?_
  intro _ w₄ hc
  exact Or.inr ⟨w₃, ⟨_, seen, hq.eff he⟩, hc⟩

/-- A heartbeat of a stored node arrived. -/
def Beat (nodeID : String) (used : Resource) (w w' : World) : Prop :=
  ∃ n health seen, w.nodes.get nodeID = some n ∧ Eff w w'
    (w.nodes.put { n with used := used, status := .ready, health := health, lastSeen := seen })
    w.deps w.workloads w.queue

lemma heartbeatNode_holds (nodeID : String) (used : Resource) :
    Holds env (planeRules S R) (heartbeatNode nodeID used) w fun _ w' =>
      w' = w ∨ Beat nodeID used w w' := by
  refine find_bind ?_ fun _ => Or.inl rfl
  intro n hn
  refine stamp_bind fun t₁ w₁ q₁ => stamp_bind fun t₂ w₂ q₂ => ?_
  have hq : Quiet w w₂ := q₁.trans q₂
  refine Prog.Sat.mono (upsertNode_returns _ w₂) ?_
  rintro _ w₃ ⟨_, -, seen, he⟩
  rw [hq.nodes, hq.deps, hq.workloads, hq.queue] at he
  exact Or.inr ⟨n, _, seen, hn, hq.eff he⟩

/-! ### Reports -/

/-- A stored workload got the status of a report. -/
def Restated (u : Workload) (status : WorkloadStatus) (w w' : World) : Prop :=
  u ∈ w.workloads.rows ∧ ∃ containerID now, Eff w w' w.nodes w.deps
    (w.workloads.put { u.reported status containerID with updatedAt := now }) w.queue

/-- The nodes after the reservation of a workload was given back. -/
def nodesAfterRelease (N : Table Node Node.id) (u : Workload) (seen : Time) : Table Node Node.id :=
  match N.get u.nodeID with
  | some n => N.put { n with used := n.used.release u.resources, lastSeen := seen }
  | none => N

/-- A stored workload was removed and its reservation given back. -/
def Released (u : Workload) (w w' : World) : Prop :=
  u ∈ w.workloads.rows ∧ ∃ seen, Eff w w' (nodesAfterRelease w.nodes u seen) w.deps
    (w.workloads.del u.id) w.queue

/-- The deployment part of a termination report: at most the status of a record is new. -/
def Settled (w w' : World) : Prop := w' = w ∨ ∃ d ∈ w.deps.rows, WroteBack d.core w w'

lemma Settled.workloads (h : Settled w w') : w'.workloads = w.workloads := by
  rcases h with rfl | ⟨d, -, d', -, he⟩
  · rfl
  · exact he.workloads

lemma Settled.tick_le (h : Settled w w') : w.tick ≤ w'.tick := by
  rcases h with rfl | ⟨d, -, d', -, he⟩
  · exact le_rfl
  · exact he.tick

lemma Settled.chain (h : Settled w w') : Chain env S w w' := by
  rcases h with rfl | ⟨d, hd, d', hd', he⟩
  · exact .refl
  · exact .single (.dep d d' hd (.touch (Or.inl hd')) he)

/-- The outcome of a report on a workload: it gets the status, or, if it is reported as
terminated, it is removed. -/
def Reported (id : String) (status : WorkloadStatus) (w w' : World) : Prop :=
  (w.workloads.get id = none ∧ w' = w) ∨
  ∃ u, w.workloads.get id = some u ∧
    ((status ≠ .terminated ∧ Restated u status w w') ∨
      (status = .terminated ∧ ∃ w₁, Released u w w₁ ∧ Settled w₁ w'))

/-- A report leaves the deployments as they are, up to the status of one. -/
lemma Reported.deps {id : String} (h : Reported id status w w') :
    w'.deps = w.deps ∨
      ∃ d d', d ∈ w.deps.rows ∧ d'.core = d.core.viaJSON ∧ w'.deps = w.deps.put d' := by
  rcases h with ⟨-, rfl⟩ | ⟨u, -, ⟨-, -, _, _, he⟩ | ⟨-, w₁, ⟨-, _, he⟩, hs⟩⟩
  · exact .inl rfl
  · exact .inl he.deps
  · rcases hs with rfl | ⟨d, hd, d', hd', he'⟩
    · exact .inl he.deps
    · rw [he.deps] at hd he'
      exact .inr ⟨d, d', hd, hd', he'.deps⟩

lemma releaseReservation_returns (u : Workload) :
    Returns env (planeRules S R) (releaseReservation u) w fun _ w' => ∃ seen,
      Eff w w' (nodesAfterRelease w.nodes u seen) w.deps w.workloads w.queue := by
  refine find_attempt_bind ?_ ?_
  · intro n hn
    have hn' : w.nodes.get u.nodeID = some n := hn
    refine Prog.Sat.ignore (Prog.Sat.mono (upsertNode_returns _ w) ?_)
    rintro _ w' ⟨_, -, seen, he⟩
    refine ⟨(), rfl, seen, ?_⟩
    rw [nodesAfterRelease, hn']
    exact he
  · intro hn
    have hn' : w.nodes.get u.nodeID = none := hn
    refine returns_pure ⟨0, ?_⟩
    rw [nodesAfterRelease, hn']
    exact Quiet.refl w

lemma keepsCore_settledStatus (d : Deployment) (workloads : List Workload) :
    KeepsCore d.core (settledStatus d workloads) :=
  .timeNow fun _ => .timeNow fun _ => .bind (keepsCore_markStable rfl) fun _ h =>
    .timeNow fun _ => .pure h

lemma settleDeployment_holds (id : String) :
    Holds env (planeRules S R) (settleDeployment id) w fun _ w' => Settled w w' := by
  refine find_attempt_bind ?_ fun _ => Or.inl rfl
  intro d hd
  have hmem : d ∈ w.deps.rows := Table.mem_of_get hd
  refine deployed_bind ?_
  split
  · refine (Drafts.returns (keepsCore_settledStatus d _) w).bind ?_
    rintro d' w₁ ⟨hcore, hq⟩
    refine Prog.Sat.ignore (Prog.Sat.mono (updateDeployment_returns _ w₁) ?_)
    rintro _ w₂ ⟨_, -, he⟩
    rw [hq.nodes, hq.deps, hq.workloads, hq.queue] at he
    refine Or.inr ⟨d, hmem, _, ?_, hq.eff he⟩
    rw [core_viaJSON, hcore]
  · exact Or.inl rfl

/-- **A report** gives the workload the status it names, or, if it says `Terminated`, removes
the workload and gives its reservation back. -/
lemma reportWorkloadStatus_holds (id : String) (status : WorkloadStatus) (containerID : String)
    (hR : status = .terminated → R id) :
    Holds env (planeRules S R) (reportWorkloadStatus id status containerID) w fun _ w' =>
      Reported id status w w' := by
  refine find_attempt_bind ?_ fun h => Or.inl ⟨h, rfl⟩
  intro u hu
  have hmem : u ∈ w.workloads.rows := Table.mem_of_get hu
  have hid : u.id = id := Table.key_of_get hu
  dsimp only
  split
  · next hst =>
    refine Returns.bind (releaseReservation_returns u) ?_
    rintro _ w₁ ⟨seen, he⟩
    have hrem : (planeRules S R).removes u.id w₁ := Or.inl (by rw [hid]; exact hR hst)
    refine Returns.bind (deleteWorkload_returns hrem) ?_
    intro _ w₂ he'
    rw [he.nodes, he.deps, he.workloads, he.queue] at he'
    refine (settleDeployment_holds _).mono ?_
    intro _ w₃ hs
    exact Or.inr ⟨u, hu, Or.inr ⟨hst, w₂, ⟨hmem, seen, he.trans he'⟩, hs⟩⟩
  · next hst =>
    refine Prog.Sat.mono (restatusWorkload_returns hmem ?_ ?_ ?_) ?_
    · rfl
    · rfl
    · exact hst
    · rintro _ w₁ ⟨_, -, now, he⟩
      exact Or.inr ⟨u, hu, Or.inl ⟨hst, hmem, containerID, now, he⟩⟩

lemma reported_final (env : Env) (id : String) (status : WorkloadStatus) (containerID : String)
    (w : World) :
    Reported id status w ((reportWorkloadStatus id status containerID).final (exec env) w) := by
  have hrun : Holds env (planeRules (fun _ => True) fun _ => True)
      (reportWorkloadStatus id status containerID) w _ :=
    reportWorkloadStatus_holds id status containerID fun _ => trivial
  exact hrun.run

lemma Restated.deps (h : Restated u status w w') :
    w'.deps = w.deps := by
  obtain ⟨-, cid, now, he⟩ := h
  exact he.deps

lemma Restated.tick_le (h : Restated u status w w') :
    w.tick ≤ w'.tick := by
  obtain ⟨-, cid, now, he⟩ := h
  exact he.tick

lemma Released.deps (h : Released u w w') : w'.deps = w.deps := by
  obtain ⟨-, seen, he⟩ := h
  exact he.deps

lemma Released.tick_le (h : Released u w w') : w.tick ≤ w'.tick := by
  obtain ⟨-, seen, he⟩ := h
  exact he.tick

/-- The workloads after a report or a termination, up to their statuses. -/
lemma Restated.known (h : Restated u status w w') :
    ∀ v ∈ w'.workloads.rows, ∃ x ∈ w.workloads.rows, x.id = v.id ∧
      x.deploymentID = v.deploymentID := by
  obtain ⟨hu, cid, now, he⟩ := h
  intro v hv
  rw [he.workloads, Table.mem_rows_put] at hv
  rcases hv with rfl | ⟨hv, -⟩
  · exact ⟨u, hu, rfl, rfl⟩
  · exact ⟨v, hv, rfl, rfl⟩

lemma Released.known (h : Released u w w') : ∀ v ∈ w'.workloads.rows,
    ∃ x ∈ w.workloads.rows, x.id = v.id ∧ x.deploymentID = v.deploymentID := by
  obtain ⟨-, seen, he⟩ := h
  intro v hv
  rw [he.workloads, Table.mem_rows_del] at hv
  exact ⟨v, hv.1, rfl, rfl⟩

/-! ### The runner -/

/-- The report that processing an assignment makes. -/
def Runner.verdict (retries : ℕ) (rt : RuntimeOutcome) (a : Assignment) :
    Option (WorkloadStatus × String) :=
  match a.action with
  | .delete => some (if rt.stopped then .terminated else .failed, "")
  | .create | .unset =>
    if a.secretFiles = [] ∨ rt.materialized then
      match runWithBackoff rt.started retries with
      | some containerID => some (.running, containerID)
      | none => some (.failed, "")
    else some (.failed, "")
  | .other _ => none

/-- What becomes of the container of an assignment. -/
inductive Fate
  | started
  | stopped
  | untouched
deriving DecidableEq, Repr

def Assignment.fate (retries : ℕ) (rt : RuntimeOutcome) (a : Assignment) : Fate :=
  match a.action with
  | .delete => if rt.stopped then .stopped else .untouched
  | .create | .unset =>
    if a.secretFiles = [] ∨ rt.materialized then
      if (runWithBackoff rt.started retries).isSome then .started else .untouched
    else .untouched
  | .other _ => .untouched

/-- The counter of the runner after an assignment was processed. -/
def Assignment.count (retries : ℕ) (rt : RuntimeOutcome) (a : Assignment) (used : Resource) :
    Resource :=
  match a.fate retries rt with
  | .started => used.reserve a.resources
  | .stopped => used.release a.resources
  | .untouched => used

/-- Processing an assignment does to the store what its report does, and to the runner what
the fate of the container does to its counter. -/
lemma handle_eq (r : Runner) (retries : ℕ) (rt : RuntimeOutcome) (a : Assignment) :
    r.handle retries rt a =
      match Runner.verdict retries rt a with
      | some (status, containerID) => Runner.report a.workloadID status containerID >>= fun _ =>
          pure { r with used := a.count retries rt r.used }
      | none => pure { r with used := a.count retries rt r.used } := by
  unfold Runner.handle Runner.verdict Assignment.count Assignment.fate
  cases a.action with
  | delete =>
    by_cases hs : rt.stopped = true
    · simp [hs]
    · simp [hs]
  | create | unset =>
    dsimp only
    split
    · cases runWithBackoff rt.started retries with
      | some c => rfl
      | none => rfl
    · rfl
  | other _ => rfl

/-- The rows of the workloads after a report: the one it is about has changed, or is gone. -/
lemma Reported.rows {wid : String} (h : Reported wid status w w') :
    w'.workloads = w.workloads ∨ ∃ u, w.workloads.get wid = some u ∧
      ((status ≠ .terminated ∧ ∃ cid now, w'.workloads.rows = w.workloads.rows.map fun x =>
          if x.id = u.id then { x.reported status cid with updatedAt := now } else x) ∨
        (status = .terminated ∧
          w'.workloads.rows = w.workloads.rows.filter fun x => x.id ≠ u.id)) := by
  rcases h with ⟨-, rfl⟩ | ⟨u, hu, ⟨hst, hmem, cid, now, he⟩ | ⟨hst, w₁, ⟨hmem, seen, he⟩, hs⟩⟩
  · exact Or.inl rfl
  · refine Or.inr ⟨u, hu, Or.inl ⟨hst, cid, now, ?_⟩⟩
    rw [he.workloads]
    exact Table.rows_put_modified (g := fun x => { x.reported status cid with updatedAt := now })
      hmem rfl
  · refine Or.inr ⟨u, hu, Or.inr ⟨hst, ?_⟩⟩
    rw [hs.workloads, he.workloads, Table.del, Table.rows_delWhere]
    simp

end Orchestrator
