/-
# Delivery and reports of failure

The loop of a worker among the calls that the control plane makes for everyone else: each
store call is a step, and between two calls of the worker anything may be stored.  The
worker polls its queue and then, in `ReconcileRuntime`, reports as failed what the control
plane lists for the node and the runtime does not have.  A create assignment that is still
in the queue is such a case: when more are waiting than one poll takes, when one is enqueued
between the poll and the listing, or when the listing falls between the write of a workload
and that of its assignment.  Otherwise no workload is reported before it was delivered.
-/
import Orchestrator.Logic.Frames
import Orchestrator.System

namespace Orchestrator

open Lib

variable {id : String} {c : Call} {ids : List String}

/-! ### The loop, call by call -/

/-- Where the worker is in its loop, with the rest of the function it is in.  The flags are
histories: whether the queue has been polled, and the workloads that were stored when they
were listed. -/
inductive Stage
  | idle
  | processing (polled : Bool) (p : M Runner)
  | reconciling (listed : Option (List String)) (p : M (List String))

structure LoopSys where
  world : World
  runner : Runner
  stage : Stage

def LoopSys.start (nodeID : String) (w₀ : World) : LoopSys where
  world := w₀
  runner := { nodeID := nodeID }
  stage := .idle

/-- What happens: a store call for someone else, a call of `ProcessAssignments` or of
`ReconcileRuntime` by the loop of the worker, or the next store call made for the worker. -/
inductive LoopEvent
  | others (c : Call)
  | process (max : ℤ) (retries : ℕ) (rt : ℕ → RuntimeOutcome)
  | reconcile (rt : RuntimeDrift)
  | work

/-- The call takes assignments out of the queue. -/
def Call.polls : Call → Bool
  | .popAssignments _ _ => true
  | _ => false

/-- The workloads that a listing of all workloads sees. -/
def Call.listing (w : World) : Call → Option (List String)
  | .list .workload _ => some (w.workloads.rows.map Workload.id)
  | _ => none

def LoopSys.step (env : Env) (e : LoopEvent) (s : LoopSys) : LoopSys :=
  match e, s.stage with
  | .others c, _ => { s with world := (exec env c s.world).2 }
  | .process max retries rt, .idle =>
    { s with stage := .processing false (s.runner.processAssignments max retries rt) }
  | .work, .processing polled (.call c k) =>
    { s with
      world := (exec env c s.world).2
      stage := .processing (polled || c.polls) (k (exec env c s.world).1) }
  -- an error of `ProcessAssignments` is logged, and `ReconcileRuntime` is called all the same
  | .reconcile rt, .processing _ (.ret (.ok r)) =>
    { s with runner := r, stage := .reconciling none (r.reconcileRuntime rt) }
  | .reconcile rt, .processing _ (.ret (.error _)) =>
    { s with stage := .reconciling none (s.runner.reconcileRuntime rt) }
  | .work, .reconciling listed (.call c k) =>
    { s with
      world := (exec env c s.world).2
      stage := .reconciling ((c.listing s.world).or listed) (k (exec env c s.world).1) }
  | .work, .reconciling _ (.ret _) => { s with stage := .idle }
  | _, _ => s

/-! ### The claim on a state -/

/-- A create assignment of the workload waits in the queue of the worker's node. -/
def LoopSys.Queued (s : LoopSys) (id : String) : Prop :=
  ∃ a ∈ s.world.queue.rows, a.nodeID = s.runner.nodeID ∧ a.workloadID = id ∧ a.creates = true

/-- The workload that `ReconcileRuntime` is reporting as failed: the one that its next call
looks up, or stores the status of. -/
def Stage.failing : Stage → Option String
  | .reconciling _ (.call (.get .workload id) _) => some id
  | .reconciling _ (.call (.put .workload v) _) => if v.status = .failed then some v.id else none
  | _ => none

def LoopSys.Failing (s : LoopSys) (id : String) : Prop := s.stage.failing = some id

/-- The assignments that wait for a node. -/
def World.waiting (w : World) (nodeID : String) : List Assignment :=
  w.queue.rows.filter fun a => hasPrefix (Tbl.key .assignment a) (keyAssignmentPrefix nodeID)

/-- A create assignment of the workload may be enqueued: not between the poll and the
listing, and after the listing not for a workload that was listed. -/
def Stage.admits (id : String) : Stage → Bool
  | .idle | .processing false _ => true
  | .processing true _ | .reconciling none _ => false
  | .reconciling (some listed) _ => decide (id ∉ listed)

/-- The poll that is about to be made. -/
def Stage.polling : Stage → Option (String × ℕ)
  | .processing _ (.call (.popAssignments nodeID max) _) => some (nodeID, max)
  | _ => none

/-- A poll takes everything that waits, and create assignments for the node are enqueued only
when they may be. -/
def LoopEvent.Timely (e : LoopEvent) (s : LoopSys) : Prop :=
  match e with
  | .others (.put .assignment a) => a.nodeID = s.runner.nodeID → a.creates = true →
      s.stage.admits a.workloadID = true
  | .work => ∀ x ∈ s.stage.polling, (s.world.waiting x.1).length ≤ x.2
  | _ => True

variable {env : Env} {s : LoopSys} {w : World}

/-! ### The queue -/

lemma hasPrefix_keyAssignment (a : Assignment) :
    hasPrefix (Tbl.key .assignment a) (keyAssignmentPrefix a.nodeID) = true := by
  change hasPrefix (keyAssignmentPrefix a.nodeID ++ a.id) _ = true
  rw [hasPrefix, List.isPrefixOf_iff_prefix, String.toList_append]
  exact List.prefix_append _ _

variable {stage : Stage}

/-- A call that does not write to the queue leaves it as it is. -/
lemma LoopSys.Queued.of_spares (hc : c.writes .assignment = false)
    (h : LoopSys.Queued ⟨(exec env c s.world).2, s.runner, stage⟩ id) :
    s.Queued id := by
  obtain ⟨a, ha, hrest⟩ := h
  refine ⟨a, ?_, hrest⟩
  have hqueue : (exec env c s.world).2.queue = s.world.queue := exec_writes env hc s.world
  rw [← hqueue]
  exact ha

/-- What waits after a call of someone else waited before, or has just been enqueued. -/
lemma LoopSys.Queued.of_call
    (h : LoopSys.Queued ⟨(exec env c s.world).2, s.runner, stage⟩ id) :
    s.Queued id ∨ ∃ a, c = .put .assignment a ∧ a.nodeID = s.runner.nodeID ∧
      a.workloadID = id ∧ a.creates = true := by
  obtain ⟨a, ha, hrest⟩ := h
  rcases exec_mem (t := .assignment) nofun ha with ha | ⟨u, hc, hu⟩
  · exact .inl ⟨a, ha, hrest⟩
  · obtain rfl : a = u := hu
    exact .inr ⟨a, hc, hrest⟩

/-- A poll that takes everything leaves nothing for the node. -/
lemma LoopSys.not_queued_of_poll {max : ℕ}
    (hmax : (s.world.waiting s.runner.nodeID).length ≤ max) :
    ¬ LoopSys.Queued ⟨(exec env (.popAssignments s.runner.nodeID max) s.world).2, s.runner, stage⟩
      id := by
  rintro ⟨a, ha, hnode, -⟩
  have hqueue : (exec env (.popAssignments s.runner.nodeID max) s.world).2.queue =
      s.world.queue.delWhere fun a => decide (a ∈ s.world.store.popped s.runner.nodeID max) :=
    Store.set_self s.world.store .assignment _
  have hpopped : s.world.store.popped s.runner.nodeID max = s.world.waiting s.runner.nodeID :=
    List.take_of_length_le hmax
  change a ∈ (exec env (.popAssignments s.runner.nodeID max) s.world).2.queue.rows at ha
  rw [hqueue, Table.mem_rows_delWhere, hpopped] at ha
  refine of_decide_eq_false ha.2 (List.mem_filter.mpr ⟨ha.1, ?_⟩)
  have hnode' : a.nodeID = s.runner.nodeID := hnode
  rw [← hnode']
  exact hasPrefix_keyAssignment a

/-! ### The rest of the functions -/

/-- An answer that the store can give. -/
def Call.Answers : (c : Call) → c.Res → Prop
  | .get .workload id, r => ∀ v, r = some v → v.id = id
  | _, _ => True

lemma exec_answers (env : Env) (c : Call) (w : World) : c.Answers (exec env c w).1 := by
  cases c with
  | get t k =>
    cases t with
    | workload => exact fun v hv => Table.key_of_get hv
    | _ => trivial
  | _ => trivial

/-- The call is about one of the workloads, if about any, and does not write to the queue. -/
structure Call.Stays (ids : List String) (c : Call) : Prop where
  looked : ∀ id, c = .get .workload id → id ∈ ids
  stored : ∀ v, c = .put .workload v → v.id ∈ ids
  spares : c.writes .assignment = false
  listing : ∀ w, c.listing w = none

/-- The program makes such calls only, on answers that the store can give. -/
def Stays {α : Type} (ids : List String) : M α → Prop
  | .ret _ => True
  | .call c k => c.Stays ids ∧ ∀ a, c.Answers a → Stays ids (k a)

lemma Stays.bind {α β : Type} {p : M α} {f : α → M β} (hp : Stays ids p)
    (hf : ∀ a, Stays ids (f a)) : Stays ids (p >>= f) := by
  induction p with
  | ret r =>
    cases r with
    | ok a => exact hf a
    | error e => trivial
  | call c k ih => exact ⟨hp.1, fun a ha => ih a (hp.2 a ha)⟩

lemma Stays.forEach {β : Type} {l : List β} {f : β → M Unit}
    (hf : ∀ x ∈ l, Stays ids (f x)) : Stays ids (Prog.forEach l f) := by
  induction l with
  | nil => trivial
  | cons x xs ih =>
    exact (hf x List.mem_cons_self).bind fun _ => ih fun y hy => hf y (List.mem_cons_of_mem _ hy)

lemma stays_report (h : id ∈ ids) :
    Stays ids (Runner.report id .failed "") := by
  have hget : Call.Stays ids (.get .workload id) := by
    refine ⟨?_, nofun, rfl, fun _ => rfl⟩
    rintro _ ⟨⟩
    exact h
  refine ⟨hget, fun a ha => ?_⟩
  cases a with
  | none => trivial
  | some u =>
    have hput : ∀ now,
      Call.Stays ids (.put .workload { u.reported .failed "" with updatedAt := now }) := by
      intro now
      refine ⟨nofun, ?_, rfl, fun _ => rfl⟩
      rintro _ ⟨⟩
      exact (ha u rfl).symm ▸ h
    exact ⟨⟨nofun, nofun, rfl, fun _ => rfl⟩, fun now _ => ⟨hput now, fun _ _ => trivial⟩⟩

/-- What is left of `ReconcileRuntime` after the listing. -/
lemma stays_reports (r : Runner) (rt : RuntimeDrift) (rows : List Workload) :
    Stays (rows.map Workload.id) (do
      let desired ← (pure (rows.filter (Workload.desiredOn r.nodeID)) : M (List Workload))
      match rt.actual with
      | .error e => Prog.fail e
      | .ok actual =>
        Prog.forEach (rt.order (missing desired actual)) fun id => Runner.report id .failed ""
        pure (orphans desired actual)) := by
  change Stays _ (match rt.actual with
    | .error e => Prog.fail e
    | .ok actual => _)
  split
  · trivial
  · refine Stays.bind (.forEach fun id hid => stays_report ?_) fun _ => trivial
    have hmiss := (List.mem_filter.mp ((rt.order_perm _).mem_iff.mp hid)).1
    obtain ⟨v, hv, rfl⟩ := List.mem_map.mp hmiss
    exact List.mem_map_of_mem (List.mem_filter.mp hv).1

/-- What is left of `ProcessAssignments` after the poll. -/
lemma drain_only (retries : ℕ) (rt : ℕ → RuntimeOutcome) (n : ℕ) (r : Runner) :
    (Runner.processAssignments.drain retries rt n r).Only (fun c => c.writes .assignment = false)
      fun res => ∀ r', res = .ok r' → r'.nodeID = r.nodeID := by
  have hreport : ∀ id status containerID, Spares .assignment
      (Runner.report id status containerID) := fun id status containerID =>
    WritesIn.spares (.ignore (reportWorkloadStatus_writesIn id status containerID)) (by decide)
  have hhandle : ∀ (r : Runner) rt a, (r.handle retries rt a).Only
      (fun c => c.writes .assignment = false)
      fun res => ∀ r', res = .ok r' → r'.nodeID = r.nodeID := by
    intro r rt a
    rw [handle_eq]
    split
    · refine (hreport _ _ _).bind (fun _ _ => ?_) fun _ _ => nofun
      rintro r' ⟨⟩
      rfl
    · rintro r' ⟨⟩
      rfl
  induction n generalizing r with
  | zero =>
    rintro r' ⟨⟩
    rfl
  | succ n ih =>
    have hwork : (r.work retries (rt n)).Only (fun c => c.writes .assignment = false)
        fun res => ∀ r', res = .ok r' → r'.nodeID = r.nodeID := by
      unfold Runner.work
      split
      · rintro r' ⟨⟩
        rfl
      · exact hhandle _ _ _
    refine hwork.bind (fun r₁ hr₁ => ?_) fun e _ => nofun
    refine (ih r₁).mono fun res hres r' hr' => ?_
    rw [hres r' hr', hr₁ r₁ rfl]

/-! ### The invariant -/

/-- Between the poll and the listing nothing waits for the node, and after the listing
nothing for a workload that may be reported. -/
def LoopSys.Sound (s : LoopSys) : Prop :=
  match s.stage with
  | .idle => True
  | .processing false p => ∃ max retries rt, p = s.runner.processAssignments max retries rt
  | .processing true p => (∀ id, ¬ s.Queued id) ∧
      p.Only (fun c => c.writes .assignment = false) fun res =>
        ∀ r', res = .ok r' → r'.nodeID = s.runner.nodeID
  | .reconciling none p => (∀ id, ¬ s.Queued id) ∧ ∃ rt, p = s.runner.reconcileRuntime rt
  | .reconciling (some listed) p => (∀ id ∈ listed, ¬ s.Queued id) ∧ Stays listed p

/-- The workload that is being reported is one of those that the program may be about. -/
lemma Stage.failing_mem {listed : Option (List String)}
    {p : M (List String)} (hf : (Stage.reconciling listed p).failing = some id)
    (hp : Stays ids p) : id ∈ ids := by
  unfold Stage.failing at hf
  split at hf
  · rename_i hstage
    cases hstage
    cases hf
    exact hp.1.looked _ rfl
  · rename_i hstage
    cases hstage
    split at hf
    · cases hf
      exact hp.1.stored _ rfl
    · cases hf
  · cases hf

lemma LoopSys.Sound.not_queued (h : s.Sound) (hf : s.Failing id) :
    ¬ s.Queued id := by
  obtain ⟨w, r, stage⟩ := s
  rcases stage with _ | ⟨polled, p⟩ | ⟨_ | listed, p⟩
  · cases hf
  · cases hf
  · exact h.1 id
  · exact h.1 id (Stage.failing_mem hf h.2)

/-- A call of someone else enqueues only what may be enqueued. -/
lemma LoopSys.Queued.of_timely (hok : (LoopEvent.others c).Timely s)
    (hid : s.stage.admits id = false)
    (h : LoopSys.Queued ⟨(exec env c s.world).2, s.runner, s.stage⟩ id) : s.Queued id := by
  rcases h.of_call with h | ⟨a, rfl, hnode, rfl, hcreates⟩
  · exact h
  · have hadmits : s.stage.admits a.workloadID = true := hok hnode hcreates
    rw [hid] at hadmits
    cases hadmits

lemma LoopSys.Sound.others (h : s.Sound) (hok : (LoopEvent.others c).Timely s) :
    (s.step env (.others c)).Sound := by
  obtain ⟨w, r, stage⟩ := s
  have hold : ∀ id, stage.admits id = false →
      LoopSys.Queued ⟨(exec env c w).2, r, stage⟩ id → LoopSys.Queued ⟨w, r, stage⟩ id :=
    fun id hid => LoopSys.Queued.of_timely (s := ⟨w, r, stage⟩) hok hid
  change LoopSys.Sound ⟨(exec env c w).2, r, stage⟩
  rcases stage with _ | ⟨_ | _, p⟩ | ⟨_ | listed, p⟩
  · trivial
  · exact h
  · exact ⟨fun id hq => h.1 id (hold id rfl hq), h.2⟩
  · exact ⟨fun id hq => h.1 id (hold id rfl hq), h.2⟩
  · refine ⟨fun id hid hq => h.1 id hid (hold id ?_ hq), h.2⟩
    simpa [Stage.admits] using hid

lemma LoopSys.Sound.work (h : s.Sound) (hok : LoopEvent.work.Timely s) :
    (s.step env .work).Sound := by
  obtain ⟨w, r, stage⟩ := s
  rcases stage with _ | ⟨polled, res | ⟨c, k⟩⟩ | ⟨listed, res | ⟨c, k⟩⟩
  · trivial
  · exact h
  · change LoopSys.Sound ⟨(exec env c w).2, r, .processing (polled || c.polls) (k (exec env c w).1)⟩
    cases polled with
    | false =>
      -- the first call of `ProcessAssignments` is the poll
      obtain ⟨max, retries, rt, hp⟩ := h
      change Prog.call c k = r.processAssignments max retries rt at hp
      cases hp
      have hlen : (w.waiting r.nodeID).length ≤ (if max ≤ 0 then 10 else max).toNat :=
        hok (r.nodeID, _) rfl
      refine ⟨fun id => ?_, drain_only retries rt _ _⟩
      exact LoopSys.not_queued_of_poll (s := ⟨w, r, .idle⟩) hlen
    | true => exact ⟨fun id hq => h.1 id (.of_spares h.2.1 hq), h.2.2 _⟩
  · trivial
  · change LoopSys.Sound ⟨(exec env c w).2, r,
      .reconciling ((c.listing w).or listed) (k (exec env c w).1)⟩
    cases listed with
    | none =>
      -- the first call of `ReconcileRuntime` is the listing
      obtain ⟨hnone, rt, hp⟩ := h
      change Prog.call c k = r.reconcileRuntime rt at hp
      cases hp
      refine ⟨fun id _ hq => hnone id (.of_spares rfl hq), ?_⟩
      exact stays_reports r rt w.workloads.rows
    | some listed =>
      obtain ⟨hnone, hc, hk⟩ := h
      rw [hc.listing w]
      exact ⟨fun id hid hq => hnone id hid (.of_spares hc.spares hq), hk _ (exec_answers env c w)⟩

lemma LoopSys.Sound.reconcile {rt : RuntimeDrift} (h : s.Sound) :
    (s.step env (.reconcile rt)).Sound := by
  obtain ⟨w, r, stage⟩ := s
  rcases stage with _ | ⟨_ | _, res | ⟨c, k⟩⟩ | ⟨listed, p⟩
  · trivial
  · obtain ⟨max, retries, rt, hp⟩ := h
    cases hp
  · exact h
  · -- the runner that `ProcessAssignments` returns is the one of the same node
    obtain ⟨hnone, hres⟩ := h
    cases res with
    | ok r' =>
      refine ⟨fun id hq => hnone id ?_, rt, rfl⟩
      obtain ⟨a, ha, hnode, hrest⟩ := hq
      exact ⟨a, ha, hnode.trans (hres r' rfl), hrest⟩
    | error e => exact ⟨hnone, rt, rfl⟩
  · exact h
  · exact h

lemma LoopSys.Sound.process {max : ℤ} {retries : ℕ} {rt : ℕ → RuntimeOutcome} (h : s.Sound) :
    (s.step env (.process max retries rt)).Sound := by
  obtain ⟨w, r, stage⟩ := s
  rcases stage with _ | ⟨polled, p⟩ | ⟨listed, p⟩
  · exact ⟨max, retries, rt, rfl⟩
  · exact h
  · exact h

/-- **No false failure of undelivered work**: in every run whose polls take everything that
waits and whose create assignments come when they may, `ReconcileRuntime` never reports a
workload as failed whose create assignment is still in the queue. -/
theorem undelivered_never_failed (env : Env) (nodeID : String) (w₀ : World)
    (h : Runs (LoopSys.step env) LoopEvent.Timely (LoopSys.start nodeID w₀) s) (id : String)
    (hid : s.Failing id) : ¬ s.Queued id := by
  have hsound : s.Sound := by
    refine h.invariant (I := LoopSys.Sound) trivial ?_
    intro e s hs hok
    cases e with
    | others c => exact hs.others hok
    | process max retries rt => exact hs.process
    | reconcile rt => exact hs.reconcile
    | work => exact hs.work hok
  exact hsound.not_queued hid

/-! ### Six replicas, five at a time -/

instance LoopSys.decidableQueued (s : LoopSys) (id : String) : Decidable (s.Queued id) :=
  inferInstanceAs (Decidable (∃ a ∈ s.world.queue.rows, _))

instance LoopSys.decidableFailing (s : LoopSys) (id : String) : Decidable (s.Failing id) :=
  inferInstanceAs (Decidable (_ = _))

instance LoopEvent.decidableTimely (e : LoopEvent) (s : LoopSys) : Decidable (e.Timely s) := by
  unfold LoopEvent.Timely
  split
  · infer_instance
  · infer_instance
  · infer_instance

/-- A store with a ready node. -/
def readyWorld : World :=
  { store := Store.empty.put .node { smallNode with status := .ready }, tick := 0 }

/-- The store calls of the creation of a deployment. -/
def creationCalls (replicas : Int64) : List LoopEvent :=
  ((createDeployment plainConfig { webSpec with replicas := replicas, resources := ⟨100, 100⟩ }).calls
    (exec steadyEnv) readyWorld).map fun x => .others x.1

/-- One round of the loop, up to the call after the listing; everything that was polled runs,
with three store calls for each report. -/
def oneRound (polled : ℕ) (running : List String) : List LoopEvent :=
  [.process 5 3 fun _ => willingRuntime] ++ List.replicate (1 + 3 * polled) .work ++
    [.reconcile { actual := .ok (running.map fun id => (id, "c1")) }, .work]

/-- Both replicas were delivered, and the container of the second has gone. -/
theorem undelivered_never_failed_crash :
    let s := after (LoopSys.step steadyEnv)
      (creationCalls 2 ++ oneRound 2 [steadyEnv.workloadID 6]) (.start "n1" readyWorld)
    s.Failing (steadyEnv.workloadID 14) ∧ ¬ s.Queued (steadyEnv.workloadID 14) := by
  have hfailing : (after (LoopSys.step steadyEnv)
      (creationCalls 2 ++ oneRound 2 [steadyEnv.workloadID 6])
      (.start "n1" readyWorld)).Failing (steadyEnv.workloadID 14) := by decide +kernel
  exact ⟨hfailing, undelivered_never_failed steadyEnv "n1" readyWorld
    (.of_list _ (by decide +kernel)) _ hfailing⟩

/-- Six replicas were created, and a poll takes five.  The sixth is reported as failed while
its assignment waits. -/
theorem waiting_reported_failed :
    let s := after (LoopSys.step steadyEnv)
      (creationCalls 6 ++ oneRound 5 ([6, 14, 21, 28, 35].map steadyEnv.workloadID))
      (.start "n1" readyWorld)
    s.Failing (steadyEnv.workloadID 42) ∧ s.Queued (steadyEnv.workloadID 42) := by
  decide +kernel

end Orchestrator
