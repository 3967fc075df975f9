/-
# What a runner counts

The counter of a runner against the containers that it has started and not stopped since.
The runner keeps no record of its containers: it adds the request of an assignment when a
container starts, and subtracts that of a deletion, whatever there was to stop.  The counter
is right as long as it deletes what it has started, and starts nothing twice.
-/
import Orchestrator.Logic.Booking
import Orchestrator.System

namespace Orchestrator

open Lib

/-! ### Containers -/

/-- A container that the runner has started. -/
structure Container where
  workloadID : String
  resources : Resource
deriving DecidableEq, Repr

/-- The containers that were started and not stopped since, one for each workload. -/
abbrev Containers := Table Container Container.workloadID

/-- What the containers request. -/
def Containers.total (L : Containers) (k : Dim) : ℤ :=
  (L.rows.map fun c => c.resources.amount k).sum

/-- The containers after an assignment was processed. -/
def Containers.track (retries : ℕ) (rt : RuntimeOutcome) (a : Assignment) (L : Containers) :
    Containers :=
  match a.fate retries rt with
  | .started => L.put ⟨a.workloadID, a.resources⟩
  | .stopped => L.del a.workloadID
  | .untouched => L

/-- The containers after a batch; the outcomes are numbered from the last assignment. -/
def Containers.trackAll (retries : ℕ) (rt : ℕ → RuntimeOutcome) :
    List Assignment → Containers → Containers
  | [], L => L
  | a :: rest, L => trackAll retries rt rest (L.track retries (rt rest.length) a)

/-! ### Runs -/

/-- A runner, the store it talks to, and the containers it has started. -/
structure RunnerSys where
  world : World
  runner : Runner
  live : Containers

def RunnerSys.start (nodeID : String) (w₀ : World) : RunnerSys where
  world := w₀
  runner := { nodeID := nodeID }
  live := Table.empty

/-- What happens: a batch of assignments, a comparison with the runtime, and whatever the
control plane does in between. -/
inductive RunnerEvent
  | batch (max : ℤ) (retries : ℕ) (rt : ℕ → RuntimeOutcome)
  | reconcile (rt : RuntimeDrift)
  | change (w : World)

/-- The assignments that a poll returns. -/
def Runner.polled (r : Runner) (max : ℤ) (w : World) : List Assignment :=
  w.store.popped r.nodeID (if max ≤ 0 then 10 else max).toNat

def RunnerSys.step (env : Env) (e : RunnerEvent) (s : RunnerSys) : RunnerSys :=
  match e with
  | .batch max retries rt =>
    { world := (s.runner.processAssignments max retries rt).final (exec env) s.world
      runner := match (s.runner.processAssignments max retries rt).result (exec env) s.world with
        | .ok r => r
        | .error _ => s.runner
      live := s.live.trackAll retries rt (s.runner.polled max s.world) }
  | .reconcile rt =>
    { s with
      world := (s.runner.reconcileRuntime rt).final (exec env) s.world
      live := match (s.runner.reconcileRuntime rt).result (exec env) s.world with
        | .ok ids => s.live.delWhere fun c => decide (c.workloadID ∈ ids) && rt.stopped c.workloadID
        | .error _ => s.live }
  | .change w => { s with world := w }

/-- A container is started for a workload that has none, within what the counter can hold,
and stopped with the request it was started with. -/
def Containers.Tame (retries : ℕ) (rt : RuntimeOutcome) (a : Assignment) (L : Containers) : Prop :=
  match a.fate retries rt with
  | .started => L.get a.workloadID = none ∧ a.resources.Nonneg ∧
      ∀ k, L.total k + a.resources.amount k < 2 ^ 63
  | .stopped => L.get a.workloadID = some ⟨a.workloadID, a.resources⟩
  | .untouched => True

def Containers.TameAll (retries : ℕ) (rt : ℕ → RuntimeOutcome) :
    List Assignment → Containers → Prop
  | [], _ => True
  | a :: rest, L => L.Tame retries (rt rest.length) a ∧
      TameAll retries rt rest (L.track retries (rt rest.length) a)

/-- The assignments of a batch are tame, and a comparison finds the workload of every
container among those that the node is to have. -/
def RunnerEvent.Tame (e : RunnerEvent) (s : RunnerSys) : Prop :=
  match e with
  | .batch max retries rt => s.live.TameAll retries rt (s.runner.polled max s.world)
  | .reconcile _ => ∀ c ∈ s.live.rows, ∃ v ∈ s.world.workloads.rows,
      v.id = c.workloadID ∧ v.desiredOn s.runner.nodeID = true
  | .change _ => True

variable {env : Env} {w : World} {retries : ℕ} {L : Containers}

/-! ### The counter -/

/-- The counter after a batch. -/
def countAll (retries : ℕ) (rt : ℕ → RuntimeOutcome) : List Assignment → Resource → Resource
  | [], used => used
  | a :: rest, used => countAll retries rt rest (a.count retries (rt rest.length) used)

lemma report_returns (id : String) (status : WorkloadStatus) (containerID : String) (w : World) :
    Returns env openRules (Runner.report id status containerID) w fun _ _ => True :=
  Prog.Sat.ignore ((reportWorkloadStatus_holds id status containerID fun _ => trivial).mono
    fun _ _ _ => ⟨(), rfl, trivial⟩)

lemma handle_count (r : Runner) (rt : RuntimeOutcome) (a : Assignment) (w : World) :
    Returns env openRules (r.handle retries rt a) w fun r' _ =>
      r' = { r with used := a.count retries rt r.used } := by
  rw [handle_eq]
  split
  · exact (report_returns _ _ _ w).bind fun _ _ _ => returns_pure rfl
  · exact returns_pure rfl

lemma drain_count (rt : ℕ → RuntimeOutcome) (l : List Assignment) (r : Runner)
    (hr : r.inbox = l) (w : World) :
    Returns env openRules (Runner.processAssignments.drain retries rt l.length r) w fun r' _ =>
      r' = { r with inbox := [], used := countAll retries rt l r.used } := by
  induction l generalizing r w with
  | nil => exact returns_pure (by cases r; cases hr; rfl)
  | cons a l ih =>
    have hwork : Returns env openRules (r.work retries (rt l.length)) w fun r' _ =>
        r' = { r with inbox := l, used := a.count retries (rt l.length) r.used } := by
      unfold Runner.work
      rw [hr]
      exact handle_count { r with inbox := l } _ a w
    refine hwork.bind ?_
    rintro _ w' rfl
    exact ih _ rfl w'

lemma processAssignments_count (r : Runner) (hr : r.inbox = []) (max : ℤ)
    (rt : ℕ → RuntimeOutcome) (w : World) :
    Returns env openRules (r.processAssignments max retries rt) w fun r' _ =>
      r' = { r with used := countAll retries rt (r.polled max w) r.used } := by
  have hpoll : Returns env openRules (r.poll max) w fun r' _ =>
      r' = { r with inbox := r.polled max w } :=
    ⟨trivial, _, rfl, by rw [hr]; rfl⟩
  refine hpoll.bind ?_
  rintro _ w' rfl
  refine Prog.Sat.mono (drain_count rt _ _ rfl w') ?_
  rintro _ _ ⟨r', rfl, rfl⟩
  exact ⟨_, rfl, by rw [← hr]⟩

/-! ### Counter and containers -/

/-- The counter is what the containers request. -/
structure Counted (used : Resource) (L : Containers) : Prop where
  exact : ∀ k, used.amount k = L.total k
  nonneg : ∀ c ∈ L.rows, c.resources.Nonneg

variable {used : Resource}

lemma Containers.total_put {c : Container} (h : L.get c.workloadID = none) (k : Dim) :
    Containers.total (L.put c) k = L.total k + c.resources.amount k := by
  unfold Containers.total
  rw [((Table.perm_put_of_get_none h).map _).sum_eq, List.map_cons, List.sum_cons, add_comm]

lemma Containers.total_del {c : Container} (h : c ∈ L.rows) (k : Dim) :
    Containers.total (L.del c.workloadID) k = L.total k - c.resources.amount k := by
  have hperm := ((Table.perm_of_get (Table.get_of_mem h)).map
    fun c : Container => c.resources.amount k).sum_eq
  rw [List.map_cons, List.sum_cons] at hperm
  unfold Containers.total
  rw [hperm, add_sub_cancel_left]

lemma Containers.total_nonneg (h : ∀ c ∈ L.rows, c.resources.Nonneg) (k : Dim) :
    0 ≤ L.total k := by
  refine List.sum_nonneg fun x hx => ?_
  obtain ⟨c, hc, rfl⟩ := List.mem_map.mp hx
  exact h c hc k

/-- The largest counter. -/
def Resource.most : Resource := ⟨Int64.maxValue, Int64.maxValue⟩

lemma Resource.most_amount (k : Dim) : Resource.most.amount k = 2 ^ 63 - 1 := by
  cases k <;> rfl

lemma Counted.start {a : Assignment} (h : Counted used L) (hnew : L.get a.workloadID = none)
    (hres : a.resources.Nonneg) (hsum : ∀ k, L.total k + a.resources.amount k < 2 ^ 63) :
    Counted (used.reserve a.resources) (L.put ⟨a.workloadID, a.resources⟩) where
  exact k := by
    have hk := hsum k
    have hused : 0 ≤ used.amount k := h.exact k ▸ Containers.total_nonneg h.nonneg k
    have hle : used.amount k + a.resources.amount k ≤ Resource.most.amount k := by
      rw [h.exact k, Resource.most_amount]
      omega
    rw [Resource.amount_reserve hused (hres k) hle, h.exact k, Containers.total_put hnew]
  nonneg c hc := by
    rcases Table.mem_rows_put.mp hc with rfl | ⟨hc, -⟩
    · exact hres
    · exact h.nonneg c hc

lemma Counted.stop {a : Assignment} (h : Counted used L)
    (hlive : L.get a.workloadID = some ⟨a.workloadID, a.resources⟩) :
    Counted (used.release a.resources) (L.del a.workloadID) where
  exact k := by
    have hmem := Table.mem_of_get hlive
    have hdel := Containers.total_del hmem k
    have hrest : 0 ≤ Containers.total (L.del a.workloadID) k :=
      Containers.total_nonneg (fun c hc => h.nonneg c (Table.mem_rows_del.mp hc).1) k
    have hle : a.resources.amount k ≤ used.amount k := by
      rw [h.exact k]
      rw [hdel] at hrest
      exact sub_nonneg.mp hrest
    rw [Resource.amount_release (h.nonneg _ hmem k) hle, h.exact k, hdel]
  nonneg c hc := h.nonneg c (Table.mem_rows_del.mp hc).1

lemma Counted.track {rt : RuntimeOutcome} {a : Assignment} (h : Counted used L)
    (hok : L.Tame retries rt a) :
    Counted (a.count retries rt used) (L.track retries rt a) := by
  revert hok
  unfold Containers.Tame Assignment.count Containers.track
  cases a.fate retries rt with
  | started => exact fun hok => h.start hok.1 hok.2.1 hok.2.2
  | stopped => exact h.stop
  | untouched => exact fun _ => h

lemma Counted.trackAll {rt : ℕ → RuntimeOutcome} (l : List Assignment) (h : Counted used L)
    (hok : L.TameAll retries rt l) :
    Counted (countAll retries rt l used) (L.trackAll retries rt l) := by
  induction l generalizing used L with
  | nil => exact h
  | cons a l ih => exact ih (h.track hok.1) hok.2

/-! ### Runs keep the counter -/

lemma reports_return (l : List String) (w : World) :
    Returns env openRules (Prog.forEach l fun id => Runner.report id .failed "") w
      fun _ _ => True := by
  refine Prog.Sat.forEach (I := fun _ _ => True) ?_ (fun _ _ => ⟨(), rfl, trivial⟩) l trivial
  intro id _ w' _
  refine Prog.Sat.mono (report_returns id .failed "" w') ?_
  rintro _ _ ⟨_, rfl, -⟩
  trivial

/-- A workload that the node is to have is not stopped by a comparison. -/
lemma reconcileRuntime_spares (env : Env) (r : Runner) (rt : RuntimeDrift) (w : World) :
    Holds env openRules (r.reconcileRuntime rt) w fun res _ => ∀ ids, res = .ok ids →
      ∀ v ∈ w.workloads.rows, v.desiredOn r.nodeID = true → v.id ∉ ids := by
  have hlist : Returns env openRules (listNodeWorkloads r.nodeID) w fun desired w' =>
      desired = w.workloads.rows.filter (Workload.desiredOn r.nodeID) ∧ w' = w :=
    listWorkloads_bind (returns_pure ⟨rfl, rfl⟩)
  refine hlist.bind ?_
  rintro _ w₁ ⟨rfl, rfl⟩
  split
  · rintro ids ⟨⟩
  · refine (reports_return _ w₁).bind fun _ _ _ => ?_
    rintro ids ⟨⟩ v hv hdes hmem
    have hnot := of_decide_eq_true (List.mem_filter.mp hmem).2
    exact hnot (List.mem_map_of_mem (List.mem_filter.mpr ⟨hv, hdes⟩))

/-- **The counter of a runner**: in every run whose batches are tame and whose comparisons
find every container desired, the runner counts what the containers request that it has
started and not stopped. -/
theorem used_counts_live_containers (env : Env) (nodeID : String) (w₀ : World) {s : RunnerSys}
    (h : Runs (RunnerSys.step env) RunnerEvent.Tame (RunnerSys.start nodeID w₀) s) (k : Dim) :
    s.runner.used.amount k = s.live.total k := by
  have hinv : s.runner.inbox = [] ∧ Counted s.runner.used s.live := by
    refine h.invariant (I := fun s => s.runner.inbox = [] ∧ Counted s.runner.used s.live) ?_ ?_
    · exact ⟨rfl, fun k => by cases k <;> rfl, fun c hc => by cases hc⟩
    rintro e s ⟨hbox, hs⟩ hok
    cases e with
    | batch max retries rt =>
      obtain ⟨r', hres, hr'⟩ : ∃ r', (s.runner.processAssignments max retries rt).result (exec env)
          s.world = .ok r' ∧ r' = _ := (processAssignments_count s.runner hbox max rt s.world).run
      have hrunner : (RunnerSys.step env (.batch max retries rt) s).runner = r' := by
        simp only [RunnerSys.step, hres]
      rw [hrunner, hr']
      exact ⟨hbox, hs.trackAll _ hok⟩
    | reconcile rt =>
      refine ⟨hbox, ?_⟩
      have hlive : (RunnerSys.step env (.reconcile rt) s).live = s.live := by
        have hspares := (reconcileRuntime_spares env s.runner rt s.world).run
        simp only [RunnerSys.step]
        split
        · rename_i ids hids
          refine Table.delWhere_of_forall_false fun c hc => ?_
          obtain ⟨v, hv, hid, hdes⟩ := hok c hc
          have hnot : c.workloadID ∉ ids := hid ▸ hspares ids hids v hv hdes
          rw [decide_eq_false hnot, Bool.false_and]
        · rfl
      rw [hlive]
      exact hs
    | change w => exact ⟨hbox, hs⟩
  exact hinv.2.exact k

/-! ### A batch -/

instance Dim.decidableForall (p : Dim → Prop) [DecidablePred p] : Decidable (∀ k, p k) :=
  decidable_of_iff (p .cpu ∧ p .mem)
    ⟨fun h => Dim.rec h.1 h.2, fun h => ⟨h .cpu, h .mem⟩⟩

instance Resource.decidableNonneg (r : Resource) : Decidable r.Nonneg :=
  inferInstanceAs (Decidable (∀ k, 0 ≤ r.amount k))

instance Containers.decidableTame (retries : ℕ) (rt : RuntimeOutcome) (a : Assignment)
    (L : Containers) : Decidable (L.Tame retries rt a) := by
  unfold Containers.Tame
  exact match a.fate retries rt with
  | .started => inferInstanceAs (Decidable (_ ∧ _ ∧ _))
  | .stopped => inferInstanceAs (Decidable (_ = _))
  | .untouched => .isTrue trivial

instance Containers.decidableTameAll (retries : ℕ) (rt : ℕ → RuntimeOutcome)
    (l : List Assignment) (L : Containers) : Decidable (L.TameAll retries rt l) :=
  match l with
  | [] => .isTrue trivial
  | a :: rest =>
    have : Decidable (Containers.TameAll retries rt rest (L.track retries (rt rest.length) a)) :=
      decidableTameAll retries rt rest _
    inferInstanceAs (Decidable (_ ∧ _))

instance RunnerEvent.decidableTame (e : RunnerEvent) (s : RunnerSys) : Decidable (e.Tame s) :=
  match e with
  | .batch _ _ _ => inferInstanceAs (Decidable (Containers.TameAll _ _ _ _))
  | .reconcile _ => inferInstanceAs (Decidable (∀ c ∈ s.live.rows, ∃ v ∈ _, _))
  | .change _ => .isTrue trivial

/-- A store whose queue holds these assignments. -/
def queueWorld (l : List Assignment) : World :=
  { store := l.foldl (fun s a => s.put .assignment a) Store.empty, tick := 0 }

/-- An assignment about a workload with half a core. -/
def halfCore (action : AssignmentAction) (id workloadID : String) : Assignment :=
  { action := action, id := id, nodeID := "n1", workloadID := workloadID, resources := ⟨500, 500⟩ }

/-- A runtime that starts nothing. -/
def brokenRuntime : RuntimeOutcome := { willingRuntime with started := fun _ => none }

/-- Two workloads are started, and one of them is deleted. -/
def shortBatch : List Assignment :=
  [halfCore .create "1" "a", halfCore .create "2" "b", halfCore .delete "3" "b"]

theorem used_counts_live_containers_batch :
    let s := after (RunnerSys.step steadyEnv) [.batch 5 3 fun _ => willingRuntime]
      (.start "n1" (queueWorld shortBatch))
    s.live.total .cpu = 500 ∧ s.runner.used.amount .cpu = s.live.total .cpu :=
  ⟨by decide +kernel, used_counts_live_containers steadyEnv "n1" _
    (.of_list _ (by decide +kernel)) .cpu⟩

/-- The container of `b` does not start.  Its deletion takes from the count of `a`. -/
theorem delete_of_unstarted_discounts :
    let s := after (RunnerSys.step steadyEnv)
      [.batch 5 3 fun k => if k = 1 then brokenRuntime else willingRuntime]
      (.start "n1" (queueWorld shortBatch))
    s.live.rows.map Container.workloadID = ["a"] ∧ s.live.total .cpu = 500 ∧
      s.runner.used.amount .cpu = 0 := by
  decide +kernel

end Orchestrator
