/-
# Effects of the store methods

The tables that the invariants are about (nodes, deployments, workloads and the
assignment queue), the relation `Eff` that says what a part of a run does to them, and one
rule for each method of the store.  Everything above this file works with these rules and
never looks at the state again.

A part of a run that only reads has the relation `Quiet`; whether a program only reads can
be seen from the program alone (`Reads`).
-/
import Orchestrator.Service.Controller
import Orchestrator.Worker.Runner

namespace Orchestrator

open Lib

variable {c : Call} {v : Workload}

/-! ### The tables -/

namespace World

def nodes (w : World) : Table Node Node.id := w.store .node

def deps (w : World) : Table Deployment Deployment.id := w.store .deployment

def workloads (w : World) : Table Workload Workload.id := w.store .workload

def queue (w : World) : Table Assignment (Tbl.key .assignment) := w.store .assignment

def secrets (w : World) : Table Secret (Tbl.key .secret) := w.store .secret

def jobs (w : World) : Table Job Job.id := w.store .job

def cronJobs (w : World) : Table CronJob (Tbl.key .cronJob) := w.store .cronJob

/-- The workloads of a deployment, as `ListWorkloadsByDeployment` returns them. -/
def deployed (w : World) (id : String) : List Workload :=
  w.workloads.rows.filter fun v => v.deploymentID = id

/-- Resources that some stored job or cron job asks for. -/
def Requested (w : World) (r : Resource) : Prop :=
  (∃ j ∈ w.jobs.rows, j.spec.template.resources = r) ∨
    ∃ c ∈ w.cronJobs.rows, c.template.template.resources = r

end World

/-- What a part of a run from `w` to `w'` does: the tables it leaves, and that it keeps the
secrets and may have made readings. -/
structure Eff (w w' : World) (N : Table Node Node.id) (D : Table Deployment Deployment.id)
    (W : Table Workload Workload.id) (A : Table Assignment (Tbl.key .assignment)) : Prop where
  nodes : w'.nodes = N
  deps : w'.deps = D
  workloads : w'.workloads = W
  queue : w'.queue = A
  secrets : w'.secrets = w.secrets
  tick : w.tick ≤ w'.tick

/-- A part of a run that leaves the four tables as they are. -/
def Quiet (w w' : World) : Prop := Eff w w' w.nodes w.deps w.workloads w.queue

section Algebra

variable {w w₁ w₂ w₃ : World} {N N' : Table Node Node.id} {D D' : Table Deployment Deployment.id}
  {W W' : Table Workload Workload.id} {A A' : Table Assignment (Tbl.key .assignment)}

lemma Eff.trans (h : Eff w w₁ N D W A) (h' : Eff w₁ w₂ N' D' W' A') : Eff w w₂ N' D' W' A' where
  nodes := h'.nodes
  deps := h'.deps
  workloads := h'.workloads
  queue := h'.queue
  secrets := h'.secrets.trans h.secrets
  tick := h.tick.trans h'.tick

lemma Quiet.refl (w : World) : Quiet w w :=
  ⟨rfl, rfl, rfl, rfl, rfl, le_rfl⟩

lemma Eff.quiet (h : Eff w w₁ N D W A) (h' : Quiet w₁ w₂) : Eff w w₂ N D W A := by
  have h₂ := h.trans h'
  rwa [h.nodes, h.deps, h.workloads, h.queue] at h₂

lemma Quiet.eff (h : Quiet w w₁) (h' : Eff w₁ w₂ N D W A) : Eff w w₂ N D W A := h.trans h'

lemma Quiet.trans (h : Quiet w w₁) (h' : Quiet w₁ w₂) : Quiet w w₂ := Eff.quiet h h'

lemma Eff.deployed (h : Eff w w₁ N D W A) (id : String) :
    w₁.deployed id = W.rows.filter fun v => v.deploymentID = id := by
  rw [World.deployed, h.workloads]

lemma Quiet.deployed (h : Quiet w w₁) (id : String) : w₁.deployed id = w.deployed id :=
  Eff.deployed h id

/-- A run that leaves the store alone is quiet. -/
lemma Quiet.of_store (hs : w₁.store = w.store) (ht : w.tick ≤ w₁.tick) : Quiet w w₁ := by
  refine ⟨?_, ?_, ?_, ?_, ?_, ht⟩
  · rw [World.nodes, hs]; rfl
  · rw [World.deps, hs]; rfl
  · rw [World.workloads, hs]; rfl
  · rw [World.queue, hs]; rfl
  · rw [World.secrets, hs]; rfl

end Algebra

/-! ### The guard -/

/-- What may be asked for: which workload records may be removed, and which stored, in which
states, and the resources that a stored job may request.  A stored workload may always get
another status than `Terminated`. -/
structure Rules where
  removes : String → World → Prop
  stores : Workload → World → Prop
  requests : Resource → Prop
  restatus : ∀ {u v : Workload} {w : World}, u ∈ w.workloads.rows → v.id = u.id →
    v.deploymentID = u.deploymentID → v.status ≠ .terminated → stores v w

/-- Rules that allow everything. -/
def Rules.any : Rules where
  removes _ _ := True
  stores _ _ := True
  requests _ := True
  restatus _ _ _ _ := trivial

/-- What holds when a call is made: a workload record is removed or stored only if the rules
allow it, the cascade of a deployment meets no workload of another status than
`Terminated`, and the templates of stored jobs request what the rules allow. -/
def Guard (P : Rules) : Call → World → Prop
  | .del .workload id, w => P.removes id w
  | .put .workload v, w => P.stores v w
  | .deleteDeployment id, w => ∀ v ∈ w.workloads.rows, v.deploymentID = id → v.status = .terminated
  | .put .job j, _ => P.requests j.spec.template.resources
  | .put .cronJob c, _ => P.requests c.template.template.resources
  | _, _ => True

/-- The judgement of `Prog.Sat` for the calls of the control plane. -/
abbrev Holds (env : Env) (P : Rules) {α : Type} (p : M α) (w : World)
    (Q : Except Err α → World → Prop) : Prop :=
  Prog.Sat (exec env) (Guard P) p w Q

/-! ### Programs that only read -/

/-- The calls that do not write to the store. -/
def Call.reads : Call → Bool
  | .now | .rand | .admission | .external | .lock | .unlock | .get _ _ | .list _ _ => true
  | .put _ _ | .del _ _ | .deleteDeployment _ | .popAssignments _ _
  | .replaceServiceEndpoints _ _ => false

/-- The program only reads, and whatever it reads, its result satisfies `R`. -/
abbrev Reads {α : Type} (p : M α) (R : Except Err α → Prop) : Prop :=
  p.Only (fun c => c.reads = true) R

/-- The calls that do not touch the store or the mutex. -/
def Call.oracle : Call → Bool
  | .now | .rand | .admission | .external => true
  | .lock | .unlock | .get _ _ | .list _ _ | .put _ _ | .del _ _ | .deleteDeployment _
  | .popAssignments _ _ | .replaceServiceEndpoints _ _ => false

lemma Call.reads_of_oracle (h : c.oracle = true) : c.reads = true := by
  cases c <;> simp_all [oracle, reads]

variable {env : Env} {P : Rules} {α β : Type} {w : World} {p : M α} {t : Tbl}
  {R : α → World → Prop} {Q : Except Err β → World → Prop}

lemma exec_reads (env : Env) (h : c.reads = true) (w : World) :
    (exec env c w).2.store = w.store ∧ w.tick ≤ (exec env c w).2.tick := by
  cases c <;> simp_all [Call.reads, exec, World.read]

lemma guard_reads (h : c.reads = true) (w : World) : Guard P c w := by
  cases c <;> simp_all [Call.reads, Guard]

/-- The run of a program that only reads is quiet. -/
lemma Reads.holds {R : Except Err α → Prop} (h : Reads p R) (w : World) :
    Holds env P p w fun r w' => R r ∧ w'.store = w.store ∧ w.tick ≤ w'.tick := by
  refine Prog.Sat.of_only (I := fun w' : World => w'.store = w.store ∧ w.tick ≤ w'.tick) ?_ h
    ⟨rfl, le_rfl⟩
  rintro c w' hc ⟨hs, ht⟩
  obtain ⟨hs', ht'⟩ := exec_reads env hc w'
  exact ⟨guard_reads hc w', hs'.trans hs, ht.trans ht'⟩

lemma Reads.quiet {R : Except Err α → Prop} (h : Reads p R) (w : World) :
    Holds env P p w fun r w' => R r ∧ Quiet w w' :=
  (h.holds w).mono fun _ _ hr => ⟨hr.1, Quiet.of_store hr.2.1 hr.2.2⟩

/-! ### Programs that leave a table alone -/

/-- The calls that write to a table. -/
def Call.writes (t : Tbl) : Call → Bool
  | .put t' _ | .del t' _ => t' = t
  | .deleteDeployment _ => t = .deployment || t = .workload
  | .popAssignments _ _ => t = .assignment
  | .replaceServiceEndpoints _ _ => t = .endpoint
  | .now | .rand | .admission | .external | .lock | .unlock | .get _ _ | .list _ _ => false

/-- No call of the program writes to the table. -/
abbrev Spares (t : Tbl) {α : Type} (p : M α) : Prop :=
  p.Only (fun c => c.writes t = false) fun _ => True

lemma exec_tick_le (env : Env) (c : Call) (w : World) : w.tick ≤ (exec env c w).2.tick := by
  cases c <;> simp [exec, World.read, World.write]

lemma exec_writes (env : Env) (h : c.writes t = false) (w : World) :
    (exec env c w).2.store t = w.store t := by
  cases c with
  | put t' v => exact Store.set_of_ne _ _ fun ht => by simp [Call.writes, ht] at h
  | del t' k => exact Store.set_of_ne _ _ fun ht => by simp [Call.writes, ht] at h
  | deleteDeployment id =>
    simp only [Call.writes, Bool.or_eq_false_iff, decide_eq_false_iff_not] at h
    exact (Store.set_of_ne _ _ h.2).trans (Store.set_of_ne _ _ h.1)
  | popAssignments node max => exact Store.set_of_ne _ _ (of_decide_eq_false h)
  | replaceServiceEndpoints id eps => exact Store.set_of_ne _ _ (of_decide_eq_false h)
  | now | rand | admission | external | lock | unlock | get | list => rfl

lemma Call.writes_of_reads (h : c.reads = true) : c.writes t = false := by
  cases c <;> simp_all [Call.reads, Call.writes]

/-- The frame rule. -/
lemma Spares.frame {Q : Except Err α → World → Prop} (h : Spares t p)
    (hp : Holds env P p w Q) :
    Holds env P p w fun r w' => Q r w' ∧ w'.store t = w.store t :=
  hp.frame (I := fun w' : World => w'.store t = w.store t)
    (fun _ w' hc hw' => (exec_writes env hc w').trans hw') h rfl

lemma Spares.final (h : Spares t p) (env : Env) (w : World) :
    (p.final (exec env) w).store t = w.store t :=
  have hrun : Prog.Sat (exec env) (fun _ _ => True) p w _ := .of_only
    (I := fun w' : World => w'.store t = w.store t)
    (fun _ w' hc hw' => ⟨trivial, (exec_writes env hc w').trans hw'⟩) h rfl
  hrun.run.2

/-- The run ends without an error, and its value and final state satisfy `R`. -/
abbrev Returns (env : Env) (P : Rules) {α : Type} (p : M α) (w : World)
    (R : α → World → Prop) : Prop :=
  Holds env P p w fun r w' => ∃ a, r = .ok a ∧ R a w'

lemma Returns.bind {f : α → M β}
    (hp : Returns env P p w R)
    (hf : ∀ a w', R a w' → Holds env P (f a) w' Q) : Holds env P (p >>= f) w Q :=
  Prog.Sat.bind_ok hp hf

lemma Returns.attempt_bind {f : Except Err α → M β}
    (hp : Returns env P p w R)
    (hf : ∀ a w', R a w' → Holds env P (f (.ok a)) w' Q) :
    Holds env P (p.attempt >>= f) w Q := by
  refine Prog.Sat.attempt_bind hp ?_
  rintro _ w' ⟨a, rfl, h⟩
  exact hf a w' h

lemma Returns.ignore {R' : Unit → World → Prop}
    (hp : Returns env P p w R) (h : ∀ a w', R a w' → R' () w') : Returns env P p.ignore w R' :=
  Prog.Sat.ignore (Prog.Sat.mono hp fun _ w' ⟨a, _, hR⟩ => ⟨(), rfl, h a w' hR⟩)

lemma Returns.mono {R' : α → World → Prop} (hp : Returns env P p w R)
    (h : ∀ a w', R a w' → R' a w') : Returns env P p w R' :=
  Prog.Sat.mono hp fun _ w' ⟨a, ha, hR⟩ => ⟨a, ha, h a w' hR⟩

lemma returns_pure {a : α} (h : R a w) : Returns env P (pure a) w R :=
  ⟨a, rfl, h⟩

/-! ### Writes -/

lemma Store.put_self (s : Store) (t : Tbl) (v : t.Val) :
    s.put t v t = (s t).put (t.viaJSON v) := Store.set_self _ _ _

lemma Store.put_of_ne (s : Store) (t t' : Tbl) (v : t.Val) (h : t' ≠ t) : s.put t v t' = s t' :=
  Store.set_of_ne _ _ h

lemma Store.del_of_ne (s : Store) {t' : Tbl} (k : String) (h : t' ≠ t) : s.del t k t' = s t' :=
  Store.set_of_ne _ _ h

/-- The kinds of records whose tables `Eff` describes. -/
def Tbl.core : Tbl → Bool
  | .node | .deployment | .workload | .assignment | .secret => true
  | .service | .endpoint | .nameSpace | .quota | .volume | .claim | .policy | .metric | .job
  | .cronJob | .lease | .networkPolicy | .roleBinding => false

/-- A run that changes none of the tables that `Eff` describes is quiet. -/
lemma Quiet.of_core {w w' : World} (h : ∀ t : Tbl, t.core = true → w'.store t = w.store t)
    (ht : w.tick ≤ w'.tick) : Quiet w w' where
  nodes := h .node rfl
  deps := h .deployment rfl
  workloads := h .workload rfl
  queue := h .assignment rfl
  secrets := h .secret rfl
  tick := ht

/-- Another table is replaced. -/
lemma Quiet.of_set {T : Table t.Val t.key} (ht : t.core = false) (w : World) :
    Quiet w ⟨w.store.set t T, w.tick⟩ := by
  refine Quiet.of_core ?_ le_rfl
  intro t' ht'
  refine Store.set_of_ne _ _ ?_
  rintro rfl
  simp [ht] at ht'

/-- Storing a record of another kind is quiet. -/
lemma quiet_put (v : t.Val) (ht : t.core = false) (w : World) :
    Quiet w ⟨w.store.put t v, w.tick⟩ := .of_set ht w

lemma store_quiet {v : t.Val} (ht : t.core = false) (hG : Guard P (.put t v) w) :
    Returns env P (StateStore.store t v) w fun _ w' => Quiet w w' :=
  ⟨hG, (), rfl, quiet_put v ht w⟩

/-- The effect of a write, from the tables of the new store. -/
lemma Eff.of_tables {w : World} {s : Store} {N : Table Node Node.id}
    {D : Table Deployment Deployment.id} {W : Table Workload Workload.id}
    {A : Table Assignment (Tbl.key .assignment)} (hN : s .node = N) (hD : s .deployment = D)
    (hW : s .workload = W) (hA : s .assignment = A) (hsec : s .secret = w.store .secret) :
    Eff w (w.write s).2 N D W A :=
  ⟨hN, hD, hW, hA, hsec, le_rfl⟩

lemma store_node (n : Node) (w : World) :
    Returns env P (StateStore.store .node n) w fun _ w' =>
      Eff w w' (w.nodes.put n) w.deps w.workloads w.queue :=
  ⟨trivial, (), rfl, Eff.of_tables (Store.put_self _ _ _) (Store.put_of_ne _ _ _ _ (by decide))
    (Store.put_of_ne _ _ _ _ (by decide)) (Store.put_of_ne _ _ _ _ (by decide))
    (Store.put_of_ne _ _ _ _ (by decide))⟩

lemma store_deployment (d : Deployment) (w : World) :
    Returns env P (StateStore.store .deployment d) w fun _ w' =>
      Eff w w' w.nodes (w.deps.put d.viaJSON) w.workloads w.queue :=
  ⟨trivial, (), rfl, Eff.of_tables (Store.put_of_ne _ _ _ _ (by decide)) (Store.put_self _ _ _)
    (Store.put_of_ne _ _ _ _ (by decide)) (Store.put_of_ne _ _ _ _ (by decide))
    (Store.put_of_ne _ _ _ _ (by decide))⟩

lemma store_workload (h : P.stores v w) :
    Returns env P (StateStore.store .workload v) w fun _ w' =>
      Eff w w' w.nodes w.deps (w.workloads.put v) w.queue :=
  ⟨h, (), rfl, Eff.of_tables (Store.put_of_ne _ _ _ _ (by decide))
    (Store.put_of_ne _ _ _ _ (by decide)) (Store.put_self _ _ _) (Store.put_of_ne _ _ _ _ (by decide))
    (Store.put_of_ne _ _ _ _ (by decide))⟩

lemma store_assignment (a : Assignment) (w : World) :
    Returns env P (StateStore.store .assignment a) w fun _ w' =>
      Eff w w' w.nodes w.deps w.workloads (w.queue.put a) :=
  ⟨trivial, (), rfl, Eff.of_tables (Store.put_of_ne _ _ _ _ (by decide))
    (Store.put_of_ne _ _ _ _ (by decide)) (Store.put_of_ne _ _ _ _ (by decide)) (Store.put_self _ _ _)
    (Store.put_of_ne _ _ _ _ (by decide))⟩

/-! ### The methods of the store -/

lemma orNow_returns (t : Time) (w : World) :
    Returns env P (orNow t) w fun _ w' => Quiet w w' := by
  unfold orNow
  split
  · exact ⟨trivial, _, rfl, Quiet.of_store rfl (Nat.le_succ _)⟩
  · exact returns_pure (Quiet.refl w)

lemma timeNow_returns (w : World) : Returns env P timeNow w fun t w' =>
    t = env.clock w.tick ∧ Quiet w w' ∧ w'.tick = w.tick + 1 :=
  ⟨trivial, _, rfl, rfl, Quiet.of_store rfl (Nat.le_succ _), rfl⟩

lemma randIntn_returns (w : World) : Returns env P randIntn w fun r w' =>
    r = env.rand w.tick ∧ Quiet w w' ∧ w'.tick = w.tick + 1 :=
  ⟨trivial, _, rfl, rfl, Quiet.of_store rfl (Nat.le_succ _), rfl⟩

lemma upsertNode_returns (n : Node) (w : World) :
    Returns env P (StateStore.upsertNode n) w fun _ w' => ∃ seen,
      Eff w w' (w.nodes.put { n with lastSeen := seen }) w.deps w.workloads w.queue := by
  refine (orNow_returns n.lastSeen w).bind ?_
  intro seen w₁ hq
  refine (store_node _ w₁).mono ?_
  intro _ w₂ he
  rw [hq.nodes, hq.deps, hq.workloads, hq.queue] at he
  exact ⟨seen, hq.eff he⟩

lemma upsertWorkload_returns
    (h : ∀ now w', w'.deps = w.deps → w'.workloads = w.workloads →
      P.stores { v with updatedAt := now } w') :
    Returns env P (StateStore.upsertWorkload v) w fun _ w' => ∃ now,
      Eff w w' w.nodes w.deps (w.workloads.put { v with updatedAt := now }) w.queue := by
  refine (timeNow_returns w).bind ?_
  rintro now w₁ ⟨-, hq, -⟩
  refine (store_workload (h now w₁ hq.deps hq.workloads)).mono ?_
  intro _ w₂ he
  rw [hq.nodes, hq.deps, hq.workloads, hq.queue] at he
  exact ⟨now, hq.eff he⟩

/-- A stored workload gets another status. -/
lemma restatusWorkload_returns {u : Workload} (hu : u ∈ w.workloads.rows) (hid : v.id = u.id)
    (hdep : v.deploymentID = u.deploymentID) (hv : v.status ≠ .terminated) :
    Returns env P (StateStore.upsertWorkload v) w fun _ w' => ∃ now,
      Eff w w' w.nodes w.deps (w.workloads.put { v with updatedAt := now }) w.queue := by
  refine upsertWorkload_returns ?_
  intro now w' _ hw
  rw [← hw] at hu
  exact P.restatus hu hid hdep hv

lemma updateDeployment_returns (d : Deployment) (w : World) :
    Returns env P (StateStore.updateDeployment d) w fun _ w' =>
      Eff w w' w.nodes (w.deps.put d.viaJSON) w.workloads w.queue :=
  store_deployment d w

lemma enqueueAssignment_returns (a : Assignment) (w : World) :
    Returns env P (StateStore.enqueueAssignment a) w fun _ w' => ∃ id,
      Eff w w' w.nodes w.deps w.workloads (w.queue.put { a with id := id }) := by
  unfold StateStore.enqueueAssignment
  split
  · refine (timeNow_returns w).bind ?_
    rintro now w₁ ⟨-, hq, -⟩
    refine (store_assignment _ w₁).mono ?_
    intro _ w₂ he
    rw [hq.nodes, hq.deps, hq.workloads, hq.queue] at he
    exact ⟨_, hq.eff he⟩
  · exact (store_assignment a w).mono fun _ w' he => ⟨a.id, he⟩

lemma deleteWorkload_returns {id : String} (h : P.removes id w) :
    Returns env P (StateStore.deleteWorkload id) w fun _ w' =>
      Eff w w' w.nodes w.deps (w.workloads.del id) w.queue :=
  ⟨h, (), rfl, Eff.of_tables (Store.del_of_ne _ _ (by decide)) (Store.del_of_ne _ _ (by decide))
    (Store.set_self _ _ _) (Store.del_of_ne _ _ (by decide)) (Store.del_of_ne _ _ (by decide))⟩

lemma Store.deleteDeployment_of_ne (s : Store) (id : String) (t : Tbl) (hd : t ≠ .deployment)
    (hw : t ≠ .workload) : s.deleteDeployment id t = s t := by
  rw [Store.deleteDeployment, Store.set_of_ne _ _ hw, Store.del_of_ne _ _ hd]

lemma deleteDeployment_returns {id : String}
    (h : ∀ v ∈ w.workloads.rows, v.deploymentID = id → v.status = .terminated) :
    Returns env P (StateStore.deleteDeployment id) w fun _ w' =>
      Eff w w' w.nodes (w.deps.del id) (w.workloads.delWhere fun v => v.deploymentID = id)
        w.queue := by
  have hdep : w.store.deleteDeployment id .deployment = w.deps.del id := by
    rw [Store.deleteDeployment, Store.set_of_ne _ _ (by decide)]
    exact Store.set_self _ _ _
  exact ⟨h, (), rfl, Eff.of_tables (Store.deleteDeployment_of_ne _ _ _ (by decide) (by decide)) hdep
    (Store.set_self _ _ _) (Store.deleteDeployment_of_ne _ _ _ (by decide) (by decide))
    (Store.deleteDeployment_of_ne _ _ _ (by decide) (by decide))⟩

lemma del_quiet {k : String} (ht : t.core = false) (w : World) :
    Quiet w (w.write (w.store.del t k)).2 := .of_set ht w

lemma deleteJob_returns (id : String) (w : World) :
    Returns env P (StateStore.deleteJob id) w fun _ w' => Quiet w w' :=
  ⟨trivial, (), rfl, del_quiet rfl w⟩

lemma popAssignments_returns (node : String) (max : ℕ) (w : World) :
    Returns env P (StateStore.popAssignments node max) w fun _ w' => ∃ A,
      Eff w w' w.nodes w.deps w.workloads A :=
  ⟨trivial, _, rfl, _, Eff.of_tables (Store.set_of_ne _ _ (by decide))
    (Store.set_of_ne _ _ (by decide)) (Store.set_of_ne _ _ (by decide)) rfl
    (Store.set_of_ne _ _ (by decide))⟩

lemma quiet_replaceServiceEndpoints (env : Env) (id : String) (eps : List ServiceEndpoint)
    (w : World) : Quiet w (exec env (.replaceServiceEndpoints id eps) w).2 := .of_set rfl w

/-! ### What one call can store -/

/-- What a smaller table has, the store has had before. -/
lemma Store.mem_of_set {s : Store} {t' : Tbl} {T : Table t'.Val t'.key} {v : t.Val}
    (hT : ∀ u ∈ T.rows, u ∈ (s t').rows) (h : v ∈ (s.set t' T t).rows) : v ∈ (s t).rows := by
  by_cases ht : t = t'
  · subst ht
    rw [Store.set_self] at h
    exact hT v h
  · rwa [Store.set_of_ne _ _ ht] at h

/-- A record that is there after a call was there before, or the call has stored it. -/
lemma exec_mem (ht : t ≠ .endpoint) {v : t.Val}
    (h : v ∈ ((exec env c w).2.store t).rows) :
    v ∈ (w.store t).rows ∨ ∃ u, c = .put t u ∧ v = t.viaJSON u := by
  cases c with
  | now | rand | admission | external | lock | unlock | get _ _ | list _ _ => exact Or.inl h
  | put t' u =>
    change v ∈ (w.store.put t' u t).rows at h
    by_cases htt : t = t'
    · subst htt
      rw [Store.put_self, Table.mem_rows_put] at h
      rcases h with rfl | ⟨h, -⟩
      · exact Or.inr ⟨u, rfl, rfl⟩
      · exact Or.inl h
    · rw [Store.put_of_ne _ _ _ _ htt] at h
      exact Or.inl h
  | del t' k => exact Or.inl (Store.mem_of_set (fun u hu => (Table.mem_rows_del.mp hu).1) h)
  | deleteDeployment id =>
    have hdel : v ∈ (w.store.del .deployment id t).rows :=
      Store.mem_of_set (fun u hu => (Table.mem_rows_delWhere.mp hu).1) h
    exact Or.inl (Store.mem_of_set (fun u hu => (Table.mem_rows_del.mp hu).1) hdel)
  | popAssignments node max =>
    exact Or.inl (Store.mem_of_set (fun u hu => (Table.mem_rows_delWhere.mp hu).1) h)
  | replaceServiceEndpoints id eps =>
    change v ∈ (w.store.set .endpoint _ t).rows at h
    rw [Store.set_of_ne _ _ ht] at h
    exact Or.inl h

/-- A record stays until it is deleted, though a call may replace it. -/
lemma exec_stays {k : String} (hend : t ≠ .endpoint) (hq : t ≠ .assignment)
    (h : ((w.store t).get k).isSome = true) (hdel : c ≠ .del t k)
    (hcascade : ∀ id, c = .deleteDeployment id → c.writes t = false) :
    (((exec env c w).2.store t).get k).isSome = true := by
  cases hw : c.writes t with
  | false => rwa [exec_writes env hw]
  | true =>
    cases c with
    | put t' v =>
      obtain rfl : t' = t := of_decide_eq_true hw
      change ((w.store.put t' v t').get k).isSome = true
      rw [Store.put_self, Table.get_put]
      split
      · rfl
      · exact h
    | del t' k' =>
      obtain rfl : t' = t := of_decide_eq_true hw
      change ((w.store.set t' _ t').get k).isSome = true
      rwa [Store.set_self, Table.get_del_of_ne _ fun hk => hdel (by rw [hk])]
    | deleteDeployment id => exact absurd (hw.symm.trans (hcascade id rfl)) (by decide)
    | popAssignments _ _ => exact absurd (of_decide_eq_true hw) hq
    | replaceServiceEndpoints _ _ => exact absurd (of_decide_eq_true hw) hend
    | _ => cases hw

/-- The jobs and cron jobs stored by a guarded call ask for what the rules allow. -/
lemma exec_requested (hG : Guard P c w) (h : ∀ r, w.Requested r → P.requests r) :
    ∀ r, (exec env c w).2.Requested r → P.requests r := by
  rintro r (⟨j, hj, rfl⟩ | ⟨cj, hcj, rfl⟩)
  · rcases exec_mem (t := .job) nofun hj with hj | ⟨u, rfl, rfl⟩
    · exact h _ (Or.inl ⟨j, hj, rfl⟩)
    · exact hG
  · rcases exec_mem (t := .cronJob) nofun hcj with hcj | ⟨u, rfl, rfl⟩
    · exact h _ (Or.inr ⟨cj, hcj, rfl⟩)
    · exact hG

lemma holds_requested {Q : Except Err α → World → Prop} (hp : Holds env P p w Q)
    (h : ∀ r, w.Requested r → P.requests r) :
    Holds env P p w fun r w' => Q r w' ∧ ∀ r, w'.Requested r → P.requests r :=
  (hp.keep (fun _ _ hG => exec_requested hG) h).weaken fun _ _ hG => hG.1

/-! ### Lookups and listings -/

/-- A lookup says whether there is a record. -/
lemma find_run (t : Tbl) (k : String) (w : World) :
    (StateStore.find t k).run (exec env) w =
      (((w.store t).get k).elim (.error .notFound) .ok, w) := by
  have hexec : exec env (.get t k) w = ((w.store t).get k, w) := rfl
  rw [StateStore.find, ask, Prog.run_bind, Prog.run_issue, hexec]
  cases (w.store t).get k <;> rfl

section Lookup

variable {k : String}

lemma find_bind {f : t.Val → M β} (hsome : ∀ v, (w.store t).get k = some v → Holds env P (f v) w Q)
    (hnone : (w.store t).get k = none → Q (.error .notFound) w) :
    Holds env P (StateStore.find t k >>= f) w Q := by
  refine ⟨trivial, ?_⟩
  cases h : (w.store t).get k with
  | some v =>
    have he : (exec env (.get t k) w).1 = some v := h
    rw [he]
    exact hsome v h
  | none =>
    have he : (exec env (.get t k) w).1 = none := h
    rw [he]
    exact hnone h

lemma find_holds {Q : Except Err t.Val → World → Prop} (h : ∀ r, Q r w) :
    Holds env P (StateStore.find t k) w Q := by
  refine ⟨trivial, ?_⟩
  change Prog.Sat _ _ (_ >>= _) w Q
  cases (exec env (.get t k) w).1 with
  | some v => exact h _
  | none => exact h _

lemma find_returns {v : t.Val} {R : t.Val → World → Prop} (h : (w.store t).get k = some v)
    (hR : R v w) : Returns env P (StateStore.find t k) w R := by
  refine ⟨trivial, ?_⟩
  have he : (exec env (.get t k) w).1 = some v := h
  rw [he]
  exact ⟨v, rfl, hR⟩

lemma find_attempt_bind {f : Except Err t.Val → M β}
    (hsome : ∀ v, (w.store t).get k = some v → Holds env P (f (.ok v)) w Q)
    (hnone : (w.store t).get k = none → Holds env P (f (.error .notFound)) w Q) :
    Holds env P ((StateStore.find t k).attempt >>= f) w Q := by
  refine ⟨trivial, ?_⟩
  cases h : (w.store t).get k with
  | some v =>
    have he : (exec env (.get t k) w).1 = some v := h
    rw [he]
    exact hsome v h
  | none =>
    have he : (exec env (.get t k) w).1 = none := h
    rw [he]
    exact hnone h

lemma Store.mem_list_iff {s : Store} {t : Tbl} {pfx : String} {v : t.Val} :
    v ∈ s.list t pfx ↔ v ∈ (s t).rows ∧ hasPrefix (t.key v) pfx = true := by
  unfold Store.list
  split
  · next h =>
    refine (and_iff_left ?_).symm
    exact hasPrefix_iff.mpr ⟨t.key v, by rw [h, String.empty_append]⟩
  · exact List.mem_filter

lemma Store.mem_list {s : Store} {t : Tbl} {pfx : String} {v : t.Val} (h : v ∈ s.list t pfx) :
    v ∈ (s t).rows :=
  (Store.mem_list_iff.mp h).1

lemma Store.list_sorted (s : Store) (t : Tbl) (pfx : String) :
    (s.list t pfx).Pairwise fun a b => t.key a < t.key b := by
  unfold Store.list
  split
  · exact (s t).sorted
  · exact (s t).sorted.filter _

/-- No key is listed twice. -/
lemma Store.nodup_list (s : Store) (t : Tbl) (pfx : String) :
    ((s.list t pfx).map t.key).Nodup :=
  List.pairwise_map.mpr ((s.list_sorted t pfx).imp ne_of_lt)

lemma list_bind {f : List t.Val → M β} (h : Holds env P (f (w.store t).rows) w Q) :
    Holds env P (ask (.list t "") >>= f) w Q := by
  refine ⟨trivial, ?_⟩
  change Prog.Sat _ _ (f (w.store.list t "")) w Q
  rw [Store.list, if_pos rfl]
  exact h

/-- A listing under each of several prefixes. -/
lemma lists_bind {γ : Type} {l : List γ} {g : γ → String} {f : List (List t.Val) → M β}
    (h : Holds env P (f (l.map fun x => w.store.list t (g x))) w Q) :
    Holds env P (Prog.mapEach l (fun x => ask (.list t (g x))) >>= f) w Q := by
  have hlists : Prog.Sat (exec env) (Guard P) (Prog.mapEach l fun x => ask (.list t (g x))) w
      fun r w' => r = .ok (l.map fun x => w.store.list t (g x)) ∧ w' = w :=
    Prog.Sat.mapEach_const l fun x _ => ⟨trivial, rfl, rfl⟩
  refine hlists.bind ?_ ?_
  · rintro _ _ ⟨⟨⟩, rfl⟩
    exact h
  · rintro _ _ ⟨⟨⟩, -⟩

lemma listNodes_bind {f : List Node → M β} (h : Holds env P (f w.nodes.rows) w Q) :
    Holds env P (StateStore.listNodes >>= f) w Q := list_bind h

lemma listWorkloads_bind {f : List Workload → M β} (h : Holds env P (f w.workloads.rows) w Q) :
    Holds env P (StateStore.listWorkloads >>= f) w Q := list_bind h

lemma listDeployments_bind {f : List Deployment → M β} (h : Holds env P (f w.deps.rows) w Q) :
    Holds env P (StateStore.listDeployments >>= f) w Q := list_bind h

lemma deployed_bind {id : String} {f : List Workload → M β} (h : Holds env P (f (w.deployed id)) w Q) :
    Holds env P (StateStore.listWorkloadsByDeployment id >>= f) w Q := by
  refine ⟨trivial, ?_⟩
  change Prog.Sat _ _ (f ((w.store.list .workload "").filter _)) w Q
  rw [Store.list, if_pos rfl]
  exact h

end Lookup

/-- One reading: what follows is run, whatever is read, in a quiet successor. -/
lemma reads_bind (hc : c.reads = true) {f : c.Res → M β}
    (h : ∀ a w', Quiet w w' → Holds env P (f a) w' Q) :
    Holds env P (ask c >>= f) w Q := by
  obtain ⟨hs, ht⟩ := exec_reads env hc w
  exact ⟨guard_reads hc w, h _ _ (Quiet.of_store hs ht)⟩

lemma stamp_bind {f : Time → M β}
    (h : ∀ t w', Quiet w w' → Holds env P (f t) w' Q) : Holds env P (timeNow >>= f) w Q :=
  reads_bind (c := .now) rfl h

/-- The mutex does not matter to a run that is not interrupted. -/
lemma withLock_holds {Q : Except Err α → World → Prop} (h : Holds env P p w Q) :
    Holds env P (withLock p) w Q := by
  refine ⟨trivial, ?_⟩
  exact Prog.Sat.attempt_bind h fun r w' hQ => ⟨trivial, hQ⟩

end Orchestrator
