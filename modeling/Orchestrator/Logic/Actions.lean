/-
# The actions of the control plane

An abstract view of what the control plane does to its tables.  An action (`Ctl`) places a
replica, preempts a workload, gives workloads another status, touches a node, or changes,
creates or removes a deployment record.  Every operation of the API and every stage of the
controller is a chain of actions (`Chain`), so that an invariant of the actions is an
invariant of the operations.

This file has the actions, the rules that the calls of the operations obey, and the chains
of one reconcile pass.
-/
import Orchestrator.Logic.Reconcile

namespace Orchestrator

open Lib

/-- The `k`-th deployment id: made from reading `k` of the clock and the random number after
it. -/
def Env.deploymentID (env : Env) (k : ℕ) : String :=
  Orchestrator.deploymentID (env.clock k) (env.rand (k + 1))

/-! ### Actions -/

/-- What an action may do to one workload: nothing, mark it as terminating, or fail it on
its liveness probe. -/
inductive Restatus (u : Workload) : Workload → Prop
  | same : Restatus u u
  | mark (now : Time) (h : u.status ≠ .terminating) (h' : u.status ≠ .terminated) :
      Restatus u (u.marked now)
  | unlive (now : Time) (h : u.status = .running) :
      Restatus u { u with status := .failed, restartCount := u.restartCount + 1, updatedAt := now }

/-- The specification and the history of a deployment after `UpdateDeployment`. -/
def Deployment.updatedTo (d : Deployment) (next : DeploymentSpec) (now : Time) : Deployment :=
  if d.spec ≠ next.inherit d.spec then { d with spec := next.inherit d.spec }.appendRevision now
  else { d with spec := next.inherit d.spec }

/-- What an action may do to the core of a deployment record; `S` holds of the resources that
an update may ask for. -/
inductive DepChange (S : Resource → Prop) (d d' : Deployment) : Prop
  | touch (h : d'.core = d.core.viaJSON ∨ d'.core = d.prepared.core.viaJSON)
  | rollback (d₀ : Deployment) (h₀ : d₀ = d ∨ d₀ = d.prepared) (rev : ℤ)
      (target : DeploymentRevision) (now : Time) (ht : d₀.revision? rev = some target)
      (h : d'.core = (d₀.rollbackTo target now).core.viaJSON)
  | scale (replicas : Int64)
      (h : d'.core = { d.core with spec := { d.spec with replicas := replicas } }.viaJSON)
  | update (next : DeploymentSpec) (now : Time) (hS : S next.resources)
      (h : d'.core = (d.updatedTo next now).core.viaJSON)
  | mark (now : Time) (h : d'.core = { d.core with deletionTimestamp := some now }.viaJSON)

/-- One action of the control plane. -/
inductive Ctl (env : Env) (S : Resource → Prop) (w w' : World) : Prop
  | quiet (A : Table Assignment (Tbl.key .assignment)) (h : Eff w w' w.nodes w.deps w.workloads A)
  | place (d : Deployment) (hd : d ∈ w.deps.rows) (hlive : d.deletionTimestamp = none)
      (h : Placed env d.prepared w w')
  | evict (d : Deployment) (hd : d ∈ w.deps.rows) (h : Evicted d.prepared w w')
  | status (g : Workload → Workload) (W : Table Workload Workload.id)
      (A : Table Assignment (Tbl.key .assignment))
      (hg : ∀ u ∈ w.workloads.rows, Restatus u (g u)) (hW : W.rows = w.workloads.rows.map g)
      (h : Eff w w' w.nodes w.deps W A)
  | node (n : Node) (status : NodeStatus) (health : NodeHealth) (seen : Time)
      (hn : n ∈ w.nodes.rows)
      (h : Eff w w' (w.nodes.put { n with status := status, health := health, lastSeen := seen })
        w.deps w.workloads w.queue)
  | dep (d d' : Deployment) (hd : d ∈ w.deps.rows) (hd' : DepChange S d d')
      (h : Eff w w' w.nodes (w.deps.put d') w.workloads w.queue)
  | create (spec : DeploymentSpec) (k : ℕ) (hS : S spec.resources)
      (hnew : w.deps.get (env.deploymentID k) = none) (hk : w.tick ≤ k) (hk' : k < w'.tick)
      (h : Eff w w' w.nodes
        (w.deps.put (newDeployment (env.deploymentID k) spec.withDefaults.admitted
          (env.clock k)).viaJSON) w.workloads w.queue)
  | remove (d : Deployment) (hd : d ∈ w.deps.rows)
      (hall : ∀ v ∈ w.deployed d.id, v.status = .terminated)
      (h : Eff w w' w.nodes (w.deps.del d.id)
        (w.workloads.delWhere fun v => v.deploymentID = d.id) w.queue)

/-- A finite sequence of actions. -/
abbrev Chain (env : Env) (S : Resource → Prop) : World → World → Prop :=
  Relation.ReflTransGen (Ctl env S)

variable {env : Env} {S : Resource → Prop} {w w' w₁ : World} {d : Deployment} {o : Config}

lemma Quiet.chain (h : Quiet w w') : Chain env S w w' := .single (.quiet _ h)

lemma DepChange.id_eq {d d' : Deployment} (h : DepChange S d d') : d'.id = d.id := by
  cases h with
  | touch h => rcases h with h | h <;> exact congrArg DepCore.id h
  | rollback d₀ h₀ rev target now ht h =>
    have hid : d'.id = d₀.id := congrArg DepCore.id h
    rcases h₀ with rfl | rfl <;> exact hid
  | scale replicas h => exact congrArg DepCore.id h
  | update next now hS h =>
    have hid : d'.id = (d.updatedTo next now).id := congrArg DepCore.id h
    rw [hid, Deployment.updatedTo]
    split <;> rfl
  | mark now h => exact congrArg DepCore.id h

/-! ### What one action can do -/

lemma Restatus.fields {u v : Workload} (h : Restatus u v) :
    v.id = u.id ∧ v.nodeID = u.nodeID ∧ v.resources = u.resources ∧
      v.deploymentID = u.deploymentID ∧ v.version = u.version ∧ v.image = u.image ∧
      v.priority = u.priority := by
  cases h <;> exact ⟨rfl, rfl, rfl, rfl, rfl, rfl, rfl⟩

lemma Restatus.live {u v : Workload} (h : Restatus u v) (hu : u.status ≠ .terminated) :
    v.status ≠ .terminated := by
  cases h with
  | same => exact hu
  | mark now _ _ => nofun
  | unlive now _ => nofun

lemma Ctl.tick_le (h : Ctl env S w w') : w.tick ≤ w'.tick := by
  rcases h with ⟨_, h⟩ | ⟨_, -, -, _, _, _, _, _, -, -, -, -, -, -, h⟩ | ⟨_, -, _, _, _, -, h⟩ |
    ⟨_, _, _, -, -, h⟩ | ⟨_, _, _, _, -, h⟩ | ⟨_, _, -, -, h⟩ | ⟨_, _, -, -, -, -, h⟩ | ⟨_, -, -, h⟩
  all_goals exact h.tick

lemma Chain.tick_le (h : Chain env S w w') : w.tick ≤ w'.tick := by
  induction h with
  | refl => exact le_rfl
  | tail _ hstep ih => exact ih.trans hstep.tick_le

/-- A workload record that is new: a replica of a stored deployment that is not being
deleted, on a node that passes the filters, under an id drawn by the action. -/
def Spawned (env : Env) (w w' : World) (v : Workload) : Prop :=
  ∃ d ∈ w.deps.rows, d.deletionTimestamp = none ∧ ∃ n ∈ w.nodes.rows, IsReplica d.prepared n v ∧
    ∃ k, v.id = env.workloadID k ∧ w.tick ≤ k ∧ k < w'.tick

/-- The workloads after an action: those from before, some with another status, and at most
one new replica. -/
lemma Ctl.workload_cases (h : Ctl env S w w') {v : Workload} (hv : v ∈ w'.workloads.rows) :
    (∃ u ∈ w.workloads.rows, Restatus u v) ∨ Spawned env w w' v := by
  have hsame : v ∈ w.workloads.rows → ∃ u ∈ w.workloads.rows, Restatus u v :=
    fun hv => ⟨v, hv, .same⟩
  cases h with
  | quiet A h =>
    rw [h.workloads] at hv
    exact Or.inl (hsame hv)
  | place d hd hlive h =>
    obtain ⟨n, u, k, seen, A, hn, -, hrep, hid, hk, hk', h⟩ := h
    rw [h.workloads, Table.mem_rows_put] at hv
    rcases hv with rfl | ⟨hv, -⟩
    · exact Or.inr ⟨d, hd, hlive, n, hn, hrep, k, hid, hk, hk'⟩
    · exact Or.inl (hsame hv)
  | evict d hd h =>
    obtain ⟨u, n, seen, -, h⟩ := h
    rw [h.workloads, Table.mem_rows_del] at hv
    exact Or.inl (hsame hv.1)
  | status g W A hg hW h =>
    rw [h.workloads, hW] at hv
    obtain ⟨u, hu, rfl⟩ := List.mem_map.mp hv
    exact Or.inl ⟨u, hu, hg u hu⟩
  | node n status health seen hn h =>
    rw [h.workloads] at hv
    exact Or.inl (hsame hv)
  | dep d d' hd hd' h =>
    rw [h.workloads] at hv
    exact Or.inl (hsame hv)
  | create spec k hS hnew hk hk' h =>
    rw [h.workloads] at hv
    exact Or.inl (hsame hv)
  | remove d hd hall h =>
    rw [h.workloads, Table.mem_rows_delWhere] at hv
    exact Or.inl (hsame hv.1)

/-- The deployments after an action: those from before, at most one of them changed, and at
most one new. -/
lemma Ctl.dep_cases (h : Ctl env S w w') {d : Deployment} (hd : d ∈ w'.deps.rows) :
    d ∈ w.deps.rows ∨ (∃ e ∈ w.deps.rows, DepChange S e d) ∨
    ∃ (spec : DeploymentSpec) (k : ℕ), S spec.resources ∧ w.deps.get (env.deploymentID k) = none ∧
      w.tick ≤ k ∧
      k < w'.tick ∧ d = (newDeployment (env.deploymentID k) spec.withDefaults.admitted
        (env.clock k)).viaJSON := by
  cases h with
  | quiet A h =>
    rw [h.deps] at hd
    exact Or.inl hd
  | place d₀ _ _ h =>
    obtain ⟨_, _, _, _, _, -, -, -, -, -, -, h⟩ := h
    rw [h.deps] at hd
    exact Or.inl hd
  | evict d₀ _ h =>
    obtain ⟨_, _, _, -, h⟩ := h
    rw [h.deps] at hd
    exact Or.inl hd
  | status g W A hg hW h =>
    rw [h.deps] at hd
    exact Or.inl hd
  | node n status health seen hn h =>
    rw [h.deps] at hd
    exact Or.inl hd
  | dep e e' he he' h =>
    rw [h.deps, Table.mem_rows_put] at hd
    rcases hd with rfl | ⟨hd, -⟩
    · exact Or.inr (Or.inl ⟨e, he, he'⟩)
    · exact Or.inl hd
  | create spec k hS hnew hk hk' h =>
    rw [h.deps, Table.mem_rows_put] at hd
    rcases hd with rfl | ⟨hd, -⟩
    · exact Or.inr (Or.inr ⟨spec, k, hS, hnew, hk, hk', rfl⟩)
    · exact Or.inl hd
  | remove e _ _ h =>
    rw [h.deps, Table.mem_rows_del] at hd
    exact Or.inl hd.1

/-! ### The rules of the control plane -/

/-- A workload that a deployment of higher priority may preempt. -/
def Outranked (id : String) (w : World) : Prop :=
  ∃ v ∈ w.workloads.rows, v.id = id ∧
    ∃ d ∈ w.deps.rows, v.priority < d.spec.priority ∧ v.deploymentID ≠ d.id

/-- A workload record that may be stored: it is not `Terminated`, and it is the record of a
stored workload or belongs to a deployment that is not being deleted. -/
def Storable (v : Workload) (w : World) : Prop :=
  v.status ≠ .terminated ∧
    ((∃ u ∈ w.workloads.rows, v.id = u.id ∧ v.deploymentID = u.deploymentID) ∨
      ∃ d ∈ w.deps.rows, d.id = v.deploymentID ∧ d.deletionTimestamp = none)

/-- The rules that every operation obeys: jobs ask for resources in `S`, and workload records
are removed by preemption or by a report on a workload in `R`. -/
def planeRules (S : Resource → Prop) (R : String → Prop) : Rules where
  removes id w := R id ∨ Outranked id w
  stores := Storable
  requests := S
  restatus hu hid hdep hv := ⟨hv, Or.inl ⟨_, hu, hid, hdep⟩⟩

/-- The rules of a run in which any resources may be asked for and any workload reported. -/
abbrev openRules : Rules := planeRules (fun _ => True) fun _ => True

variable {R : String → Prop}

/-- A stored deployment that is not being deleted may have replicas placed. -/
lemma allows_prepared {D : Table Deployment Deployment.id} (hd : d ∈ D.rows)
    (hlive : d.deletionTimestamp = none) : Allows (planeRules S R) d.prepared D where
  preempt := by
    rintro v w rfl hv hprio hdep
    exact Or.inr ⟨v, hv, rfl, d, hd, hprio, hdep⟩
  place := by
    rintro v w rfl hdep hstatus
    refine ⟨by rw [hstatus]; nofun, Or.inr ⟨d, hd, hdep.symm, hlive⟩⟩

/-! ### The chains of a reconcile pass -/

lemma Cleared.chain (hd : d ∈ w.deps.rows) (h : Cleared d.prepared w w') : Chain env S w w' := by
  rcases h with ⟨-, h⟩ | ⟨-, h⟩
  · exact h.chain
  · exact .single (.evict d hd h)

lemma Creation.chain {r : Except Err Unit} (hd : d ∈ w.deps.rows)
    (hlive : d.deletionTimestamp = none) (h : Creation env d.prepared w r w') :
    Chain env S w w' := by
  rcases h with ⟨-, ⟨w₁, hcl, hpl⟩, -⟩ | ⟨-, -, h | h⟩
  · refine (hcl.chain hd).tail (.place d ?_ hlive hpl)
    rwa [hcl.deps]
  · exact h.chain
  · exact .single (.evict d hd h)

lemma PlacedMany.chain {n : ℕ} (hd : d ∈ w.deps.rows) (hlive : d.deletionTimestamp = none)
    (h : PlacedMany env d.prepared n w w') : Chain env S w w' := by
  induction h with
  | zero w => exact .refl
  | succ h hs ih =>
    refine (h.chain hd hlive).trans (ih ?_)
    rwa [h.deps]

lemma Creations.chain {n : ℕ} {r : Option Err} (hd : d ∈ w.deps.rows)
    (hlive : d.deletionTimestamp = none) (h : Creations env d.prepared n w r w') :
    Chain env S w w' := by
  cases r with
  | none => exact PlacedMany.chain hd hlive h
  | some e =>
    obtain ⟨j, w₁, -, hs, hc⟩ := h
    refine (hs.chain hd hlive).trans (hc.chain ?_ hlive)
    rwa [hs.deps]

lemma Creations.deps {n : ℕ} {r : Option Err} {dep : Deployment}
    (h : Creations env dep n w r w') : w'.deps = w.deps := by
  cases r with
  | none => exact PlacedMany.deps h
  | some e =>
    obtain ⟨j, w₁, -, hs, hc⟩ := h
    rw [hc.deps, hs.deps]

/-- Another status for one stored workload is an action. -/
lemma chain_restatus {v : Workload} {g : Workload → Workload}
    {A : Table Assignment (Tbl.key .assignment)} (hv : v ∈ w.workloads.rows)
    (hid : (g v).id = v.id) (hg : Restatus v (g v))
    (he : Eff w w' w.nodes w.deps (w.workloads.put (g v)) A) : Chain env S w w' := by
  refine .single (.status (fun u => if u.id = v.id then g u else u) _ A ?_
    (Table.rows_put_modified hv hid) he)
  intro u hu
  split
  · next h =>
    obtain rfl : u = v := Table.eq_of_mem_of_key_eq hu hv h
    exact hg
  · exact .same

/-- Marking stored workloads that are neither terminating nor terminated is an action. -/
lemma MarkedBy.chain {vs : List Workload} (hvs : ∀ v ∈ vs, v ∈ w.workloads.rows ∧
      v.status ≠ .terminating ∧ v.status ≠ .terminated) (h : MarkedBy vs w w') :
    Chain env S w w' := by
  obtain ⟨τ, W, A, he, hW, -⟩ := h
  refine .single (.status _ W A ?_ hW he)
  intro u hu
  split
  · next hid =>
    obtain ⟨v, hv, hvu⟩ := List.mem_map.mp hid
    obtain ⟨hmem, h₁, h₂⟩ := hvs v hv
    obtain rfl : v = u := Table.eq_of_mem_of_key_eq hmem hu hvu
    exact .mark _ h₁ h₂
  · exact .same

lemma MarkedBy.deps {vs : List Workload} (h : MarkedBy vs w w') : w'.deps = w.deps := by
  obtain ⟨τ, W, A, he, -⟩ := h
  exact he.deps

/-- Victims picked among stored workloads can be marked. -/
lemma markable_victims {l : List Workload} (hl : ∀ v ∈ l, v ∈ w.workloads.rows) (count : ℤ) :
    ∀ v ∈ pickScaleDownVictims l count,
      v ∈ w.workloads.rows ∧ v.status ≠ .terminating ∧ v.status ≠ .terminated := by
  intro v hv
  obtain ⟨hmem, hact⟩ := mem_pickScaleDownVictims hv
  refine ⟨hl v hmem, ?_, ?_⟩
  · intro h
    simp [Workload.active, h] at hact
  · intro h
    simp [Workload.active, h] at hact

lemma mem_activeOf {id : String} {v : Workload} :
    v ∈ w.activeOf id ↔ v ∈ w.deployed id ∧ v.active = true := List.mem_filter

lemma ScaledDown.chain {dep : Deployment} {minAvailable : ℤ}
    (h : ScaledDown dep minAvailable w w') : Chain env S w w' := by
  obtain ⟨w₁, h₁, h₂⟩ := h
  refine Relation.ReflTransGen.trans (h₁.chain (markable_victims ?_ _))
    (h₂.chain (markable_victims ?_ _))
  · intro v hv
    exact (mem_deployed.mp (mem_activeOf.mp (List.mem_filter.mp hv).1).1).1
  · intro v hv
    exact (mem_deployed.mp (mem_activeOf.mp hv).1).1

lemma ScaledDown.deps {dep : Deployment} {minAvailable : ℤ}
    (h : ScaledDown dep minAvailable w w') : w'.deps = w.deps := by
  obtain ⟨w₁, h₁, h₂⟩ := h
  rw [h₂.deps, h₁.deps]

/-- What a pass over `d` writes back. -/
def PassRecord (d d' : Deployment) : Prop :=
  d'.core = d.prepared.core.viaJSON ∨ ∃ target now,
    d.prepared.revision? (d.prepared.currentRevision - 1) = some target ∧
    d'.core = (d.prepared.rollbackTo target now).core.viaJSON

lemma PassRecord.depChange {d' : Deployment} (h : PassRecord d d') : DepChange S d d' := by
  rcases h with h | ⟨target, now, ht, h⟩
  · exact .touch (Or.inr h)
  · exact .rollback _ (Or.inr rfl) _ target now ht h

lemma PassRecord.deletionTimestamp {d' : Deployment} (h : PassRecord d d') :
    d'.deletionTimestamp = d.deletionTimestamp := by
  rcases h with h | ⟨target, now, -, h⟩ <;> exact congrArg DepCore.deletionTimestamp h

/-- A pass is a chain of actions that leaves the deployment records alone, and one that
writes a record back. -/
lemma Reconciled.chain (hd : d ∈ w.deps.rows) (hlive : d.deletionTimestamp = none)
    (h : Reconciled env o d w w') : ∃ w₁ d', Chain env S w w₁ ∧ w₁.deps = w.deps ∧
      PassRecord d d' ∧ Eff w₁ w' w₁.nodes (w₁.deps.put d') w₁.workloads w₁.queue := by
  have hq := quiet_afterDeadlineCheck env d.prepared w
  have hd₀ : d ∈ (afterDeadlineCheck env d.prepared w).deps.rows := by rwa [hq.deps]
  rcases h with ⟨-, h | ⟨target, now, ht, h⟩⟩ | ⟨-, r, w₁, -, hc, hend⟩
  · obtain ⟨d', hd', he⟩ := h
    exact ⟨_, d', hq.chain, hq.deps, Or.inl hd', he⟩
  · obtain ⟨d', hd', he⟩ := h
    exact ⟨_, d', hq.chain, hq.deps, Or.inr ⟨target, now, ht, hd'⟩, he⟩
  · have hchain : Chain env S w w₁ := hq.chain.trans (hc.chain hd₀ hlive)
    have hdeps : w₁.deps = w.deps := hc.deps.trans hq.deps
    cases r with
    | some e =>
      obtain ⟨d', hd', he⟩ := hend
      exact ⟨w₁, d', hchain, hdeps, Or.inl hd', he⟩
    | none =>
      obtain ⟨w₂, hscale, d', hd', he⟩ := hend
      split at hscale
      · subst hscale
        exact ⟨w₂, d', hchain, hdeps, Or.inl hd', he⟩
      · exact ⟨w₂, d', hchain.trans hscale.chain, hscale.deps.trans hdeps, Or.inl hd', he⟩

/-- The records after `reconcileDeletion`: unchanged, touched, or without the one of `d`. -/
lemma DeletionStep.chain (hd : d ∈ w.deps.rows) (h : DeletionStep d w w') :
    Chain env S w w' ∧ (w'.deps = w.deps ∨ w'.deps = w.deps.del d.id ∨
      ∃ d', d'.core = d.core.viaJSON ∧ w'.deps = w.deps.put d') := by
  rcases h with h | ⟨hall, ⟨d', hd', he⟩ | he⟩
  · refine ⟨h.chain ?_, Or.inl h.deps⟩
    intro v hv
    obtain ⟨hmem, hstatus⟩ := List.mem_filter.mp hv
    simp only [not_or, decide_eq_true_eq] at hstatus
    exact ⟨(mem_deployed.mp hmem).1, hstatus⟩
  · exact ⟨.single (.dep d d' hd (.touch (Or.inl hd')) he), Or.inr (Or.inr ⟨d', hd', he.deps⟩)⟩
  · exact ⟨.single (.remove d hd hall he), Or.inr (Or.inl he.deps)⟩

end Orchestrator
