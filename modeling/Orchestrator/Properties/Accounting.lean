/-
# Resource accounting

The counter `Used` of a node against the requests of the workloads stored for it.

As long as only the control plane writes the counters, they are exact: in every reachable
state `Used` is the sum of the requests, and it is within what is allocatable.  With the
workers in the picture, whose heartbeats overwrite the counter with their own count, the
load stays within what is allocatable if every count that is written covers the load; it
need not stay there otherwise.
-/
import Orchestrator.Logic.Booking
import Orchestrator.System

namespace Orchestrator

open Lib

variable {env : Env} {o : Config} {w w' : World} {ρ : ℤ → ℤ → Prop}

/-! ### What is known of the records -/

/-- The facts about the records that the books rest on. -/
structure Sound (env : Env) (w : World) : Prop where
  sized : ∀ v ∈ w.workloads.rows, v.resources.Nonneg
  ids : ∀ v ∈ w.workloads.rows, ∃ k < w.tick, v.id = env.workloadID k
  live : ∀ v ∈ w.workloads.rows, v.status ≠ .terminated
  specs : ∀ d ∈ w.deps.rows, d.spec.resources.Nonneg
  history : ∀ d ∈ w.deps.rows, ∀ h ∈ d.revisionHistory, h.spec.resources.Nonneg

lemma Resource.Nonneg.orElse {r r' : Resource} (h : r.Nonneg) (h' : r'.Nonneg) :
    Resource.Nonneg
      { milliCPU := if r.milliCPU = 0 then r'.milliCPU else r.milliCPU
        memoryMB := if r.memoryMB = 0 then r'.memoryMB else r.memoryMB } := by
  intro k
  cases k with
  | cpu =>
    change 0 ≤ (if r.milliCPU = 0 then r'.milliCPU else r.milliCPU).toInt
    split
    · exact h' .cpu
    · exact h .cpu
  | mem =>
    change 0 ≤ (if r.memoryMB = 0 then r'.memoryMB else r.memoryMB).toInt
    split
    · exact h' .mem
    · exact h .mem

/-- Specification and history of a core request non-negative amounts. -/
def DepCore.Nonneg (c : DepCore) : Prop :=
  c.spec.resources.Nonneg ∧ ∀ h ∈ c.revisionHistory, h.spec.resources.Nonneg

lemma DepCore.Nonneg.viaJSON {c : DepCore} (h : c.Nonneg) : c.viaJSON.Nonneg := by
  refine ⟨h.1, ?_⟩
  intro r hr
  obtain ⟨r', hr', rfl⟩ := List.mem_map.mp hr
  exact h.2 r' hr'

lemma nonneg_rollbackTo {d : Deployment} {target : DeploymentRevision} {rev : ℤ} {now : Time}
    (h : d.core.Nonneg) (ht : d.revision? rev = some target) :
    (d.rollbackTo target now).core.Nonneg := by
  have htarget : target.spec.resources.Nonneg := h.2 target (List.mem_of_find?_eq_some ht)
  refine ⟨htarget, ?_⟩
  intro r hr
  rcases List.mem_append.mp hr with hr | hr
  · exact h.2 r hr
  · rw [List.mem_singleton.mp hr]
    exact htarget

lemma nonneg_updatedTo {d : Deployment} {next : DeploymentSpec} (now : Time) (h : d.core.Nonneg)
    (hnext : next.resources.Nonneg) : (d.updatedTo next now).core.Nonneg := by
  have hspec : (next.inherit d.spec).resources.Nonneg := Resource.Nonneg.orElse hnext h.1
  unfold Deployment.updatedTo
  split
  · refine ⟨hspec, ?_⟩
    intro r hr
    rcases List.mem_append.mp hr with hr | hr
    · exact h.2 r hr
    · rw [List.mem_singleton.mp hr]
      exact hspec
  · exact ⟨hspec, h.2⟩

lemma DepChange.nonneg {d d' : Deployment} (hc : DepChange Resource.Nonneg d d')
    (h : d.core.Nonneg) : d'.core.Nonneg := by
  cases hc with
  | touch hc => rcases hc with hc | hc <;> rw [hc] <;> exact DepCore.Nonneg.viaJSON h
  | rollback d₀ h₀ rev target now ht hc =>
    have h₀' : d₀.core.Nonneg := by rcases h₀ with rfl | rfl <;> exact h
    rw [hc]
    exact (nonneg_rollbackTo h₀' ht).viaJSON
  | scale replicas hc =>
    rw [hc]
    exact DepCore.Nonneg.viaJSON h
  | update next now hS hc =>
    rw [hc]
    exact (nonneg_updatedTo now h hS).viaJSON
  | mark now hc =>
    rw [hc]
    exact DepCore.Nonneg.viaJSON h

lemma nonneg_newDeployment {spec : DeploymentSpec} (h : spec.resources.Nonneg) (id : String)
    (now : Time) : (newDeployment id spec.withDefaults.admitted now).core.Nonneg := by
  have hdefault : Resource.Nonneg { milliCPU := 250, memoryMB := 256 } := by
    intro k
    cases k <;> decide
  have hor := h.orElse hdefault
  have hspec : spec.withDefaults.admitted.resources.Nonneg := hor
  refine ⟨hspec, ?_⟩
  intro r hr
  rw [List.mem_singleton.mp hr]
  exact hspec

/-- An action keeps what is known of the records. -/
lemma Ctl.sound (h : Ctl env Resource.Nonneg w w') (hs : Sound env w) : Sound env w' := by
  have htick := h.tick_le
  have hdep : ∀ d ∈ w'.deps.rows, d.core.Nonneg := by
    intro d hd
    rcases h.dep_cases hd with hd | ⟨e, he, hch⟩ | ⟨spec, k, hS, -, -, -, rfl⟩
    · exact ⟨hs.specs d hd, hs.history d hd⟩
    · exact hch.nonneg ⟨hs.specs e he, hs.history e he⟩
    · exact (nonneg_newDeployment hS _ _).viaJSON
  refine ⟨?_, ?_, ?_, fun d hd => (hdep d hd).1, fun d hd => (hdep d hd).2⟩
  · intro v hv
    rcases h.workload_cases hv with ⟨u, hu, hr⟩ | ⟨d, hd, -, n, -, hrep, -⟩
    · rw [hr.fields.2.2.1]
      exact hs.sized u hu
    · rw [hrep.resources]
      exact hs.specs d hd
  · intro v hv
    rcases h.workload_cases hv with ⟨u, hu, hr⟩ | ⟨d, hd, -, n, -, -, k, hid, -, hk⟩
    · obtain ⟨k, hk, hid⟩ := hs.ids u hu
      exact ⟨k, hk.trans_le htick, hr.fields.1.trans hid⟩
    · exact ⟨k, hk, hid⟩
  · intro v hv
    rcases h.workload_cases hv with ⟨u, hu, hr⟩ | ⟨d, hd, -, n, -, hrep, -⟩
    · exact hr.live (hs.live u hu)
    · rw [hrep.status]
      nofun

lemma Sound.of_eq (hs : Sound env w) (hW : w'.workloads = w.workloads) (hD : w'.deps = w.deps)
    (ht : w.tick ≤ w'.tick) : Sound env w' := by
  refine ⟨?_, ?_, ?_, ?_, ?_⟩
  · rw [hW]
    exact hs.sized
  · intro v hv
    rw [hW] at hv
    obtain ⟨k, hk, hid⟩ := hs.ids v hv
    exact ⟨k, hk.trans_le ht, hid⟩
  · rw [hW]
    exact hs.live
  · rw [hD]
    exact hs.specs
  · rw [hD]
    exact hs.history

/-! ### The invariant -/

/-- The books are kept, and the records are sound. -/
structure Accounts (env : Env) (ρ : ℤ → ℤ → Prop) (w : World) : Prop where
  sound : Sound env w
  booked : Booked ρ w.nodes w.workloads

section Step

variable (hρ : Tolerates ρ) (hids : Function.Injective env.workloadID)
include hids

/-- An id drawn now is not in use. -/
lemma Sound.get_workloadID (hs : Sound env w) {k : ℕ} (hk : w.tick ≤ k) :
    w.workloads.get (env.workloadID k) = none := by
  rw [Table.get_eq_none_iff]
  intro v hv hid
  obtain ⟨j, hj, hvid⟩ := hs.ids v hv
  have hjk : j = k := hids (hvid.symm.trans hid)
  omega

include hρ

/-- **An action keeps the books.** -/
lemma Ctl.accounts (h : Ctl env Resource.Nonneg w w') (hw : Accounts env ρ w) :
    Accounts env ρ w' := by
  refine ⟨h.sound hw.sound, ?_⟩
  have hb := hw.booked
  cases h with
  | quiet A h => rwa [h.nodes, h.workloads]
  | place d hd hlive h =>
    obtain ⟨n, v, k, seen, A, hn, hhost, hrep, hid, hk, -, h⟩ := h
    have hnew : w.workloads.get v.id = none := by
      rw [hid]
      exact hw.sound.get_workloadID hids hk
    have hfit := hosts_fits hhost
    have hv : v.resources.Nonneg := by
      rw [hrep.resources]
      exact hw.sound.specs d hd
    rw [h.nodes, h.workloads, ← hrep.resources]
    rw [← hrep.resources] at hfit
    exact hb.reserve hρ hw.sound.sized hn hfit hv hrep.nodeID hnew seen
  | evict d hd h =>
    obtain ⟨v, n, seen, hv, h⟩ := h
    obtain ⟨hmem, -, -, hn, hnode, -⟩ := preemptionVictim_some hv
    rw [h.nodes, h.workloads]
    exact hb.release hρ hw.sound.sized hn hmem hnode seen
  | status g W A hg hW h =>
    rw [h.nodes, h.workloads]
    refine hb.map hW ?_
    intro u hu
    exact ⟨(hg u hu).fields.2.1, (hg u hu).fields.2.2.1⟩
  | node n status health seen hn h =>
    rw [h.nodes, h.workloads]
    exact hb.touch hn rfl rfl rfl
  | dep d d' hd hd' h => rwa [h.nodes, h.workloads]
  | create spec k hS hnew hk hk' h => rwa [h.nodes, h.workloads]
  | remove d hd hall h =>
    -- the cascade meets no workload, since none is stored as terminated
    have hnone : ∀ v ∈ w.workloads.rows, decide (v.deploymentID = d.id) = false := by
      intro v hv
      rw [decide_eq_false_iff_not]
      intro hdep
      exact hw.sound.live v hv (hall v (mem_deployed.mpr ⟨hv, hdep⟩))
    rw [h.nodes, h.workloads, Table.delWhere_of_forall_false hnone]
    exact hb

lemma Chain.accounts (h : Chain env Resource.Nonneg w w') (hw : Accounts env ρ w) :
    Accounts env ρ w' := by
  induction h with
  | refl => exact hw
  | tail _ hstep ih => exact hstep.accounts hρ hids ih

omit hids in
/-- A termination gives the reservation back. -/
lemma Released.accounts {u : Workload} (h : Released u w w') (hw : Accounts env ρ w) :
    Accounts env ρ w' := by
  obtain ⟨hu, seen, h⟩ := h
  have hmem : ∀ v ∈ w'.workloads.rows, v ∈ w.workloads.rows := by
    intro v hv
    rw [h.workloads] at hv
    exact (Table.mem_rows_del.mp hv).1
  have hs := hw.sound
  refine ⟨⟨fun v hv => hs.sized v (hmem v hv), ?_, fun v hv => hs.live v (hmem v hv), ?_, ?_⟩, ?_⟩
  · intro v hv
    obtain ⟨k, hk, hid⟩ := hs.ids v (hmem v hv)
    exact ⟨k, hk.trans_le h.tick, hid⟩
  · rw [h.deps]
    exact hs.specs
  · rw [h.deps]
    exact hs.history
  · obtain ⟨n, hn, hnode⟩ := hw.booked.hosted u hu
    have hget : w.nodes.get u.nodeID = some n := by
      rw [← hnode]
      exact Table.get_of_mem hn
    rw [h.nodes, h.workloads, nodesAfterRelease, hget]
    exact hw.booked.release hρ hs.sized hn hu hnode seen

omit hids hρ in
/-- Another status changes no booking. -/
lemma Restated.accounts {u : Workload} {status : WorkloadStatus} (hst : status ≠ .terminated)
    (h : Restated u status w w') (hw : Accounts env ρ w) : Accounts env ρ w' := by
  obtain ⟨hu, cid, now, h⟩ := h
  have hs := hw.sound
  have hrows : w'.workloads.rows = w.workloads.rows.map fun v =>
      if v.id = u.id then { v.reported status cid with updatedAt := now } else v := by
    rw [h.workloads]
    exact Table.rows_put_modified (g := fun v => { v.reported status cid with updatedAt := now })
      hu rfl
  have hfrom : ∀ v ∈ w'.workloads.rows, ∃ x ∈ w.workloads.rows, v.id = x.id ∧
      v.resources = x.resources ∧ (v.status = x.status ∨ v.status = status) := by
    intro v hv
    rw [hrows] at hv
    obtain ⟨x, hx, rfl⟩ := List.mem_map.mp hv
    refine ⟨x, hx, ?_⟩
    split
    · exact ⟨rfl, rfl, Or.inr rfl⟩
    · exact ⟨rfl, rfl, Or.inl rfl⟩
  refine ⟨⟨?_, ?_, ?_, ?_, ?_⟩, ?_⟩
  · intro v hv
    obtain ⟨x, hx, -, hres, -⟩ := hfrom v hv
    rw [hres]
    exact hs.sized x hx
  · intro v hv
    obtain ⟨x, hx, hid, -⟩ := hfrom v hv
    obtain ⟨k, hk, hxid⟩ := hs.ids x hx
    exact ⟨k, hk.trans_le h.tick, hid.trans hxid⟩
  · intro v hv
    obtain ⟨x, hx, -, -, hvs | hvs⟩ := hfrom v hv
    · rw [hvs]
      exact hs.live x hx
    · rwa [hvs]
  · rw [h.deps]
    exact hs.specs
  · rw [h.deps]
    exact hs.history
  · rw [h.nodes]
    refine hw.booked.map hrows ?_
    intro v _
    split <;> exact ⟨rfl, rfl⟩

lemma Reported.accounts {id : String} {status : WorkloadStatus}
    (h : Reported id status w w') (hw : Accounts env ρ w) :
    Accounts env ρ w' := by
  rcases h with ⟨-, rfl⟩ | ⟨u, -, ⟨hst, h⟩ | ⟨-, w₁, h, hs⟩⟩
  · exact hw
  · exact h.accounts hst hw
  · exact Chain.accounts hρ hids hs.chain (h.accounts hρ hw)

omit hids hρ in
/-- A node record is written from outside, with a count that covers the load. -/
lemma Accounts.put_node {n : Node} (hw : Accounts env ρ w)
    (hbook : ∀ k, ρ (load w.workloads n.id k) (n.used.amount k))
    (hroom : ∀ k, load w.workloads n.id k ≤ n.allocatable.amount k)
    (h : Eff w w' (w.nodes.put n) w.deps w.workloads w.queue) : Accounts env ρ w' := by
  refine ⟨hw.sound.of_eq h.workloads h.deps h.tick, ?_⟩
  rw [h.nodes, h.workloads]
  exact hw.booked.put hbook hroom (fun _ _ _ => rfl) fun _ hv => Or.inl hv

end Step

/-! ### Runs -/

/-- The counts that an event writes from outside are related to the loads: the count of a
registration, within what the node offers, and the count of a heartbeat. -/
def Event.Covers (ρ : ℤ → ℤ → Prop) (e : Event) (s : Sys) : Prop :=
  e.Asks Resource.Nonneg ∧
  match e with
  | .registerNode node => ∀ k, ρ (load s.world.workloads node.id k) (node.used.amount k) ∧
      load s.world.workloads node.id k ≤ node.withDefaults.allocatable.amount k
  | .heartbeat node => ∀ k,
      ρ (load s.world.workloads (s.runner node).nodeID k) ((s.runner node).used.amount k)
  | _ => True

lemma accounts_init : Accounts env ρ Sys.init.world := by
  constructor
  · constructor <;> intro _ h <;> cases h
  · constructor <;> intro _ h <;> cases h

lemma requestsIn_init {S : Resource → Prop} : RequestsIn S Sys.init.world := by
  rintro r (⟨j, hj, -⟩ | ⟨c, hc, -⟩)
  · cases hj
  · cases hc

/-- **A step keeps the books** if what it writes from outside covers the loads. -/
theorem Sys.step_accounts (hρ : Tolerates ρ) (hids : Function.Injective env.workloadID) {s : Sys}
    {e : Event} (he : e.Covers ρ s)
    (h : RequestsIn Resource.Nonneg s.world ∧ Accounts env ρ s.world) :
    RequestsIn Resource.Nonneg (s.step env o e).world ∧ Accounts env ρ (s.step env o e).world := by
  obtain ⟨hreq, hw⟩ := h
  have hstep : Caused env _ s e (s.step env o e).world ∧ _ := Sys.step_caused hreq he.1
  refine ⟨hstep.2, ?_⟩
  generalize (s.step env o e).world = w' at hstep
  obtain ⟨hcaused, -⟩ := hstep
  obtain ⟨-, he⟩ := he
  cases hcaused with
  | actions h => exact Chain.accounts hρ hids h hw
  | registered node hnode w₁ h hc =>
    subst hnode
    obtain ⟨health, seen, h⟩ := h
    refine Chain.accounts hρ hids hc (hw.put_node
      (n := { node.withDefaults with health := health, lastSeen := seen }) ?_ ?_ h)
    · exact fun k => (he k).1
    · exact fun k => (he k).2
  | beat node hnode h =>
    subst hnode
    obtain ⟨n, health, seen, hn, h⟩ := h
    have hid : n.id = (s.runner node).nodeID := Table.key_of_get hn
    refine hw.put_node ?_ ?_ h
    · intro k
      rw [hid]
      exact he k
    · exact hw.booked.room n (Table.mem_of_get hn)
  | reported id status _ h => exact h.accounts hρ hids hw
  | configured settings _ h =>
    subst h
    exact ⟨hw.sound.of_eq rfl rfl le_rfl, hw.booked⟩

/-- The events that the protocol allows: requests are not negative, and a node registers once
and empty. -/
def Event.Genuine (e : Event) (s : Sys) : Prop :=
  e.Asks Resource.Nonneg ∧ ∀ node, e = .registerNode node →
    s.world.nodes.get node.id = none ∧ node.used = {} ∧ node.capacity.Nonneg ∧
      node.allocatable.Nonneg

/-- The events of a run in which only the control plane writes counters. -/
def Event.Central (e : Event) (s : Sys) : Prop :=
  e.Genuine s ∧ ∀ node, e ≠ .heartbeat node

lemma Node.allocatable_nonneg {node : Node} (hc : node.capacity.Nonneg)
    (ha : node.allocatable.Nonneg) : node.withDefaults.allocatable.Nonneg := by
  have hdefault : Resource.Nonneg { milliCPU := 2000, memoryMB := 4096 } := by
    intro k
    cases k <;> decide
  have hcap := hc.orElse hdefault
  exact ha.orElse hcap

lemma Event.Central.covers {e : Event} {s : Sys} (he : e.Central s)
    (hw : Accounts env (· = ·) s.world) : e.Covers (· = ·) s := by
  obtain ⟨⟨hS, hreg⟩, hbeat⟩ := he
  refine ⟨hS, ?_⟩
  cases e with
  | registerNode node =>
    obtain ⟨hnew, hused, hc, ha⟩ := hreg node rfl
    intro k
    -- nothing is stored for a node that is not
    have hload : load s.world.workloads node.id k = 0 := by
      refine load_eq_zero ?_
      intro v hv hnode
      obtain ⟨n, hn, hid⟩ := hw.booked.hosted v hv
      exact Table.get_eq_none_iff.mp hnew n hn (hid.trans hnode)
    rw [hload, hused]
    refine ⟨?_, Node.allocatable_nonneg hc ha k⟩
    cases k <;> rfl
  | heartbeat node => exact absurd rfl (hbeat node)
  | _ => trivial

/-- **Exact accounting.** In every state that calls of the API, controller passes and reports
lead to, the counter of every node is the sum of the requests of the workloads stored for
it, and within what is allocatable. -/
theorem used_eq_load (hids : Function.Injective env.workloadID) {s : Sys}
    (h : Runs (Sys.step env o) Event.Central Sys.init s) {n : Node}
    (hn : n ∈ s.world.nodes.rows) (k : Dim) :
    n.used.amount k = load s.world.workloads n.id k ∧
      n.used.amount k ≤ n.allocatable.amount k := by
  have hinv : RequestsIn Resource.Nonneg s.world ∧ Accounts env (· = ·) s.world := by
    refine h.invariant (I := fun s => RequestsIn Resource.Nonneg s.world ∧
      Accounts env (· = ·) s.world) ⟨requestsIn_init, accounts_init⟩ ?_
    intro e s hI he
    exact Sys.step_accounts tolerates_eq hids (he.covers hI.2) hI
  have hbook := hinv.2.booked.book n hn k
  have hroom := hinv.2.booked.room n hn k
  exact ⟨hbook.symm, hbook ▸ hroom⟩

lemma genuine_registerNode : (Event.registerNode smallNode).Genuine Sys.init := by
  refine ⟨trivial, ?_⟩
  rintro node h
  obtain rfl : smallNode = node := Event.registerNode.inj h
  have hsize : Resource.Nonneg ⟨1000, 1000⟩ := by
    intro k
    cases k <;> decide
  exact ⟨Table.get_empty _, rfl, hsize, hsize⟩

lemma genuine_createDeployment (s : Sys) : (Event.createDeployment webSpec).Genuine s := by
  refine ⟨?_, ?_⟩
  · intro k
    cases k <;> decide
  · intro node h
    cases h

lemma genuine_heartbeat (node : String) (s : Sys) : (Event.heartbeat node).Genuine s := by
  refine ⟨trivial, ?_⟩
  intro node' h
  cases h

theorem used_eq_load_web : ∃ s : Sys, ∃ n ∈ s.world.nodes.rows,
    Runs (Sys.step steadyEnv plainConfig) Event.Central Sys.init s ∧ n.used.amount .cpu = 600 ∧
      n.used.amount .cpu = load s.world.workloads n.id .cpu ∧
      n.used.amount .cpu ≤ n.allocatable.amount .cpu := by
  have hrun : Runs (Sys.step steadyEnv plainConfig) Event.Central Sys.init _ := .of_list webRun
    ⟨⟨genuine_registerNode, nofun⟩, ⟨genuine_createDeployment _, nofun⟩, trivial⟩
  have hused : ∃ n ∈ (after (Sys.step steadyEnv plainConfig) webRun Sys.init).world.nodes.rows,
      n.used.amount .cpu = 600 := by
    decide +kernel
  obtain ⟨n, hn, h⟩ := hused
  exact ⟨_, n, hn, hrun, h, used_eq_load steadyEnv_ids hrun hn .cpu⟩

/-! ### Overcommitment -/

/-- What the pending and running workloads stored for a node request. -/
def activeLoad (W : Table Workload Workload.id) (node : String) (k : Dim) : ℤ :=
  ((W.rows.filter fun v => v.nodeID = node && v.active).map fun v => v.resources.amount k).sum

lemma activeLoad_le_load {W : Table Workload Workload.id} (h : ∀ v ∈ W.rows, v.resources.Nonneg)
    (node : String) (k : Dim) : activeLoad W node k ≤ load W node k := by
  have hsub : (W.rows.filter fun v => v.nodeID = node && v.active).Sublist
      (W.rows.filter fun v => v.nodeID = node) := by
    refine List.monotone_filter_right _ ?_
    intro v hv
    exact (Bool.and_eq_true_iff.mp hv).1
  refine (hsub.map _).sum_le_sum ?_
  intro x hx
  obtain ⟨v, hv, rfl⟩ := List.mem_map.mp hx
  exact h v (List.mem_filter.mp hv).1 k

/-- **No overcommitment**, if every count that a heartbeat or a registration writes covers the
load of its node: then in every reachable state the pending and running workloads of a
node request no more than is allocatable. -/
theorem activeLoad_le_allocatable (hids : Function.Injective env.workloadID) {s : Sys}
    (h : Runs (Sys.step env o) (Event.Covers (· ≤ ·)) Sys.init s) {n : Node}
    (hn : n ∈ s.world.nodes.rows) (k : Dim) :
    activeLoad s.world.workloads n.id k ≤ n.allocatable.amount k := by
  have hinv : RequestsIn Resource.Nonneg s.world ∧ Accounts env (· ≤ ·) s.world := by
    refine h.invariant (I := fun s => RequestsIn Resource.Nonneg s.world ∧
      Accounts env (· ≤ ·) s.world) ⟨requestsIn_init, accounts_init⟩ ?_
    intro e s hI he
    exact Sys.step_accounts tolerates_le hids he hI
  exact (activeLoad_le_load hinv.2.sound.sized _ _).trans (hinv.2.booked.room n hn k)

/-- The node registers, a deployment is created, the runner starts its workload and then sends
its count. -/
def startedRun : List Event :=
  [.registerNode smallNode, .createDeployment webSpec, .poll "n1" 10,
    .work "n1" 3 willingRuntime, .heartbeat "n1"]

lemma admissible_startedRun :
    Admissible (Sys.step steadyEnv plainConfig) (Event.Covers (· ≤ ·)) startedRun Sys.init := by
  refine ⟨⟨trivial, ?_⟩, ⟨?_, trivial⟩, ⟨trivial, trivial⟩, ⟨trivial, trivial⟩, ⟨trivial, ?_⟩,
    trivial⟩
  · intro k
    cases k <;> decide
  · intro k
    cases k <;> decide
  · intro k
    cases k <;> decide +kernel

theorem activeLoad_le_allocatable_started : ∃ s : Sys, ∃ n ∈ s.world.nodes.rows,
    Runs (Sys.step steadyEnv plainConfig) (Event.Covers (· ≤ ·)) Sys.init s ∧
      activeLoad s.world.workloads n.id .cpu = 600 ∧
      activeLoad s.world.workloads n.id .cpu ≤ n.allocatable.amount .cpu := by
  have hrun := Runs.of_list startedRun admissible_startedRun
  have hload : ∃ n ∈ (after (Sys.step steadyEnv plainConfig) startedRun Sys.init).world.nodes.rows,
      activeLoad (after (Sys.step steadyEnv plainConfig) startedRun Sys.init).world.workloads
        n.id .cpu = 600 := by
    decide +kernel
  obtain ⟨n, hn, h⟩ := hload
  exact ⟨_, n, hn, hrun, h, activeLoad_le_allocatable steadyEnv_ids hrun hn .cpu⟩

/-- A heartbeat of the node comes between two deployments. -/
def heartbeatRun : List Event :=
  [.registerNode smallNode, .createDeployment webSpec, .heartbeat "n1", .createDeployment webSpec]

/-- A heartbeat that arrives before the runner has started a placed workload takes the
reservation away, and the next placement overcommits the node. -/
theorem overcommitted_after_heartbeat : ∃ s : Sys, ∃ n ∈ s.world.nodes.rows,
    Runs (Sys.step steadyEnv plainConfig) Event.Genuine Sys.init s ∧
      n.allocatable.amount .cpu < activeLoad s.world.workloads n.id .cpu := by
  have hrun : Runs (Sys.step steadyEnv plainConfig) Event.Genuine Sys.init _ :=
    .of_list heartbeatRun ⟨genuine_registerNode, genuine_createDeployment _,
      genuine_heartbeat _ _, genuine_createDeployment _, trivial⟩
  have hover : ∃ n ∈
      (after (Sys.step steadyEnv plainConfig) heartbeatRun Sys.init).world.nodes.rows,
      n.allocatable.amount .cpu < activeLoad
        (after (Sys.step steadyEnv plainConfig) heartbeatRun Sys.init).world.workloads n.id .cpu := by
    decide +kernel
  obtain ⟨n, hn, h⟩ := hover
  exact ⟨_, n, hn, hrun, h⟩

end Orchestrator
