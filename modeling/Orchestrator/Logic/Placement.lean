/-
# What placing and terminating a workload does

One specification for each function of `Service/Placement.lean`: which node a replica can
get (`Placeable`), what a placement leaves in the tables (`Placed`), what a preemption
does (`Evicted`), and what marking a workload as terminating does.
-/
import Orchestrator.Logic.Effects

namespace Orchestrator

open Lib

variable {env : Env} {P : Rules} {o : Config} {dep : Deployment} {w w' : World}

/-- The `k`-th workload id: made from reading `k` of the clock and the random number after
it. -/
def Env.workloadID (env : Env) (k : ℕ) : String :=
  Orchestrator.workloadID (env.clock k) (env.rand (k + 1))

/-! ### Terminating -/

/-- A workload marked as terminating. -/
def Workload.marked (v : Workload) (now : Time) : Workload :=
  { v with status := .terminating, updatedAt := now }

lemma terminateWorkload_returns {v : Workload} (hv : v ∈ w.workloads.rows) :
    Returns env P (terminateWorkload v) w fun _ w' => ∃ now A,
      Eff w w' w.nodes w.deps (w.workloads.put (v.marked now)) A := by
  refine Returns.bind (restatusWorkload_returns (v := { v with status := .terminating })
    hv rfl rfl nofun) ?_
  rintro _ w₁ ⟨now, he⟩
  refine (enqueueAssignment_returns _ w₁).mono ?_
  rintro _ w₂ ⟨id, he'⟩
  rw [he.nodes, he.deps, he.workloads] at he'
  exact ⟨now, _, he.trans he'⟩

/-! ### Hosts -/

/-- A node that passes the filters of `SelectNode` for a replica of `dep`. -/
def hosts (dep : Deployment) (n : Node) : Bool :=
  schedulable dep.spec.resources (dep.spec.labels.getD Table.empty) (dep.spec.tolerations.getD []) n

/-- Some node can host a replica: `SelectNode` succeeds. -/
def CanHost (dep : Deployment) (N : Table Node Node.id) : Prop := ∃ n ∈ N.rows, hosts dep n = true

instance (dep : Deployment) (N : Table Node Node.id) : Decidable (CanHost dep N) :=
  List.decidableBEx _ _

lemma hosts_fits {n : Node} (h : hosts dep n = true) : fits n dep.spec.resources = true := by
  simp only [hosts, schedulable, Bool.and_eq_true] at h
  exact h.1.1.2

lemma selectNode_returns (o : Config) (dep : Deployment) (w : World) :
    Returns env P (selectNode o dep) w fun r w' => Quiet w w' ∧
      match r with
      | some n => n ∈ w.nodes.rows ∧ hosts dep n = true
      | none => ¬ CanHost dep w.nodes := by
  refine listNodes_bind (reads_bind rfl ?_)
  intro ext w₁ hq
  refine returns_pure ⟨hq, ?_⟩
  cases hsel : o.scheduler.selectNode o.fl ext w.nodes.rows dep.spec.resources
      (dep.spec.labels.getD Table.empty) (dep.spec.tolerations.getD []) with
  | some n => exact Planner.selectNode_some hsel
  | none =>
    rintro ⟨n, hn, hh⟩
    rw [hosts, Planner.selectNode_eq_none_iff.mp hsel n hn] at hh
    cases hh

/-! ### Preemption -/

/-- What is known of a preemption victim and its node. -/
lemma preemptionVictim_some {req : Resource} {workloads : List Workload} {nodes : List Node}
    {v : Workload} {n : Node} (h : preemptionVictim dep req workloads nodes = some (v, n)) :
    v ∈ workloads ∧ v.priority < dep.spec.priority ∧ v.deploymentID ≠ dep.id ∧
      n ∈ nodes ∧ n.id = v.nodeID ∧ n.status = .ready := by
  obtain ⟨u, hu, hnode⟩ := List.exists_of_findSome?_eq_some h
  obtain ⟨m, hm, heq⟩ := Option.map_eq_some_iff.mp hnode
  obtain ⟨rfl, rfl⟩ := Prod.mk.inj heq
  rw [mem_sortStable, List.mem_filter] at hu
  rw [preemptionNode, Option.filter_eq_some_iff] at hm
  have hmem := List.mem_of_find?_eq_some hm.1
  have hid := List.find?_some hm.1
  simp only [Bool.and_eq_true, decide_eq_true_eq] at hu hid hm
  exact ⟨hu.1, hu.2.1, hu.2.2, hmem, hid, hm.2.1.1⟩

/-- The nodes after a preemption. -/
def nodesAfterEviction (N : Table Node Node.id) (v : Workload) (n : Node) (seen : Time) :
    Table Node Node.id :=
  N.put { n with used := n.used.release v.resources, lastSeen := seen }

/-- A preemption for a replica of `dep` took place. -/
def Evicted (dep : Deployment) (w w' : World) : Prop :=
  ∃ v n seen, preemptionVictim dep dep.spec.resources w.workloads.rows w.nodes.rows = some (v, n) ∧
    Eff w w' (nodesAfterEviction w.nodes v n seen) w.deps (w.workloads.del v.id) w.queue

/-- The rules allow to preempt workloads for replicas of `dep`, and to store the replicas, as
long as the deployments are `D`. -/
structure Allows (P : Rules) (dep : Deployment) (D : Table Deployment Deployment.id) : Prop where
  preempt : ∀ v w, w.deps = D → v ∈ w.workloads.rows → v.priority < dep.spec.priority →
    v.deploymentID ≠ dep.id → P.removes v.id w
  place : ∀ v w, w.deps = D → v.deploymentID = dep.id → v.status = .pending → P.stores v w

lemma allows_any (dep : Deployment) (D : Table Deployment Deployment.id) :
    Allows Rules.any dep D :=
  ⟨fun _ _ _ _ _ _ => trivial, fun _ _ _ _ _ => trivial⟩

/-- The outcome of `tryPreemptForPriority`, from the victim that is found. -/
lemma tryPreempt_outcome (req : Resource) (hP : Allows P dep w.deps) :
    Returns env P (tryPreemptForPriority dep req) w fun b w' =>
      match preemptionVictim dep req w.workloads.rows w.nodes.rows with
      | some (v, n) => b = true ∧ ∃ seen,
          Eff w w' (nodesAfterEviction w.nodes v n seen) w.deps (w.workloads.del v.id) w.queue
      | none => b = false ∧ w' = w := by
  refine listWorkloads_bind (listNodes_bind ?_)
  cases hv : preemptionVictim dep req w.workloads.rows w.nodes.rows with
  | none => exact returns_pure ⟨rfl, rfl⟩
  | some p =>
    obtain ⟨v, n⟩ := p
    obtain ⟨hmem, hprio, hdep, -⟩ := preemptionVictim_some hv
    refine (upsertNode_returns _ w).bind ?_
    rintro _ w₁ ⟨seen, he⟩
    have hmem₁ : v ∈ w₁.workloads.rows := by
      rw [he.workloads]
      exact hmem
    refine (deleteWorkload_returns (hP.preempt v w₁ he.deps hmem₁ hprio hdep)).bind ?_
    intro _ w₂ he'
    rw [he.nodes, he.deps, he.workloads, he.queue] at he'
    exact returns_pure ⟨rfl, seen, he.trans he'⟩

lemma tryPreemptForPriority_returns (hP : Allows P dep w.deps) :
    Returns env P (tryPreemptForPriority dep dep.spec.resources) w fun b w' =>
      match b with
      | true => Evicted dep w w'
      | false => w' = w ∧
          preemptionVictim dep dep.spec.resources w.workloads.rows w.nodes.rows = none := by
  refine (tryPreempt_outcome dep.spec.resources hP).mono ?_
  intro b w' h
  cases hv : preemptionVictim dep dep.spec.resources w.workloads.rows w.nodes.rows with
  | none =>
    rw [hv] at h
    obtain ⟨rfl, rfl⟩ := h
    exact ⟨rfl, rfl⟩
  | some p =>
    rw [hv] at h
    obtain ⟨rfl, seen, he⟩ := h
    exact ⟨p.1, p.2, seen, hv, he⟩

/-! ### Choosing a node -/

/-- A preemption would make room for a replica of `dep`. -/
def Preemptable (dep : Deployment) (w : World) : Prop :=
  0 < dep.spec.priority ∧ ∃ v n,
    preemptionVictim dep dep.spec.resources w.workloads.rows w.nodes.rows = some (v, n) ∧
    CanHost dep (nodesAfterEviction w.nodes v n n.lastSeen)

/-- A replica of `dep` gets a node, after a preemption if need be. -/
def Placeable (dep : Deployment) (w : World) : Prop := CanHost dep w.nodes ∨ Preemptable dep w

lemma canHost_afterEviction_iff (N : Table Node Node.id) (v : Workload) (n : Node)
    (seen seen' : Time) :
    CanHost dep (nodesAfterEviction N v n seen) ↔ CanHost dep (nodesAfterEviction N v n seen') := by
  suffices h : ∀ seen seen', CanHost dep (nodesAfterEviction N v n seen) →
      CanHost dep (nodesAfterEviction N v n seen') from ⟨h _ _, h _ _⟩
  rintro seen seen' ⟨m, hm, hh⟩
  rcases Table.mem_rows_put.mp hm with rfl | ⟨hm, hne⟩
  · exact ⟨_, Table.mem_rows_put.mpr (Or.inl rfl), hh⟩
  · exact ⟨m, Table.mem_rows_put.mpr (Or.inr ⟨hm, hne⟩), hh⟩

lemma Evicted.canHost_iff (h : Evicted dep w w') (hp : 0 < dep.spec.priority) :
    CanHost dep w'.nodes ↔ Preemptable dep w := by
  obtain ⟨v, n, seen, hv, he⟩ := h
  rw [he.nodes, canHost_afterEviction_iff _ _ _ _ n.lastSeen]
  constructor
  · intro hc
    exact ⟨hp, v, n, hv, hc⟩
  · rintro ⟨-, v', n', hv', hc⟩
    rw [hv] at hv'
    obtain ⟨rfl, rfl⟩ := Prod.mk.inj (Option.some.inj hv')
    exact hc

/-- The way was cleared for a replica of `dep`: a node was there, or one was preempted. -/
def Cleared (dep : Deployment) (w w' : World) : Prop :=
  (CanHost dep w.nodes ∧ Quiet w w') ∨ (¬ CanHost dep w.nodes ∧ Evicted dep w w')

/-- No node was found: either no preemption was tried or it found no victim, or a victim was
evicted in vain. -/
def Unhoused (dep : Deployment) (w w' : World) : Prop :=
  (Quiet w w' ∧ (0 < dep.spec.priority →
    preemptionVictim dep dep.spec.resources w.workloads.rows w.nodes.rows = none)) ∨
  (0 < dep.spec.priority ∧ Evicted dep w w')

lemma chooseNode_holds (hP : Allows P dep w.deps) :
    Holds env P (chooseNode o dep) w fun r w' =>
      (∃ n, r = .ok n ∧ Placeable dep w ∧ Cleared dep w w' ∧ n ∈ w'.nodes.rows ∧
        hosts dep n = true) ∨
      (r = .error .noSchedulableNode ∧ ¬ Placeable dep w ∧ Unhoused dep w w') := by
  refine (selectNode_returns o dep w).bind ?_
  rintro (_ | n) w₁ ⟨hq, hsel⟩
  · -- no node: try to preempt, and select again if that was done
    have hpre : Returns env P
        (if dep.spec.priority > 0 then tryPreemptForPriority dep dep.spec.resources else pure false)
        w₁ fun b w₂ => match b with
          | true => 0 < dep.spec.priority ∧ Evicted dep w₁ w₂
          | false => w₂ = w₁ ∧ (0 < dep.spec.priority →
              preemptionVictim dep dep.spec.resources w.workloads.rows w.nodes.rows = none) := by
      split
      · next hprio =>
        rw [← hq.deps] at hP
        refine (tryPreemptForPriority_returns hP).mono ?_
        rintro (_ | _) w₂ h
        · rw [hq.nodes, hq.workloads] at h
          exact ⟨h.1, fun _ => h.2⟩
        · exact ⟨hprio, h⟩
      · next hprio => exact returns_pure ⟨rfl, fun h => absurd h hprio⟩
    refine hpre.bind ?_
    rintro (_ | _) w₂ h
    · obtain ⟨rfl, hno⟩ := h
      refine Or.inr ⟨rfl, ?_, Or.inl ⟨hq, hno⟩⟩
      rintro (hc | ⟨hprio, v, n, hv, -⟩)
      · exact hsel hc
      · rw [hno hprio] at hv
        cases hv
    · obtain ⟨hprio, hev⟩ := h
      have hev' : Evicted dep w w₂ := by
        obtain ⟨v, n, seen, hv, he⟩ := hev
        rw [hq.nodes, hq.deps, hq.workloads, hq.queue] at he
        rw [hq.nodes, hq.workloads] at hv
        exact ⟨v, n, seen, hv, hq.eff he⟩
      refine (selectNode_returns o dep w₂).bind ?_
      rintro (_ | n) w₃ ⟨hq', hsel'⟩
      · refine Or.inr ⟨rfl, ?_, Or.inr ⟨hprio, ?_⟩⟩
        · rintro (hc | hc)
          · exact hsel hc
          · exact hsel' ((hev'.canHost_iff hprio).mpr hc)
        · obtain ⟨v, n, seen, hv, he⟩ := hev'
          exact ⟨v, n, seen, hv, he.quiet hq'⟩
      · refine Or.inl ⟨n, rfl, Or.inr ?_, Or.inr ⟨hsel, ?_⟩, ?_, hsel'.2⟩
        · exact (hev'.canHost_iff hprio).mp ⟨n, hsel'.1, hsel'.2⟩
        · obtain ⟨v, m, seen, hv, he⟩ := hev'
          exact ⟨v, m, seen, hv, he.quiet hq'⟩
        · rw [hq'.nodes]
          exact hsel'.1
  · have hc : CanHost dep w.nodes := ⟨n, hsel.1, hsel.2⟩
    refine Or.inl ⟨n, rfl, Or.inl hc, Or.inl ⟨hc, hq⟩, ?_, hsel.2⟩
    rw [hq.nodes]
    exact hsel.1

/-! ### Secrets -/

/-- Every secret that the specification mounts is stored. -/
def SecretsStored (dep : Deployment) (secrets : Table Secret (Tbl.key .secret)) : Prop :=
  ∀ sm ∈ dep.spec.secretMounts.getD [], blank sm.secretName = false →
    (secrets.get (keySecret dep.spec.nameSpace sm.secretName)).isSome

/-- The files of a mount, if its secret is stored. -/
def mountedFiles (o : Config) (secrets : Table Secret (Tbl.key .secret)) (ns : String)
    (sm : SecretMountSpec) : List SecretFile :=
  if blank sm.secretName then []
  else ((secrets.get (keySecret ns sm.secretName)).map
    (secretFilesOf o.decryptSecretData sm.mountPath)).getD []

lemma collectSecretFiles_holds (ns : String) (mounts : List SecretMountSpec)
    (files : List SecretFile) (w : World) :
    Holds env P (collectSecretFiles o ns mounts files) w fun r w' => w' = w ∧
      if ∀ sm ∈ mounts, blank sm.secretName = false →
          (w.secrets.get (keySecret ns sm.secretName)).isSome
        then r = .ok (files ++ mounts.flatMap (mountedFiles o w.secrets ns))
      else r = .error .notFound := by
  induction mounts generalizing files with
  | nil => exact ⟨rfl, by simp⟩
  | cons sm rest ih =>
    rw [collectSecretFiles]
    split
    · next hb =>
      refine (ih files).mono ?_
      rintro r w' ⟨hw, hr⟩
      refine ⟨hw, ?_⟩
      simpa [hb, mountedFiles] using hr
    · next hb =>
      refine find_bind ?_ ?_
      · intro secret hs
        refine (ih _).mono ?_
        rintro r w' ⟨hw, hr⟩
        refine ⟨hw, ?_⟩
        have hs' : w.secrets.get (keySecret ns sm.secretName) = some secret := hs
        simpa [hb, hs', mountedFiles] using hr
      · intro hs
        refine ⟨rfl, ?_⟩
        have hs' : w.secrets.get (keySecret ns sm.secretName) = none := hs
        simp [hb, hs']

lemma resolveSecretFiles_holds (o : Config) (dep : Deployment) (w : World) :
    Holds env P (resolveSecretFilesForDeployment o dep) w fun r w' => w' = w ∧
      ((SecretsStored dep w.secrets ∧ r = .ok (sortStable (fun a b => decide (a.path < b.path))
          ((dep.spec.secretMounts.getD []).flatMap (mountedFiles o w.secrets dep.spec.nameSpace)))) ∨
        (r = .error .notFound ∧ ¬ SecretsStored dep w.secrets)) := by
  refine (collectSecretFiles_holds _ _ _ w).bind ?_ ?_
  · rintro fs w' ⟨rfl, hr⟩
    split at hr
    · next hs =>
      cases hr
      exact ⟨rfl, Or.inl ⟨hs, rfl⟩⟩
    · cases hr
  · rintro e w' ⟨rfl, hr⟩
    split at hr
    · cases hr
    · next hs =>
      cases hr
      exact ⟨rfl, Or.inr ⟨rfl, hs⟩⟩

/-! ### Placement -/

/-- The record of a fresh replica of `dep` on node `n`. -/
structure IsReplica (dep : Deployment) (n : Node) (v : Workload) : Prop where
  deploymentID : v.deploymentID = dep.id
  priority : v.priority = dep.spec.priority
  nodeID : v.nodeID = n.id
  image : v.image = dep.spec.image
  resources : v.resources = dep.spec.resources
  status : v.status = .pending
  version : v.version = dep.currentRevision

/-- A replica of `dep` was placed: its record stored under a new id, its request reserved on
a node that passes the filters. -/
def Placed (env : Env) (dep : Deployment) (w w' : World) : Prop :=
  ∃ n v k seen A, n ∈ w.nodes.rows ∧ hosts dep n = true ∧ IsReplica dep n v ∧
    v.id = env.workloadID k ∧ w.tick ≤ k ∧ k < w'.tick ∧
    Eff w w' (w.nodes.put { n with used := n.used.reserve dep.spec.resources, lastSeen := seen })
      w.deps (w.workloads.put v) A

/-- The outcome of `createWorkloadForDeployment`. -/
def Creation (env : Env) (dep : Deployment) (w : World) (r : Except Err Unit) (w' : World) : Prop :=
  (Placeable dep w ∧ (∃ w₁, Cleared dep w w₁ ∧ Placed env dep w₁ w') ∧
    (r = .ok () ∧ SecretsStored dep w.secrets ∨
      r = .error .notFound ∧ ¬ SecretsStored dep w.secrets)) ∨
  (r = .error .noSchedulableNode ∧ ¬ Placeable dep w ∧ (Quiet w w' ∨ Evicted dep w w'))

lemma Cleared.secrets (h : Cleared dep w w') : w'.secrets = w.secrets := by
  rcases h with ⟨-, h⟩ | ⟨-, v, n, seen, -, h⟩
  · exact Eff.secrets h
  · exact h.secrets

lemma Cleared.deps (h : Cleared dep w w') : w'.deps = w.deps := by
  rcases h with ⟨-, h⟩ | ⟨-, v, n, seen, -, h⟩
  · exact Eff.deps h
  · exact h.deps

lemma Unhoused.quiet_or_evicted (h : Unhoused dep w w') : Quiet w w' ∨ Evicted dep w w' :=
  h.imp And.left And.right

/-- The outcome of `createWorkloadForDeployment`, with what is left when no node is found. -/
lemma createWorkload_outcome (hP : Allows P dep w.deps) :
    Holds env P (createWorkloadForDeployment o dep) w fun r w' =>
      Creation env dep w r w' ∧ (r = .error .noSchedulableNode → Unhoused dep w w') := by
  refine (chooseNode_holds hP).bind ?_ ?_
  · rintro n w₁ (⟨n', hn', hpl, hcl, hmem, hhost⟩ | ⟨hr, -⟩)
    swap
    · cases hr
    cases hn'
    refine (timeNow_returns w₁).bind ?_
    rintro nano w₂ ⟨rfl, q₂, t₂⟩
    refine (randIntn_returns w₂).bind ?_
    rintro r w₃ ⟨rfl, q₃, t₃⟩
    refine (timeNow_returns w₃).bind ?_
    rintro created w₄ ⟨-, q₄, -⟩
    refine (timeNow_returns w₄).bind ?_
    rintro updated w₅ ⟨-, q₅, -⟩
    have hq : Quiet w₁ w₅ := ((q₂.trans q₃).trans q₄).trans q₅
    have htick : w₁.tick < w₅.tick := by
      have h1 := q₃.tick
      have h2 := q₄.tick
      have h3 := q₅.tick
      omega
    have hdeps : w₅.deps = w.deps := hq.deps.trans hcl.deps
    refine (upsertWorkload_returns ?_).bind ?_
    · intro now w' hd _
      exact hP.place _ w' (hd.trans hdeps) rfl rfl
    rintro _ w₆ ⟨now, e₆⟩
    refine (upsertNode_returns _ w₆).bind ?_
    rintro _ w₇ ⟨seen, e₇⟩
    rw [e₆.nodes, e₆.deps, e₆.workloads, e₆.queue, hq.nodes, hq.deps, hq.workloads, hq.queue] at e₇
    have he : Eff w₁ w₇ _ _ _ _ := (hq.eff e₆).trans e₇
    have hsec : w₇.secrets = w.secrets := he.secrets.trans hcl.secrets
    have hplaced : ∀ w₈ A, Eff w₇ w₈ w₇.nodes w₇.deps w₇.workloads A → Placed env dep w₁ w₈ := by
      intro w₈ A e₈
      rw [e₇.nodes, e₇.deps, e₇.workloads] at e₈
      refine ⟨n, _, w₁.tick, seen, A, hmem, hhost, ⟨rfl, rfl, rfl, rfl, rfl, rfl, rfl⟩, ?_, le_rfl,
        ?_, he.trans e₈⟩
      · simp only [newWorkload, Env.workloadID, t₂]
      · have h1 := e₆.tick
        have h2 := e₇.tick
        have h3 := e₈.tick
        omega
    refine (resolveSecretFiles_holds o dep w₇).bind ?_ ?_
    · rintro fs w₈ ⟨rfl, hfs⟩
      refine Prog.Sat.mono (enqueueAssignment_returns _ w₈) ?_
      rintro _ w₉ ⟨_, rfl, id, e₉⟩
      refine ⟨Or.inl ⟨hpl, ⟨w₁, hcl, hplaced w₉ _ e₉⟩, Or.inl ⟨rfl, ?_⟩⟩, nofun⟩
      rcases hfs with ⟨hs, -⟩ | ⟨hbad, -⟩
      · rwa [← hsec]
      · cases hbad
    · rintro e w₈ ⟨rfl, hfs⟩
      rcases hfs with ⟨-, hbad⟩ | ⟨he', hs⟩
      · cases hbad
      · cases he'
        refine ⟨Or.inl ⟨hpl, ⟨w₁, hcl, hplaced w₈ _ (Quiet.refl w₈)⟩, Or.inr ⟨rfl, ?_⟩⟩, nofun⟩
        rwa [← hsec]
  · rintro e w₁ (⟨n', hn', -⟩ | ⟨hr, hpl, h⟩)
    · cases hn'
    · cases hr
      exact ⟨Or.inr ⟨rfl, hpl, h.quiet_or_evicted⟩, fun _ => h⟩

lemma createWorkloadForDeployment_holds (hP : Allows P dep w.deps) :
    Holds env P (createWorkloadForDeployment o dep) w (Creation env dep w) :=
  (createWorkload_outcome hP).mono fun _ _ h => h.1

end Orchestrator
