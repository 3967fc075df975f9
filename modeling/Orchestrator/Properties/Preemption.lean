/-
# Preemption and failed placements

`tryPreemptForPriority` looks at the lower-priority workloads of other deployments, lowest
priority and youngest first, and evicts the first one on a ready node whose removal leaves
room for the request.  The room is a 64-bit sum.  Where that sum wraps around it can refuse a
sufficient victim or take an insufficient one, and this matters exactly if no workload with a
right answer is looked at before (`preemption_least_iff`).

An eviction removes the record and leaves the assignment queue alone, so it is complete only
for a victim whose assignments were settled before (`eviction_complete_iff`).  A placement
that fails after an eviction, or after its reservation because a secret is missing, leaves
what it did (`failed_placement_traceless_iff`).
-/
import Orchestrator.Logic.Booking
import Orchestrator.Properties.Availability

namespace Orchestrator

open Lib

variable {env : Env} {o : Config} {dep : Deployment} {req : Resource} {w w' : World}
  {v u : Workload} {n : Node}

/-! ### The order of the candidates -/

lemma preemptBefore_eq_false_iff {a b : Workload} : preemptBefore a b = false ↔
    b.priority < a.priority ∨ (b.priority = a.priority ∧ a.createdAt ≤ b.createdAt) := by
  unfold preemptBefore
  split_ifs with h
  · rw [decide_eq_false_iff_not]
    omega
  · rw [decide_eq_false_iff_not, not_lt]
    rw [not_not] at h
    simp [h]

lemma preemptBefore_asymm (a b : Workload) (h : preemptBefore a b = true) :
    preemptBefore b a = false := by
  by_contra hba
  rw [Bool.not_eq_false] at hba
  unfold preemptBefore at h hba
  split_ifs at h hba with h₁ h₂
  · simp only [decide_eq_true_eq] at h hba
    omega
  · exact h₁ (not_not.mp h₂).symm
  · exact h₁ (Ne.symm ‹_›)
  · simp only [decide_eq_true_eq] at h hba
    exact lt_asymm h hba

lemma preemptBefore_trans (a b c : Workload) (hba : preemptBefore b a = false)
    (hcb : preemptBefore c b = false) : preemptBefore c a = false := by
  rw [preemptBefore_eq_false_iff] at hba hcb ⊢
  rcases hba with hba | ⟨hba, hba'⟩
  · rcases hcb with hcb | ⟨hcb, -⟩
    · exact Or.inl (hba.trans hcb)
    · exact Or.inl (hcb ▸ hba)
  · rcases hcb with hcb | ⟨hcb, hcb'⟩
    · exact Or.inl (hba ▸ hcb)
    · exact Or.inr ⟨hba.trans hcb, hcb'.trans hba'⟩

/-- `v` is looked at before `u`.  Workloads that the comparison does not order are looked at in
the order of the listing, which is by id. -/
def LookedAtBefore : Workload → Workload → Prop := Ranked preemptBefore fun a b => a.id < b.id

lemma LookedAtBefore.not_before (h : LookedAtBefore v u) :
    preemptBefore u v = false :=
  Ranked.not_less preemptBefore_asymm h

lemma LookedAtBefore.asymm (h : LookedAtBefore v u) : ¬ LookedAtBefore u v :=
  Ranked.asymm preemptBefore_asymm (fun _ _ => lt_asymm) h

/-! ### Candidates -/

/-- A workload that a replica of `dep` may preempt, with its node: it belongs to another
deployment, has a lower priority and sits on a ready node. -/
structure Preemptible (dep : Deployment) (w : World) (v : Workload) (n : Node) : Prop where
  stored : v ∈ w.workloads.rows
  lower : v.priority < dep.spec.priority
  other : v.deploymentID ≠ dep.id
  node : w.nodes.get v.nodeID = some n
  ready : n.status = .ready

/-- The room on a node without one of its workloads, as the code computes it. -/
def Node.roomWithout (n : Node) (v : Workload) (k : Dim) : Int64 :=
  n.allocatable.part k - n.used.part k + v.resources.part k

/-- The room on a node without one of its workloads. -/
def Node.exactRoomWithout (n : Node) (v : Workload) (k : Dim) : ℤ :=
  n.allocatable.amount k - n.used.amount k + v.resources.amount k

/-- A candidate that passes the test of the code. -/
def Passes (dep : Deployment) (req : Resource) (w : World) (v : Workload) : Prop :=
  ∃ n, Preemptible dep w v n ∧ ∀ k, req.part k ≤ n.roomWithout v k

/-- A candidate whose removal makes room for the request. -/
def Sufficient (dep : Deployment) (req : Resource) (w : World) (v : Workload) : Prop :=
  ∃ n, Preemptible dep w v n ∧ ∀ k, req.amount k ≤ n.exactRoomWithout v k

lemma forall_dim {p : Dim → Prop} : (∀ k, p k) ↔ p .cpu ∧ p .mem := by
  constructor
  · exact fun h => ⟨h .cpu, h .mem⟩
  · rintro ⟨hcpu, hmem⟩ (_ | _)
    · exact hcpu
    · exact hmem

lemma preemptionNode_eq_some_iff {N : Table Node Node.id} :
    preemptionNode N.rows req v = some n ↔
      N.get v.nodeID = some n ∧ n.status = .ready ∧ ∀ k, req.part k ≤ n.roomWithout v k := by
  rw [preemptionNode, Option.filter_eq_some_iff, forall_dim]
  simp only [Bool.and_eq_true, decide_eq_true_eq, and_assoc]
  rfl

lemma passes_iff : Passes dep req w v ↔
    v ∈ w.workloads.rows.filter
      (fun v => v.priority < dep.spec.priority && v.deploymentID ≠ dep.id) ∧
      (preemptionNode w.nodes.rows req v).isSome := by
  simp only [List.mem_filter, Bool.and_eq_true, decide_eq_true_eq, Option.isSome_iff_exists]
  constructor
  · rintro ⟨n, hn, hroom⟩
    exact ⟨⟨hn.stored, hn.lower, hn.other⟩, n,
      preemptionNode_eq_some_iff.mpr ⟨hn.node, hn.ready, hroom⟩⟩
  · rintro ⟨⟨hmem, hlow, hother⟩, n, hn⟩
    obtain ⟨hnode, hready, hroom⟩ := preemptionNode_eq_some_iff.mp hn
    exact ⟨n, ⟨hmem, hlow, hother, hnode, hready⟩, hroom⟩

lemma preemptionVictim_eq_none_iff :
    preemptionVictim dep req w.workloads.rows w.nodes.rows = none ↔ ∀ v, ¬ Passes dep req w v := by
  simp only [preemptionVictim, List.findSome?_eq_none_iff, mem_sortStable, Option.map_eq_none_iff,
    passes_iff, not_and, Option.not_isSome_iff_eq_none]

/-- **The victim** is the candidate that passes the test and is looked at first. -/
lemma preemptionVictim_first
    (h : preemptionVictim dep req w.workloads.rows w.nodes.rows = some (v, n)) :
    (Preemptible dep w v n ∧ ∀ k, req.part k ≤ n.roomWithout v k) ∧
      ∀ u, Passes dep req w u → u = v ∨ LookedAtBefore v u := by
  have hsorted := w.workloads.sorted.sublist (List.filter_sublist
    (p := fun v => v.priority < dep.spec.priority && v.deploymentID ≠ dep.id))
  obtain ⟨v', hv', hnode, hfirst⟩ :=
    ranked_of_findSome? preemptBefore_asymm preemptBefore_trans hsorted h
  obtain ⟨n', hn', heq⟩ := Option.map_eq_some_iff.mp hnode
  obtain ⟨rfl, rfl⟩ := Prod.mk.inj heq
  constructor
  · obtain ⟨m, hm, hroom⟩ := passes_iff.mpr ⟨hv', Option.isSome_of_eq_some hn'⟩
    have hnm : n' = m :=
      Option.some.inj ((preemptionNode_eq_some_iff.mp hn').1.symm.trans hm.node)
    exact hnm ▸ ⟨hm, hroom⟩
  · intro u hu
    obtain ⟨hmem, hsome⟩ := passes_iff.mp hu
    exact hfirst u hmem (by simpa using hsome)

/-! ### The least important sufficient victim -/

/-- A sufficient candidate of minimal priority, the youngest of that priority. -/
def LeastVictim (dep : Deployment) (req : Resource) (w : World) (v : Workload) : Prop :=
  Sufficient dep req w v ∧ ∀ u, Sufficient dep req w u →
    v.priority < u.priority ∨ (v.priority = u.priority ∧ u.createdAt ≤ v.createdAt)

/-- The one change is that `v` is gone and its node no longer counts its resources, by
subtraction in each dimension in which at least that much was counted. -/
structure EvictedAlone (v : Workload) (w w' : World) : Prop where
  workloads : w'.workloads = w.workloads.del v.id
  others : ∀ id, id ≠ v.nodeID → w'.nodes.get id = w.nodes.get id
  used : ∀ n, w.nodes.get v.nodeID = some n → ∃ n', w'.nodes.get v.nodeID = some n' ∧
    ∀ k, v.resources.amount k ≤ n.used.amount k →
      n'.used.amount k = n.used.amount k - v.resources.amount k

/-- What a preemption should do: nothing if no candidate is sufficient, and otherwise evict the
least important sufficient one. -/
def PreemptsLeast (dep : Deployment) (req : Resource) (w w' : World) : Prop :=
  ((∀ v, ¬ Sufficient dep req w v) → w'.store = w.store) ∧
    ((∃ v, Sufficient dep req w v) → ∃ v, LeastVictim dep req w v ∧ EvictedAlone v w w')

/-- A candidate for which the 64-bit arithmetic is right: it passes the test, it is sufficient,
and the release of its resources does not overflow. -/
def ComputedRight (dep : Deployment) (req : Resource) (w : World) (v : Workload) : Prop :=
  ∃ n, Preemptible dep w v n ∧ (∀ k, req.part k ≤ n.roomWithout v k) ∧
    (∀ k, req.amount k ≤ n.exactRoomWithout v k) ∧
    ∀ k, v.resources.amount k ≤ n.used.amount k →
      n.used.amount k - v.resources.amount k < 2 ^ 63

/-- Where the 64-bit arithmetic is wrong about a candidate, a harmless one comes first: not
after a sufficient candidate that is refused, and before one that is taken wrongly. -/
def WrapsHarmlessly (dep : Deployment) (req : Resource) (w : World) : Prop :=
  (∀ u, Sufficient dep req w u → ¬ Passes dep req w u →
      ∃ v, ComputedRight dep req w v ∧ preemptBefore u v = false) ∧
    ∀ u, Passes dep req w u → ¬ ComputedRight dep req w u →
      ∃ v, ComputedRight dep req w v ∧ LookedAtBefore v u

section Victim

variable {v : Workload} {n : Node}

lemma ComputedRight.passes (h : ComputedRight dep req w v) : Passes dep req w v := by
  obtain ⟨n, hn, hroom, -⟩ := h
  exact ⟨n, hn, hroom⟩

lemma ComputedRight.sufficient (h : ComputedRight dep req w v) : Sufficient dep req w v := by
  obtain ⟨n, hn, -, hroom, -⟩ := h
  exact ⟨n, hn, hroom⟩

lemma Preemptible.node_unique {n' : Node} (h : Preemptible dep w v n) (h' : Preemptible dep w v n') :
    n = n' :=
  Option.some.inj (h.node.symm.trans h'.node)

/-- A release that does not overflow subtracts what was counted. -/
lemma amount_release_of_lt {u r : Resource} {k : Dim} (h : r.amount k ≤ u.amount k)
    (hlt : u.amount k - r.amount k < 2 ^ 63) :
    (u.release r).amount k = u.amount k - r.amount k := by
  simp only [Resource.amount_eq] at h hlt ⊢
  have hsub : (u.part k - r.part k).toInt = (u.part k).toInt - (r.part k).toInt := by
    rw [Int64.toInt_sub]
    exact Int.bmod_eq_of_le (by omega) (by omega)
  have hneg : ¬ u.part k - r.part k < 0 := by
    rw [Int64.lt_iff_toInt_lt, hsub, Int64.toInt_zero]
    omega
  rw [Resource.part_release, if_neg hneg, hsub]

/-- The release of a victim, as its node shows it. -/
lemma get_nodesAfterEviction {N : Table Node Node.id} {seen : Time} (hn : N.get v.nodeID = some n)
    (id : String) : (nodesAfterEviction N v n seen).get id =
      if id = v.nodeID then some { n with used := n.used.release v.resources, lastSeen := seen }
      else N.get id := by
  have hid : n.id = v.nodeID := Table.key_of_get hn
  rw [nodesAfterEviction, Table.get_put]
  simp only [hid]

lemma evictedAlone_iff {seen : Time} {D : Table Deployment Deployment.id}
    {A : Table Assignment (Tbl.key .assignment)} (hn : w.nodes.get v.nodeID = some n)
    (he : Eff w w' (nodesAfterEviction w.nodes v n seen) D (w.workloads.del v.id) A) :
    EvictedAlone v w w' ↔ ∀ k, v.resources.amount k ≤ n.used.amount k →
      n.used.amount k - v.resources.amount k < 2 ^ 63 := by
  constructor
  · intro h k hk
    obtain ⟨n', hn', hused⟩ := h.used n hn
    rw [← hused k hk, Resource.amount_eq]
    exact Int64.toInt_lt _
  · intro h
    refine ⟨he.workloads, ?_, ?_⟩
    · intro id hid
      rw [he.nodes, get_nodesAfterEviction hn, if_neg hid]
    · intro m hm
      obtain rfl := Option.some.inj (hn.symm.trans hm)
      refine ⟨_, by rw [he.nodes, get_nodesAfterEviction hn, if_pos rfl], ?_⟩
      intro k hk
      exact amount_release_of_lt hk (h k hk)

/-- An eviction shows which workload was evicted. -/
lemma eq_of_del_eq {W : Table Workload Workload.id} {u : Workload} (hv : v ∈ W.rows)
    (h : W.del v.id = W.del u.id) : v.id = u.id := by
  by_contra hne
  have hmem : v ∈ (W.del u.id).rows := Table.mem_rows_del.mpr ⟨hv, hne⟩
  rw [← h] at hmem
  exact (Table.mem_rows_del.mp hmem).2 rfl

end Victim

/-- The state after `tryPreemptForPriority`. -/
lemma tryPreempt_final (env : Env) (dep : Deployment) (req : Resource) (w : World) :
    match preemptionVictim dep req w.workloads.rows w.nodes.rows with
    | some (v, n) => ∃ seen, Eff w ((tryPreemptForPriority dep req).final (exec env) w)
        (nodesAfterEviction w.nodes v n seen) w.deps (w.workloads.del v.id) w.queue
    | none => (tryPreemptForPriority dep req).final (exec env) w = w := by
  have hret : Returns env Rules.any (tryPreemptForPriority dep req) w _ :=
    tryPreempt_outcome req (allows_any dep w.deps)
  obtain ⟨b, -, h⟩ := hret.run
  cases hv : preemptionVictim dep req w.workloads.rows w.nodes.rows with
  | none =>
    rw [hv] at h
    exact h.2
  | some p =>
    rw [hv] at h
    exact h.2

/-- Nothing is evicted: right if and only if no candidate is sufficient. -/
lemma preemptsLeast_of_none (hv : ∀ v, ¬ Passes dep req w v) :
    PreemptsLeast dep req w w ↔ WrapsHarmlessly dep req w := by
  constructor
  · intro h
    have hnone : ∀ u, ¬ Sufficient dep req w u := by
      intro u hu
      obtain ⟨v, ⟨⟨n, hn, -⟩, -⟩, hev⟩ := h.2 ⟨u, hu⟩
      have hmem := hn.stored
      rw [hev.workloads] at hmem
      exact (Table.mem_rows_del.mp hmem).2 rfl
    exact ⟨fun u hu => absurd hu (hnone u), fun u hu => absurd hu (hv u)⟩
  · intro h
    refine ⟨fun _ => rfl, ?_⟩
    rintro ⟨u, hu⟩
    obtain ⟨v, hright, -⟩ := h.1 u hu (hv u)
    exact absurd hright.passes (hv v)

/-- `v` is evicted: right if and only if the arithmetic is right about `v` and no sufficient
candidate ranks before it. -/
lemma preemptsLeast_of_some {seen : Time}
    (hv : preemptionVictim dep req w.workloads.rows w.nodes.rows = some (v, n))
    (he : Eff w w' (nodesAfterEviction w.nodes v n seen) w.deps (w.workloads.del v.id) w.queue) :
    PreemptsLeast dep req w w' ↔
      ComputedRight dep req w v ∧ ∀ u, Sufficient dep req w u → preemptBefore u v = false := by
  obtain ⟨⟨hcand, hroom⟩, -⟩ := preemptionVictim_first hv
  have hrank : ∀ u : Workload, preemptBefore u v = false ↔
      v.priority < u.priority ∨ (v.priority = u.priority ∧ u.createdAt ≤ v.createdAt) :=
    fun u => preemptBefore_eq_false_iff
  constructor
  · intro h
    have hsome : ∃ u, Sufficient dep req w u := by
      by_contra hnone
      rw [not_exists] at hnone
      -- the record of `v` is gone
      have hgone : v ∉ w'.workloads.rows := by
        rw [he.workloads]
        exact fun hmem => (Table.mem_rows_del.mp hmem).2 rfl
      rw [World.workloads, h.1 hnone] at hgone
      exact hgone hcand.stored
    obtain ⟨u, ⟨hsuff, hleast⟩, hev⟩ := h.2 hsome
    obtain ⟨m, hm, hexact⟩ := id hsuff
    have huv : v = u := by
      refine Table.eq_of_mem_of_key_eq hcand.stored hm.stored ?_
      exact eq_of_del_eq hcand.stored (he.workloads.symm.trans hev.workloads)
    subst huv
    obtain rfl := hcand.node_unique hm
    refine ⟨⟨n, hcand, hroom, hexact, (evictedAlone_iff hcand.node he).mp hev⟩, ?_⟩
    intro u hu
    exact (hrank u).mpr (hleast u hu)
  · rintro ⟨hright, hleast⟩
    have hsuff := hright.sufficient
    obtain ⟨m, hm, -, -, hrelease⟩ := hright
    obtain rfl := hcand.node_unique hm
    refine ⟨fun hnone => absurd hsuff (hnone v), fun _ => ⟨v, ⟨hsuff, ?_⟩, ?_⟩⟩
    · exact fun u hu => (hrank u).mp (hleast u hu)
    · exact (evictedAlone_iff hcand.node he).mpr hrelease

/-- The 64-bit room is the exact one if that is in range. -/
lemma Node.toInt_roomWithout {k : Dim}
    (hlow : -2 ^ 63 ≤ n.exactRoomWithout v k) (hhigh : n.exactRoomWithout v k < 2 ^ 63) :
    (n.roomWithout v k).toInt = n.exactRoomWithout v k := by
  simp only [Node.exactRoomWithout, Resource.amount_eq] at hlow hhigh ⊢
  rw [Node.roomWithout, Int64.toInt_add, Int64.toInt_sub, Int.bmod_add_bmod]
  exact Int.bmod_eq_of_le (by omega) (by omega)

/-- No sum for a candidate leaves the 64-bit range. -/
def SumsFit (dep : Deployment) (w : World) : Prop := ∀ v n, Preemptible dep w v n → ∀ k,
  (-2 ^ 63 ≤ n.exactRoomWithout v k ∧ n.exactRoomWithout v k < 2 ^ 63) ∧
    n.used.amount k - v.resources.amount k < 2 ^ 63

lemma SumsFit.wrapsHarmlessly (h : SumsFit dep w) : WrapsHarmlessly dep req w := by
  have htest : ∀ v n, Preemptible dep w v n → ∀ k,
      (req.part k ≤ n.roomWithout v k ↔ req.amount k ≤ n.exactRoomWithout v k) := by
    intro v n hn k
    obtain ⟨⟨hlow, hhigh⟩, -⟩ := h v n hn k
    rw [Int64.le_iff_toInt_le, Node.toInt_roomWithout hlow hhigh, Resource.amount_eq]
  constructor
  · rintro u ⟨n, hn, hexact⟩ hno
    exact absurd ⟨n, hn, fun k => (htest u n hn k).mpr (hexact k)⟩ hno
  · rintro u ⟨n, hn, hroom⟩ hbad
    exact absurd ⟨n, hn, hroom, fun k => (htest u n hn k).mp (hroom k), fun k _ => (h u n hn k).2⟩
      hbad

/-- **Preemption picks the least important sufficient victim**, exactly if the wrap-around of
the 64-bit sums is harmless, as it is where none of them leaves the range. -/
theorem preemption_least_iff (env : Env) (dep : Deployment) (req : Resource) (w : World) :
    (PreemptsLeast dep req w ((tryPreemptForPriority dep req).final (exec env) w) ↔
      WrapsHarmlessly dep req w) ∧ (SumsFit dep w → WrapsHarmlessly dep req w) := by
  refine ⟨?_, SumsFit.wrapsHarmlessly⟩
  have hfinal := tryPreempt_final env dep req w
  cases hv : preemptionVictim dep req w.workloads.rows w.nodes.rows with
  | none =>
    rw [hv] at hfinal
    change (tryPreemptForPriority dep req).final (exec env) w = w at hfinal
    rw [hfinal]
    exact preemptsLeast_of_none (preemptionVictim_eq_none_iff.mp hv)
  | some p =>
    obtain ⟨v, n⟩ := p
    rw [hv] at hfinal
    obtain ⟨seen, he⟩ := hfinal
    obtain ⟨⟨hcand, hroom⟩, hfirst⟩ := preemptionVictim_first hv
    rw [preemptsLeast_of_some hv he]
    constructor
    · rintro ⟨hright, hleast⟩
      refine ⟨fun u hu _ => ⟨v, hright, hleast u hu⟩, ?_⟩
      intro u hu hbad
      rcases hfirst u hu with rfl | hbefore
      · exact absurd hright hbad
      · exact ⟨v, hright, hbefore⟩
    · rintro ⟨hrefused, htaken⟩
      -- whatever else passes is looked at after `v`
      have hlast : ∀ u, Passes dep req w u → preemptBefore u v = false := by
        intro u hu
        rcases hfirst u hu with rfl | hbefore
        · exact preemptBefore_eq_false_iff.mpr (Or.inr ⟨rfl, le_rfl⟩)
        · exact hbefore.not_before
      have hright : ComputedRight dep req w v := by
        by_contra hbad
        obtain ⟨u, hu, hbefore⟩ := htaken v ⟨n, hcand, hroom⟩ hbad
        rcases hfirst u hu.passes with rfl | hafter
        · exact hbad hu
        · exact hbefore.asymm hafter
      refine ⟨hright, ?_⟩
      intro u hu
      by_cases hpass : Passes dep req w u
      · exact hlast u hpass
      · obtain ⟨v', hv', hbefore⟩ := hrefused u hu hpass
        exact preemptBefore_trans v v' u (hlast v' hv'.passes) hbefore

/-- A node with all the memory and CPU that can be written down, on which a workload of
priority 1 is stored and nothing is counted. -/
def boundlessWorld : World where
  store := (Store.empty.put .node { smallNode with allocatable := ⟨2 ^ 63 - 1, 2 ^ 63 - 1⟩ }).put
    .workload { id := "v", deploymentID := "low", priority := 1, nodeID := "n1", image := "img",
                resources := ⟨1, 1⟩, status := .running, createdAt := 0, updatedAt := 0 }
  tick := 0

/-- A deployment that may preempt it. -/
def urgentDeployment : Deployment :=
  newDeployment "high" { webSpec with priority := 10 } 0

/-- The room that the workload would leave overflows, and nothing is preempted. -/
theorem preemption_refuses_sufficient :
    ¬ PreemptsLeast urgentDeployment ⟨1, 1⟩ boundlessWorld
      ((tryPreemptForPriority urgentDeployment ⟨1, 1⟩).final (exec steadyEnv) boundlessWorld) := by
  intro h
  have hsame : ((tryPreemptForPriority urgentDeployment ⟨1, 1⟩).final (exec steadyEnv)
      boundlessWorld).workloads = boundlessWorld.workloads := by
    decide +kernel
  have hcand : ∃ v ∈ boundlessWorld.workloads.rows, ∃ n ∈ boundlessWorld.nodes.rows,
      v.priority < urgentDeployment.spec.priority ∧ v.deploymentID ≠ urgentDeployment.id ∧
        boundlessWorld.nodes.get v.nodeID = some n ∧ n.status = .ready ∧
        (1 ≤ n.exactRoomWithout v .cpu ∧ 1 ≤ n.exactRoomWithout v .mem) := by
    decide +kernel
  obtain ⟨v, hv, n, -, hlow, hother, hnode, hready, hroom⟩ := hcand
  obtain ⟨u, ⟨⟨m, hm, -⟩, -⟩, hev⟩ :=
    h.2 ⟨v, n, ⟨hv, hlow, hother, hnode, hready⟩, forall_dim.mpr hroom⟩
  have hgone := hm.stored
  rw [← hsame, hev.workloads] at hgone
  exact (Table.mem_rows_del.mp hgone).2 rfl

/-! ### Evictions and the assignment queue -/

/-- The candidate that is looked at first among those that pass the test. -/
def FirstPassing (dep : Deployment) (req : Resource) (w : World) (v : Workload) : Prop :=
  Passes dep req w v ∧ ∀ u, Passes dep req w u → u = v ∨ LookedAtBefore v u

/-- Nothing is left to do for a workload that is gone: no create assignment for it is queued,
and if one was delivered to its node, a delete assignment is queued there. -/
def SettledFor (delivered : Workload → Prop) (w : World) (v : Workload) : Prop :=
  (∀ a ∈ w.queue.rows, ¬ (a.action = .create ∧ a.workloadID = v.id)) ∧
    (delivered v → ∃ a ∈ w.queue.rows,
      a.action = .delete ∧ a.workloadID = v.id ∧ a.nodeID = v.nodeID)

lemma firstPassing_of_victim
    (h : preemptionVictim dep req w.workloads.rows w.nodes.rows = some (v, n)) :
    FirstPassing dep req w v := by
  obtain ⟨hv, hfirst⟩ := preemptionVictim_first h
  exact ⟨⟨n, hv⟩, hfirst⟩

lemma FirstPassing.unique (hu : FirstPassing dep req w u)
    (hv : FirstPassing dep req w v) : u = v := by
  rcases hv.2 u hu.1 with rfl | hvu
  · rfl
  · rcases hu.2 v hv.1 with rfl | huv
    · rfl
    · exact absurd hvu huv.asymm

/-- **Evictions.**  Whatever was delivered before, an eviction is complete exactly if the
assignments of the workload that it takes were settled before the call: the queue is not
touched. -/
theorem eviction_complete_iff (env : Env) (dep : Deployment) (req : Resource) (w : World)
    (delivered : Workload → Prop) :
    let w' := (tryPreemptForPriority dep req).final (exec env) w
    (∀ v ∈ w.workloads.rows, v ∉ w'.workloads.rows → SettledFor delivered w' v) ↔
      ∀ v, FirstPassing dep req w v → SettledFor delivered w v := by
  intro w'
  have hfinal := tryPreempt_final env dep req w
  cases hv : preemptionVictim dep req w.workloads.rows w.nodes.rows with
  | none =>
    rw [hv] at hfinal
    have hw' : w' = w := hfinal
    have hnone := preemptionVictim_eq_none_iff.mp hv
    constructor
    · exact fun _ v hfirst => absurd hfirst.1 (hnone v)
    · intro _ v hmem hgone
      rw [hw'] at hgone
      exact absurd hmem hgone
  | some p =>
    obtain ⟨v, n⟩ := p
    rw [hv] at hfinal
    obtain ⟨seen, he⟩ := hfinal
    have hfirst := firstPassing_of_victim hv
    obtain ⟨m, hcand, -⟩ := hfirst.1
    have hsettled : ∀ u, SettledFor delivered w' u ↔ SettledFor delivered w u := by
      intro u
      rw [SettledFor, SettledFor, he.queue]
    have hgone : ∀ u ∈ w.workloads.rows, u ∉ w'.workloads.rows ↔ u = v := by
      intro u hu
      rw [he.workloads, Table.mem_rows_del, not_and, not_not]
      constructor
      · intro h
        exact Table.eq_of_mem_of_key_eq hu hcand.stored (h hu)
      · rintro rfl _
        rfl
    constructor
    · intro h u hu
      obtain rfl := hu.unique hfirst
      exact (hsettled u).mp (h u hcand.stored ((hgone u hcand.stored).mpr rfl))
    · intro h u hu hu'
      obtain rfl := (hgone u hu).mp hu'
      exact (hsettled u).mpr (h u hfirst)

/-- A low-priority deployment whose replica was delivered to the node and runs. -/
def occupiedRun : List Event :=
  [.registerNode smallNode, .createDeployment { webSpec with priority := 1 }, .poll "n1" 10,
    .work "n1" 3 willingRuntime]

def occupiedWorld : World := (after (Sys.step steadyEnv plainConfig) occupiedRun Sys.init).world

/-- The running replica is evicted, and no delete assignment is queued for it. -/
theorem eviction_leaves_container :
    let w' := (tryPreemptForPriority urgentDeployment ⟨600, 600⟩).final (exec steadyEnv)
      occupiedWorld
    ∃ v ∈ occupiedWorld.workloads.rows, v.status = .running ∧ v ∉ w'.workloads.rows ∧
      ¬ SettledFor (fun u => u.status = .running) w' v := by
  intro w'
  have hstate : ∃ v ∈ occupiedWorld.workloads.rows, v.status = .running ∧
      v ∉ w'.workloads.rows ∧ ¬ ∃ a ∈ w'.queue.rows,
        a.action = .delete ∧ a.workloadID = v.id ∧ a.nodeID = v.nodeID := by
    decide +kernel
  obtain ⟨v, hv, hrun, hgone, hno⟩ := hstate
  exact ⟨v, hv, hrun, hgone, fun h => hno (h.2 hrun)⟩

/-! ### Failed placements -/

/-- The workloads, the counted use of every node and the queue are as before. -/
structure Traceless (w w' : World) : Prop where
  workloads : w'.workloads = w.workloads
  used : ∀ id, (w'.nodes.get id).map Node.used = (w.nodes.get id).map Node.used
  queue : w'.queue = w.queue

lemma Quiet.traceless (h : Quiet w w') : Traceless w w' :=
  ⟨h.workloads, fun id => by rw [h.nodes], h.queue⟩

/-- **Failed placements.**  A call of `createWorkloadForDeployment` that fails leaves no trace
exactly if, when a node can be found for the replica, every mounted secret is stored, and
otherwise no preemption is tried or it finds no victim. -/
theorem failed_placement_traceless_iff (o : Config) (dep : Deployment) (hw : Fresh env w) :
    ((∃ e, (createWorkloadForDeployment o dep).result (exec env) w = .error e) →
      Traceless w ((createWorkloadForDeployment o dep).final (exec env) w)) ↔
    (Placeable dep w → SecretsStored dep w.secrets) ∧
      (¬ Placeable dep w → 0 < dep.spec.priority →
        ∀ v, ¬ Passes dep dep.spec.resources w v) := by
  have hrun : Holds env Rules.any (createWorkloadForDeployment o dep) w _ :=
    createWorkload_outcome (allows_any dep w.deps)
  obtain ⟨hcreate, hleft⟩ := hrun.run
  generalize (createWorkloadForDeployment o dep).result (exec env) w = r at hcreate hleft ⊢
  generalize (createWorkloadForDeployment o dep).final (exec env) w = w' at hcreate hleft ⊢
  rcases hcreate with ⟨hpl, ⟨w₁, hclear, hplaced⟩, hend⟩ | ⟨rfl, hno, -⟩
  · -- a node was found, and the record of the replica is stored
    have htrace : ¬ Traceless w w' := by
      intro h
      obtain ⟨n, v, k, seen, A, -, -, -, hid, hk, -, he⟩ := hplaced
      have hmem : v ∈ w'.workloads.rows := by
        rw [he.workloads]
        exact Table.mem_rows_put.mpr (Or.inl rfl)
      rw [h.workloads] at hmem
      have htick : w.tick ≤ w₁.tick := by
        rcases hclear with ⟨-, hq⟩ | ⟨-, _, _, _, -, hev⟩
        · exact hq.tick
        · exact hev.tick
      exact hw v hmem k (htick.trans hk) hid
    rcases hend with ⟨rfl, hsec⟩ | ⟨rfl, hsec⟩
    · exact ⟨fun _ => ⟨fun _ => hsec, fun h => absurd hpl h⟩, fun _ ⟨_, h⟩ => by cases h⟩
    · exact ⟨fun h => absurd (h ⟨_, rfl⟩) htrace, fun h => absurd (h.1 hpl) hsec⟩
  · have hunhoused := hleft rfl
    constructor
    · intro h
      refine ⟨fun hpl => absurd hpl hno, fun _ hprio => ?_⟩
      rcases hunhoused with ⟨-, hnone⟩ | ⟨-, v, n, seen, hv, he⟩
      · exact preemptionVictim_eq_none_iff.mp (hnone hprio)
      · -- the victim is gone
        have hmem : v ∈ w.workloads.rows := (preemptionVictim_some hv).1
        rw [← (h ⟨_, rfl⟩).workloads, he.workloads] at hmem
        exact absurd rfl (Table.mem_rows_del.mp hmem).2
    · rintro ⟨-, h⟩ -
      rcases hunhoused with ⟨hq, -⟩ | ⟨hprio, v, n, seen, hv, -⟩
      · exact hq.traceless
      · exact absurd (firstPassing_of_victim hv).1 (h hno hprio v)

/-- On a node that is full, the placement of a replica that may preempt nothing fails, and nothing
changes. -/
theorem failed_placement_traceless_full :
    let w := occupiedWorld
    let p := createWorkloadForDeployment plainConfig (newDeployment "d" webSpec 0)
    (∃ v ∈ w.workloads.rows, v.status = .running) ∧
      (∃ e, p.result (exec steadyEnv) w = .error e) ∧
      Traceless w (p.final (exec steadyEnv) w) := by
  intro w p
  have hfail : ∃ e, p.result (exec steadyEnv) w = .error e :=
    ⟨.noSchedulableNode, by decide +kernel⟩
  refine ⟨by decide +kernel, hfail,
    (failed_placement_traceless_iff plainConfig _ (fresh_after _)).mpr ⟨?_, ?_⟩ hfail⟩
  · intro _ sm hsm
    cases hsm
  · intro _ hprio
    exact absurd hprio (by decide)

/-- A replica that mounts a secret which is not stored. -/
def keylessSpec : DeploymentSpec :=
  { webSpec with secretMounts := some [{ secretName := "key", mountPath := "/etc/key" }] }

/-- The placement fails for want of a secret, and the record and the reservation stay.  It fails
for want of a node in the right zone, and the running replica of another deployment is gone. -/
theorem failed_placement_leaves_traces :
    (let w : World := ⟨Store.empty.put .node smallNode, 0⟩
      let p := createWorkloadForDeployment plainConfig (newDeployment "d" keylessSpec 0)
      p.result (exec steadyEnv) w = .error .notFound ∧
        ¬ Traceless w (p.final (exec steadyEnv) w)) ∧
    (let w := occupiedWorld
      let p := createWorkloadForDeployment plainConfig (newDeployment "high"
        { webSpec with priority := 10, labels := some (Table.ofList [("affinity.zone", "b")]) } 0)
      p.result (exec steadyEnv) w = .error .noSchedulableNode ∧
        ¬ Traceless w (p.final (exec steadyEnv) w)) := by
  constructor
  · refine ⟨by decide +kernel, fun h => ?_⟩
    exact absurd h.workloads (by decide +kernel)
  · refine ⟨by decide +kernel, fun h => ?_⟩
    exact absurd h.workloads (by decide +kernel)

end Orchestrator
