/-
# Booking

The books of the control plane: what the workloads stored for a node request (`load`), and
how the reservation and the release of a request move the 64-bit counter of the node.  A
counter that covers the load and a request that passes `fits` cannot overflow, and a
release cannot run into the clamp at zero.

`Booked ρ` is the invariant, for a relation `ρ` between load and counter: equality where
only the control plane writes the counter, `≤` where the workers write it too.
-/
import Mathlib.Algebra.Order.BigOperators.Group.List
import Orchestrator.Logic.Workers

namespace Orchestrator

open Lib

/-! ### Amounts -/

/-- The two dimensions of a resource. -/
inductive Dim
  | cpu
  | mem
deriving DecidableEq, Repr

def Resource.amount (r : Resource) : Dim → ℤ
  | .cpu => r.milliCPU.toInt
  | .mem => r.memoryMB.toInt

def Resource.Nonneg (r : Resource) : Prop := ∀ k, 0 ≤ r.amount k

/-- The number in a dimension. -/
def Resource.part (r : Resource) : Dim → Int64
  | .cpu => r.milliCPU
  | .mem => r.memoryMB

lemma Resource.amount_eq (r : Resource) (k : Dim) : r.amount k = (r.part k).toInt := by
  cases k <;> rfl

lemma Resource.part_reserve (u r : Resource) (k : Dim) :
    (u.reserve r).part k = u.part k + r.part k := by
  cases k <;> rfl

lemma Resource.part_release (u r : Resource) (k : Dim) :
    (u.release r).part k = if u.part k - r.part k < 0 then 0 else u.part k - r.part k := by
  cases k <;> rfl

lemma toInt_add_of_le {a b c : Int64} (ha : 0 ≤ a.toInt) (hb : 0 ≤ b.toInt)
    (h : a.toInt + b.toInt ≤ c.toInt) : (a + b).toInt = a.toInt + b.toInt := by
  have hc := c.toInt_lt
  rw [Int64.toInt_add]
  exact Int.bmod_eq_of_le (by omega) (by omega)

lemma toInt_sub_of_nonneg {a b : Int64} (ha : 0 ≤ a.toInt) (hb : 0 ≤ b.toInt) :
    (a - b).toInt = a.toInt - b.toInt := by
  have ha' := a.toInt_lt
  have hb' := b.toInt_lt
  rw [Int64.toInt_sub]
  exact Int.bmod_eq_of_le (by omega) (by omega)

/-- A reservation that stays within a representable bound adds up. -/
lemma Resource.amount_reserve {u r a : Resource} {k : Dim} (hu : 0 ≤ u.amount k)
    (hr : 0 ≤ r.amount k) (h : u.amount k + r.amount k ≤ a.amount k) :
    (u.reserve r).amount k = u.amount k + r.amount k := by
  simp only [amount_eq] at hu hr h ⊢
  rw [part_reserve]
  exact toInt_add_of_le hu hr h

/-- The release of something that was reserved subtracts; the clamp does not fire. -/
lemma Resource.amount_release {u r : Resource} {k : Dim} (hr : 0 ≤ r.amount k)
    (h : r.amount k ≤ u.amount k) : (u.release r).amount k = u.amount k - r.amount k := by
  simp only [amount_eq] at hr h ⊢
  have hsub := toInt_sub_of_nonneg (hr.trans h) hr
  have hneg : ¬ u.part k - r.part k < 0 := by
    rw [Int64.lt_iff_toInt_lt, hsub]
    simp only [Int64.toInt_zero]
    omega
  rw [part_release, if_neg hneg, hsub]

/-- What passes `fits` stays within the allocatable amount. -/
lemma fits_amount {n : Node} {r : Resource} {k : Dim} (h : fits n r = true)
    (hu : 0 ≤ n.used.amount k) (ha : 0 ≤ n.allocatable.amount k) :
    n.used.amount k + r.amount k ≤ n.allocatable.amount k := by
  have hk : r.part k ≤ n.allocatable.part k - n.used.part k := by
    simp only [fits, Bool.and_eq_true, decide_eq_true_eq] at h
    cases k
    · exact h.1
    · exact h.2
  simp only [Resource.amount_eq] at hu ha ⊢
  rw [Int64.le_iff_toInt_le, toInt_sub_of_nonneg ha hu] at hk
  omega

/-! ### Loads -/

/-- What the workloads stored for a node request. -/
def load (W : Table Workload Workload.id) (node : String) (k : Dim) : ℤ :=
  ((W.rows.filter fun v => v.nodeID = node).map fun v => v.resources.amount k).sum

/-- The share of one workload in the load of a node. -/
def share (node : String) (k : Dim) (v : Workload) : ℤ :=
  if v.nodeID = node then v.resources.amount k else 0

lemma load_eq_sum (W : Table Workload Workload.id) (node : String) (k : Dim) :
    load W node k = (W.rows.map (share node k)).sum := by
  rw [load]
  induction W.rows with
  | nil => rfl
  | cons v vs ih =>
    by_cases h : v.nodeID = node
    · simp [share, h, ih]
    · simp [share, h, ih]

variable {W W' : Table Workload Workload.id} {v : Workload} {node : String} {k : Dim}

lemma load_put_new (h : W.get v.id = none) :
    load (W.put v) node k = load W node k + share node k v := by
  rw [load_eq_sum, load_eq_sum, ((Table.perm_put_of_get_none h).map _).sum_eq, List.map_cons,
    List.sum_cons, add_comm]

lemma load_del (h : v ∈ W.rows) : load (W.del v.id) node k = load W node k - share node k v := by
  have hperm := ((Table.perm_of_get (Table.get_of_mem h)).map (share node k)).sum_eq
  rw [List.map_cons, List.sum_cons] at hperm
  rw [load_eq_sum, load_eq_sum, hperm, add_sub_cancel_left]

/-- Changes that keep the node and the request of every workload keep the load. -/
lemma load_map {g : Workload → Workload} (hW : W'.rows = W.rows.map g)
    (hg : ∀ u ∈ W.rows, (g u).nodeID = u.nodeID ∧ (g u).resources = u.resources) :
    load W' node k = load W node k := by
  rw [load_eq_sum, load_eq_sum, hW, List.map_map]
  congr 1
  refine List.map_congr_left ?_
  intro u hu
  obtain ⟨h₁, h₂⟩ := hg u hu
  simp only [Function.comp_apply, share, h₁, h₂]

lemma share_nonneg (h : v.resources.Nonneg) : 0 ≤ share node k v := by
  unfold share
  split
  · exact h k
  · exact le_rfl

lemma load_nonneg (h : ∀ v ∈ W.rows, v.resources.Nonneg) : 0 ≤ load W node k := by
  rw [load_eq_sum]
  refine List.sum_nonneg ?_
  intro x hx
  obtain ⟨v, hv, rfl⟩ := List.mem_map.mp hx
  exact share_nonneg (h v hv)

lemma share_le_load (h : ∀ v ∈ W.rows, v.resources.Nonneg) (hv : v ∈ W.rows) :
    share node k v ≤ load W node k := by
  have hdel : 0 ≤ load (W.del v.id) node k :=
    load_nonneg fun u hu => h u (Table.mem_rows_del.mp hu).1
  rw [load_del hv] at hdel
  omega

lemma load_eq_zero (h : ∀ v ∈ W.rows, v.nodeID ≠ node) : load W node k = 0 := by
  have hnil : (W.rows.filter fun v => v.nodeID = node) = [] := by
    rw [List.filter_eq_nil_iff]
    intro v hv
    simpa using h v hv
  rw [load, hnil]
  rfl

/-! ### The books -/

/-- Relations between load and counter that a reservation and a release respect. -/
structure Tolerates (ρ : ℤ → ℤ → Prop) : Prop where
  le : ∀ {a b : ℤ}, ρ a b → a ≤ b
  shift : ∀ {a b : ℤ} (c : ℤ), ρ a b → ρ (a + c) (b + c)

lemma tolerates_eq : Tolerates (· = ·) := ⟨fun h => h.le, fun c h => by rw [h]⟩

lemma tolerates_le : Tolerates (· ≤ ·) := ⟨id, fun c h => by omega⟩

/-- The counter of every node is related to its load, the load is within what is allocatable,
and every workload is on a stored node. -/
structure Booked (ρ : ℤ → ℤ → Prop) (N : Table Node Node.id) (W : Table Workload Workload.id) :
    Prop where
  book : ∀ n ∈ N.rows, ∀ k, ρ (load W n.id k) (n.used.amount k)
  room : ∀ n ∈ N.rows, ∀ k, load W n.id k ≤ n.allocatable.amount k
  hosted : ∀ v ∈ W.rows, ∃ n ∈ N.rows, n.id = v.nodeID

namespace Booked

variable {ρ : ℤ → ℤ → Prop} {N : Table Node Node.id} {n n' : Node}

/-- A node that is written keeps the workloads hosted. -/
lemma hosted_put {W' : Table Workload Workload.id} (h : Booked ρ N W)
    (hW : ∀ v ∈ W'.rows, v ∈ W.rows ∨ v.nodeID = n'.id) :
    ∀ v ∈ W'.rows, ∃ m ∈ (N.put n').rows, m.id = v.nodeID := by
  intro v hv
  by_cases hid : v.nodeID = n'.id
  · exact ⟨n', Table.mem_rows_put.mpr (Or.inl rfl), hid.symm⟩
  · obtain ⟨m, hm, hmid⟩ := h.hosted v ((hW v hv).resolve_right hid)
    refine ⟨m, Table.mem_rows_put.mpr (Or.inr ⟨hm, ?_⟩), hmid⟩
    rwa [hmid]

/-- A node is written: its own counter and load move together, and no other load moves. -/
lemma put (h : Booked ρ N W)
    (hbook : ∀ k, ρ (load W' n'.id k) (n'.used.amount k))
    (hroom : ∀ k, load W' n'.id k ≤ n'.allocatable.amount k)
    (hother : ∀ node k, node ≠ n'.id → load W' node k = load W node k)
    (hW : ∀ v ∈ W'.rows, v ∈ W.rows ∨ v.nodeID = n'.id) : Booked ρ (N.put n') W' where
  book m hm k := by
    rcases Table.mem_rows_put.mp hm with rfl | ⟨hm, hne⟩
    · exact hbook k
    · rw [hother _ _ hne]
      exact h.book m hm k
  room m hm k := by
    rcases Table.mem_rows_put.mp hm with rfl | ⟨hm, hne⟩
    · exact hroom k
    · rw [hother _ _ hne]
      exact h.room m hm k
  hosted := h.hosted_put hW

lemma counter_nonneg (hρ : Tolerates ρ) (h : Booked ρ N W)
    (hW : ∀ v ∈ W.rows, v.resources.Nonneg) (hn : n ∈ N.rows) (k : Dim) :
    0 ≤ n.used.amount k ∧ 0 ≤ n.allocatable.amount k :=
  ⟨(load_nonneg hW).trans (hρ.le (h.book n hn k)), (load_nonneg hW).trans (h.room n hn k)⟩

/-- A workload is placed on a node where its request fits. -/
lemma reserve (hρ : Tolerates ρ) (h : Booked ρ N W) (hW : ∀ v ∈ W.rows, v.resources.Nonneg)
    (hn : n ∈ N.rows) (hfit : fits n v.resources = true) (hv : v.resources.Nonneg)
    (hnode : v.nodeID = n.id) (hnew : W.get v.id = none) (seen : Time) :
    Booked ρ (N.put { n with used := n.used.reserve v.resources, lastSeen := seen }) (W.put v) := by
  have hshare : ∀ k, share n.id k v = v.resources.amount k := by
    intro k
    rw [share, if_pos hnode]
  have hsum : ∀ k, n.used.amount k + v.resources.amount k ≤ n.allocatable.amount k := by
    intro k
    obtain ⟨hu, ha⟩ := h.counter_nonneg hρ hW hn k
    exact fits_amount hfit hu ha
  refine h.put ?_ ?_ ?_ ?_
  · intro k
    have hu := (h.counter_nonneg hρ hW hn k).1
    rw [load_put_new hnew, hshare, Resource.amount_reserve hu (hv k) (hsum k)]
    exact hρ.shift _ (h.book n hn k)
  · intro k
    have hle := hρ.le (h.book n hn k)
    have hk := hsum k
    rw [load_put_new hnew, hshare]
    exact (add_le_add_left hle _).trans hk
  · intro node k hne
    rw [load_put_new hnew, share, if_neg, add_zero]
    rw [hnode]
    exact fun h => hne h.symm
  · intro u hu
    rcases Table.mem_rows_put.mp hu with rfl | ⟨hu, -⟩
    · exact Or.inr hnode
    · exact Or.inl hu

/-- A workload is removed and its reservation given back. -/
lemma release (hρ : Tolerates ρ) (h : Booked ρ N W) (hW : ∀ v ∈ W.rows, v.resources.Nonneg)
    (hn : n ∈ N.rows) (hv : v ∈ W.rows) (hnode : n.id = v.nodeID) (seen : Time) :
    Booked ρ (N.put { n with used := n.used.release v.resources, lastSeen := seen })
      (W.del v.id) := by
  have hshare : ∀ k, share n.id k v = v.resources.amount k := by
    intro k
    rw [share, if_pos hnode.symm]
  have hle : ∀ k, v.resources.amount k ≤ load W n.id k := by
    intro k
    rw [← hshare]
    exact share_le_load hW hv
  refine h.put ?_ ?_ ?_ ?_
  · intro k
    have hcover := (hle k).trans (hρ.le (h.book n hn k))
    rw [load_del hv, hshare, Resource.amount_release (hW v hv k) hcover, sub_eq_add_neg,
      sub_eq_add_neg]
    exact hρ.shift _ (h.book n hn k)
  · intro k
    have hroom := h.room n hn k
    have hpos := hW v hv k
    rw [load_del hv, hshare]
    change load W n.id k - _ ≤ n.allocatable.amount k
    omega
  · intro node k hne
    rw [load_del hv, share, if_neg, sub_zero]
    rw [← hnode]
    exact fun h => hne h.symm
  · intro u hu
    exact Or.inl (Table.mem_rows_del.mp hu).1

/-- A node is written with its counter and its allocatable amount unchanged. -/
lemma touch (h : Booked ρ N W) (hn : n ∈ N.rows) (hid : n'.id = n.id) (hused : n'.used = n.used)
    (halloc : n'.allocatable = n.allocatable) : Booked ρ (N.put n') W := by
  refine h.put ?_ ?_ (fun _ _ _ => rfl) fun _ hv => Or.inl hv
  · intro k
    rw [hid, hused]
    exact h.book n hn k
  · intro k
    rw [hid, halloc]
    exact h.room n hn k

/-- The workloads change, but not their nodes and requests. -/
lemma map {g : Workload → Workload} (h : Booked ρ N W) (hW' : W'.rows = W.rows.map g)
    (hg : ∀ u ∈ W.rows, (g u).nodeID = u.nodeID ∧ (g u).resources = u.resources) :
    Booked ρ N W' where
  book n hn k := by
    rw [load_map hW' hg]
    exact h.book n hn k
  room n hn k := by
    rw [load_map hW' hg]
    exact h.room n hn k
  hosted v hv := by
    rw [hW'] at hv
    obtain ⟨u, hu, rfl⟩ := List.mem_map.mp hv
    rw [(hg u hu).1]
    exact h.hosted u hu

end Booked

end Orchestrator
