/-
# Counting replicas

A reconcile pass decides by numbers: how many replicas of the current and of older revisions
are running or pending.  `Census` holds these numbers, and the first part of this file says
what a pass is for in their terms: it lets the new revision grow and culls the old one, then
everything in excess, pending replicas before running ones (`Census.Rolled`).  The second
part connects it to the tables: the census of the stored workloads moves by `Rolled` in every
pass whose placements all succeed.
-/
import Orchestrator.Logic.Reconcile

namespace Orchestrator

open Lib

variable {n : ℕ} {vs : List Workload} {m : ℤ} {id : String}

/-! ### Numbers of replicas -/

/-- How many active replicas there are, by revision and status. -/
structure Census where
  oldRunning : ℕ
  oldPending : ℕ
  newRunning : ℕ
  newPending : ℕ

namespace Census

variable {k : ℕ}

def old (c : Census) : ℕ := c.oldRunning + c.oldPending

def new (c : Census) : ℕ := c.newRunning + c.newPending

def running (c : Census) : ℕ := c.oldRunning + c.newRunning

def pending (c : Census) : ℕ := c.oldPending + c.newPending

def total (c : Census) : ℕ := c.old + c.new

instance : Add Census where
  add c d := ⟨c.oldRunning + d.oldRunning, c.oldPending + d.oldPending,
    c.newRunning + d.newRunning, c.newPending + d.newPending⟩

section Add

variable (c d : Census)

@[simp] lemma add_oldRunning : (c + d).oldRunning = c.oldRunning + d.oldRunning := rfl

@[simp] lemma add_oldPending : (c + d).oldPending = c.oldPending + d.oldPending := rfl

@[simp] lemma add_newRunning : (c + d).newRunning = c.newRunning + d.newRunning := rfl

@[simp] lemma add_newPending : (c + d).newPending = c.newPending + d.newPending := rfl

end Add

/-- `n` replicas of the new revision are created. -/
def grow (n : ℕ) (c : Census) : Census := { c with newPending := c.newPending + n }

lemma total_grow (n : ℕ) (c : Census) : (c.grow n).total = c.total + n := by
  simp only [total, old, new, grow]
  omega

/-- `k` old replicas are let go, pending ones first. -/
def cullOld (k : ℕ) (c : Census) : Census :=
  { c with oldPending := c.oldPending - k, oldRunning := c.oldRunning - (k - c.oldPending) }

/-- `k` replicas are let go, pending ones first, whatever their revision. -/
structure Culled (k : ℕ) (c c' : Census) : Prop where
  pending : c'.pending = c.pending - k
  running : c'.running = c.running - (k - c.pending)
  old : c'.old ≤ c.old

/-- A rollout pass: `n` new replicas are created, the old ones are culled down to what `m`
available replicas allow, and the rest to `R`. -/
def Rolled (R m : ℤ) (n : ℕ) (c c' : Census) : Prop :=
  let c₁ := c.grow n
  let c₂ := c₁.cullOld (min (c₁.old : ℤ) (c₁.total - m)).toNat
  Culled (c₂.total - R).toNat c₂ c'

variable {R m : ℤ} {n : ℕ} {c c' : Census}

lemma total_eq (c : Census) : c.total = c.running + c.pending := by
  simp only [total, old, new, running, pending]
  omega

lemma cullOld_old (k : ℕ) (c : Census) : (c.cullOld k).old = c.old - k := by
  simp only [old, cullOld]
  omega

/-- Letting `k` old replicas go, as a sum. -/
lemma eq_cullOld {v : Census} (hsum : c' + v = c) (hnew : v.new = 0)
    (hpending : v.pending = min k c.oldPending) (htotal : v.total = min k c.old) :
    c' = c.cullOld k := by
  subst hsum
  obtain ⟨a, b, d, e⟩ := c'
  obtain ⟨a', b', d', e'⟩ := v
  simp only [new, pending, total, old, add_oldRunning, add_oldPending] at hnew hpending htotal
  have hd : d' = 0 := by omega
  have he : e' = 0 := by omega
  simp only [cullOld, add_oldRunning, add_oldPending, add_newRunning, add_newPending, mk.injEq]
  omega

/-- Letting `k` replicas go, as a sum. -/
lemma culled_of_sum {v : Census} (hsum : c' + v = c)
    (hpending : v.pending = min k c.pending) (htotal : v.total = min k c.total) :
    Culled k c c' := by
  subst hsum
  simp only [pending, total, old, new, add_oldRunning, add_oldPending, add_newRunning,
    add_newPending] at hpending htotal
  constructor <;> simp only [pending, running, old, add_oldRunning, add_oldPending, add_newRunning,
    add_newPending] <;> omega

lemma Culled.total_eq (h : Culled k c c') : c'.total = c.total - k := by
  rw [Census.total_eq, Census.total_eq, h.pending, h.running]
  omega

/-- Culling down to `R` replicas leaves `R` of the running ones, if there are so many. -/
lemma Culled.running_eq (h : Culled (c.total - R).toNat c c') (hR : 0 ≤ R) :
    (c'.running : ℤ) = min (c.running : ℤ) R := by
  rw [h.running, Census.total_eq]
  omega

/-- The replicas that are left when the old ones have been culled. -/
def pruned (m : ℤ) (n : ℕ) (c : Census) : Census :=
  (c.grow n).cullOld (min ((c.grow n).old : ℤ) ((c.grow n).total - m)).toNat

section Pruned

variable (m : ℤ) (n : ℕ) (c : Census)

/-- How many old replicas are culled. -/
lemma pruned_old : (c.pruned m n).old = c.old - (min (c.old : ℤ) (c.total + n - m)).toNat := by
  rw [pruned, cullOld_old, total_grow]
  rfl

lemma pruned_total : (c.pruned m n).total = (c.pruned m n).old + (c.new + n) := by
  rw [total, pruned]
  simp only [new, cullOld, grow]
  omega

lemma pruned_running : ((c.pruned m n).running : ℤ) =
    c.running - max 0 (min (c.oldRunning : ℤ) (c.running - m + c.newPending + n)) := by
  simp only [pruned, cullOld, Census.total_eq]
  simp only [running, pending, grow, old]
  omega

end Pruned

/-- How many running replicas a pass leaves. -/
lemma Rolled.running_eq (h : Rolled R m n c c') (hm : 0 ≤ m) (hR : m ≤ R) :
    (c'.running : ℤ) =
      min (c.running - max 0 (min (c.oldRunning : ℤ) (c.running - m + c.newPending + n))) R := by
  rw [← pruned_running]
  exact Culled.running_eq h (hm.trans hR)

/-- Old replicas are replaced as soon as there are more than `m` replicas. -/
lemma Rolled.old_lt (h : Rolled R m n c c') (hold : 0 < c.old) (hm : m < c.total + n) :
    c'.old < c.old := by
  have hp : c'.old ≤ (c.pruned m n).old := h.old
  rw [pruned_old] at hp
  omega

lemma Rolled.old_le (h : Rolled R m n c c') : c'.old ≤ c.old := by
  have hp : c'.old ≤ (c.pruned m n).old := h.old
  rw [pruned_old] at hp
  omega

/-- The second round goes down to what is wanted. -/
lemma Rolled.total_eq_sub (h : Rolled R m n c c') :
    c'.total = (c.pruned m n).total - ((c.pruned m n).total - R).toNat :=
  Culled.total_eq h

/-- A pass leaves no more replicas than are wanted. -/
lemma Rolled.total_le (h : Rolled R m n c c') : (c'.total : ℤ) ≤ max 0 R := by
  rw [h.total_eq_sub]
  omega

lemma Rolled.total_le_add (h : Rolled R m n c c') : c'.total ≤ c.total + n := by
  have hp := h.total_eq_sub
  rw [pruned_total, pruned_old] at hp
  rw [total, total] at *
  omega

/-- Replicas are in excess after the old ones have been culled only if none of these is left:
otherwise the culling went down to `m`.  What stays are at least `R` new ones. -/
lemma Rolled.of_excess {U : ℤ} (h : Rolled R m n c c') (hU : 0 ≤ U) (hm : m = max 0 (R - U))
    (hex : R < (c.pruned m n).total) : c'.old = 0 ∧ R ≤ c'.new := by
  have hp := h.total_eq_sub
  have ho : c'.old ≤ (c.pruned m n).old := h.old
  have hnone : (c.pruned m n).old = 0 := by
    rw [pruned_total] at hex
    rw [pruned_old] at hex ⊢
    rw [total] at *
    omega
  rw [total] at hp
  omega

/-- Once no old replica is left, a pass that may create what is missing brings the number to
what is wanted. -/
lemma Rolled.total_eq (h : Rolled R m n c c') (hold : c.old = 0) (hR : 0 ≤ R)
    (hn : (n : ℤ) = max 0 (R - c.total)) : (c'.total : ℤ) = R := by
  have hp := h.total_eq_sub
  rw [pruned_total, pruned_old, hold] at hp
  rw [total, hold] at hn
  omega

end Census

/-! ### The census of a list of workloads -/

/-- The census of a list of workloads, with `rev` as the new revision. -/
def census (rev : ℤ) (l : List Workload) : Census where
  oldRunning := l.countP fun v => v.version ≠ rev && v.status = .running
  oldPending := l.countP fun v => v.version ≠ rev && v.status = .pending
  newRunning := l.countP fun v => v.version = rev && v.status = .running
  newPending := l.countP fun v => v.version = rev && v.status = .pending

section Census

variable {rev : ℤ} {l l' : List Workload}

lemma census_perm (h : l.Perm l') : census rev l = census rev l' := by
  simp only [census, h.countP_eq]

/-- A count splits along any condition. -/
lemma countP_split {α : Type} (p q : α → Bool) (l : List α) :
    l.countP p = l.countP (fun a => q a && p a) + l.countP (fun a => !q a && p a) := by
  rw [List.countP_eq_countP_filter_add l p q, List.countP_filter, List.countP_filter]
  simp only [Bool.and_comm]

lemma runningCount_eq : runningCount l = (census rev l).running := by
  have h := countP_split (fun v : Workload => v.status = .running) (fun v => v.version ≠ rev) l
  simp only [runningCount, Census.running, census, h]
  simp

/-- Active replicas are running or pending. -/
lemma countP_active (p : Workload → Bool) (l : List Workload) :
    l.countP (fun v => p v && v.active) =
      l.countP (fun v => p v && v.status = .running) +
        l.countP (fun v => p v && v.status = .pending) := by
  rw [countP_split (fun v : Workload => p v && v.active) (fun v => v.status = .running) l]
  congr 1 <;> refine List.countP_congr fun v _ => ?_
  · simp [Workload.active]
    tauto
  · simp [Workload.active]
    grind

lemma length_oldActive :
    (oldRevisionWorkloads (activeWorkloads l) rev).length = (census rev l).old := by
  rw [oldRevisionWorkloads, activeWorkloads, List.filter_filter, ← List.countP_eq_length_filter,
    countP_active]
  rfl

lemma length_newActive :
    (activeForRevision (activeWorkloads l) rev).length = (census rev l).new := by
  rw [activeForRevision, activeWorkloads, List.filter_filter, ← List.countP_eq_length_filter,
    countP_active]
  rfl

variable (rev) in
lemma length_active : (activeWorkloads l).length = (census rev l).total := by
  have h := countP_split Workload.active (fun v => v.version ≠ rev) l
  rw [activeWorkloads, ← List.countP_eq_length_filter, h, countP_active, countP_active]
  simp [Census.total, Census.old, Census.new, census]

end Census

/-! ### Creating replicas -/

variable {env : Env} {o : Config} {dep : Deployment} {w w' : World}

/-- No stored workload has an id that is still to be drawn. -/
def Fresh (env : Env) (w : World) : Prop :=
  ∀ v ∈ w.workloads.rows, ∀ k, w.tick ≤ k → v.id ≠ env.workloadID k

lemma Fresh.of_known (hw : Fresh env w) (ht : w.tick ≤ w'.tick)
    (hW : ∀ v ∈ w'.workloads.rows, ∃ u ∈ w.workloads.rows, u.id = v.id) : Fresh env w' := by
  intro v hv k hk
  obtain ⟨u, hu, huv⟩ := hW v hv
  rw [← huv]
  exact hw u hu k (ht.trans hk)

lemma Fresh.of_workloads (hw : Fresh env w) (hW : w'.workloads = w.workloads)
    (ht : w.tick ≤ w'.tick) : Fresh env w' := by
  refine hw.of_known ht ?_
  rw [hW]
  exact fun v hv => ⟨v, hv, rfl⟩

/-- At most a preemption for a replica of `dep` took place. -/
def MadeRoom (dep : Deployment) (w w' : World) : Prop := Quiet w w' ∨ Evicted dep w w'

lemma Cleared.madeRoom (h : Cleared dep w w') : MadeRoom dep w w' :=
  h.imp And.right And.right

lemma MadeRoom.fresh (h : MadeRoom dep w w') (hw : Fresh env w) : Fresh env w' := by
  rcases h with h | ⟨v, n, seen, -, h⟩
  · exact hw.of_workloads h.workloads h.tick
  · refine hw.of_known h.tick ?_
    rw [h.workloads]
    exact fun u hu => ⟨u, (Table.mem_rows_del.mp hu).1, rfl⟩

/-- Preemption takes no workload of the deployment itself. -/
lemma MadeRoom.deployed (h : MadeRoom dep w w') : w'.deployed dep.id = w.deployed dep.id := by
  rcases h with h | ⟨v, n, seen, hv, h⟩
  · exact h.deployed dep.id
  · obtain ⟨hmem, -, hdep, -⟩ := preemptionVictim_some hv
    rw [h.deployed, Table.del, Table.rows_delWhere, List.filter_filter]
    refine List.filter_congr ?_
    intro u hu
    by_cases hud : u.deploymentID = dep.id
    · have hne : u.id ≠ v.id := by
        intro huv
        obtain rfl := Table.eq_of_mem_of_key_eq hu hmem huv
        exact hdep hud
      simp [hud, hne]
    · simp [hud]

/-- A replica that has just been created. -/
def JustCreated (dep : Deployment) (v : Workload) : Prop :=
  v.deploymentID = dep.id ∧ v.status = .pending ∧ v.version = dep.currentRevision

lemma Placed.deployed (hids : Function.Injective env.workloadID) (h : Placed env dep w w')
    (hw : Fresh env w) : Fresh env w' ∧ ∃ v, JustCreated dep v ∧
      (w'.deployed dep.id).Perm (v :: w.deployed dep.id) := by
  obtain ⟨n, v, k, seen, A, -, -, hrep, hid, hk, hk', he⟩ := h
  have hnew : ∀ u ∈ w.workloads.rows, u.id ≠ v.id := fun u hu huv =>
    hw u hu k hk (huv.trans hid)
  refine ⟨?_, v, ⟨hrep.deploymentID, hrep.status, hrep.version⟩, ?_⟩
  · intro u hu j hj
    rw [he.workloads, Table.mem_rows_put] at hu
    rcases hu with rfl | ⟨hu, -⟩
    · intro huj
      have hkj : k = j := hids (hid.symm.trans huj)
      omega
    · exact hw u hu j (he.tick.trans hj)
  · rw [he.deployed]
    have hperm := Table.perm_put_of_get_none (Table.get_eq_none_iff.mpr hnew)
    have hfilter := hperm.filter fun u : Workload => decide (u.deploymentID = dep.id)
    rwa [List.filter_cons_of_pos (by simp [hrep.deploymentID])] at hfilter

/-- The workloads of the deployment are those from before and `n` that were just created. -/
def Enlarged (dep : Deployment) (n : ℕ) (w w' : World) : Prop :=
  ∃ vs : List Workload, vs.length = n ∧ (∀ v ∈ vs, JustCreated dep v) ∧
    (w'.deployed dep.id).Perm (vs ++ w.deployed dep.id)

lemma Enlarged.of_eq (h : w'.deployed dep.id = w.deployed dep.id) : Enlarged dep 0 w w' :=
  ⟨[], rfl, by simp, by rw [h]; exact List.Perm.refl _⟩

lemma Enlarged.trans {n' : ℕ} {w₁ : World} (h : Enlarged dep n w w₁) (h' : Enlarged dep n' w₁ w') :
    Enlarged dep (n + n') w w' := by
  obtain ⟨vs, hlen, hvs, hperm⟩ := h
  obtain ⟨vs', hlen', hvs', hperm'⟩ := h'
  refine ⟨vs' ++ vs, by simp [hlen, hlen', Nat.add_comm], ?_, ?_⟩
  · intro v hv
    rcases List.mem_append.mp hv with hv | hv
    · exact hvs' v hv
    · exact hvs v hv
  · rw [List.append_assoc]
    exact hperm'.trans (hperm.append_left vs')

/-- One creation adds a workload if there is a node for it, even if it fails afterwards. -/
lemma Creation.enlarged (hids : Function.Injective env.workloadID) {r : Except Err Unit}
    (h : Creation env dep w r w') (hw : Fresh env w) : Fresh env w' ∧
      ((Placeable dep w ∧ Enlarged dep 1 w w') ∨
        (r = .error .noSchedulableNode ∧ ¬ Placeable dep w ∧ Enlarged dep 0 w w')) := by
  rcases h with ⟨hpl, ⟨w₁, hc, hp⟩, -⟩ | ⟨hr, hno, h⟩
  · obtain ⟨hw', v, hv, hperm⟩ := hp.deployed hids (hc.madeRoom.fresh hw)
    rw [hc.madeRoom.deployed] at hperm
    exact ⟨hw', Or.inl ⟨hpl, [v], rfl, by simpa using hv, hperm⟩⟩
  · have hroom : MadeRoom dep w w' := h
    exact ⟨hroom.fresh hw, Or.inr ⟨hr, hno, .of_eq hroom.deployed⟩⟩

lemma PlacedMany.enlarged (hids : Function.Injective env.workloadID)
    (h : PlacedMany env dep n w w') (hw : Fresh env w) :
    Fresh env w' ∧ Enlarged dep n w w' ∧ (0 < n → Placeable dep w) := by
  induction h with
  | zero w => exact ⟨hw, .of_eq rfl, fun h => absurd h (lt_irrefl 0)⟩
  | succ h _ ih =>
    obtain ⟨hw₁, ⟨hpl, hgrow⟩ | ⟨hr, -⟩⟩ := h.enlarged hids hw
    · obtain ⟨hw₂, hgrow', -⟩ := ih hw₁
      refine ⟨hw₂, ?_, fun _ => hpl⟩
      rw [Nat.add_comm]
      exact hgrow.trans hgrow'
    · cases hr

/-- **The creation of replicas**, counted: all of them unless one fails, never more, and at
least one if the first one finds a node. -/
lemma Creations.enlarged (hids : Function.Injective env.workloadID) {r : Option Err}
    (h : Creations env dep n w r w') (hw : Fresh env w) : Fresh env w' ∧ ∃ j, Enlarged dep j w w' ∧
      (r = none → j = n) ∧ j ≤ n ∧ (0 < n → (0 < j ↔ Placeable dep w)) := by
  cases r with
  | none =>
    obtain ⟨hw', hgrow, hpl⟩ := PlacedMany.enlarged hids h hw
    exact ⟨hw', n, hgrow, fun _ => rfl, le_rfl, fun hn => ⟨hpl, fun _ => hn⟩⟩
  | some e =>
    obtain ⟨j, w₁, hj, hmany, hc⟩ := h
    obtain ⟨hw₁, hgrow, hpl⟩ := hmany.enlarged hids hw
    obtain ⟨hw', hlast⟩ := hc.enlarged hids hw₁
    rcases hlast with ⟨hpl₁, hgrow'⟩ | ⟨-, hno, hgrow'⟩
    · refine ⟨hw', j + 1, hgrow.trans hgrow', nofun, hj, fun _ => ?_⟩
      refine ⟨fun _ => ?_, fun _ => Nat.succ_pos j⟩
      cases hmany with
      | zero => exact hpl₁
      | succ h _ => exact hpl (Nat.succ_pos _)
    · refine ⟨hw', j, hgrow.trans hgrow', nofun, hj.le, fun _ => ⟨hpl, ?_⟩⟩
      intro hpl₀
      cases hmany with
      | zero => exact absurd hpl₀ hno
      | succ h _ => exact Nat.succ_pos _

lemma census_append_new {rev : ℤ} {l : List Workload}
    (hvs : ∀ v ∈ vs, v.status = .pending ∧ v.version = rev) :
    census rev (vs ++ l) = (census rev l).grow vs.length := by
  have hnone : ∀ q : Workload → Bool, (∀ v ∈ vs, q v = false) → vs.countP q = 0 := fun q hq =>
    List.countP_eq_zero.mpr fun v hv => by simp [hq v hv]
  have hall : vs.countP (fun v => v.version = rev && v.status = .pending) = vs.length :=
    List.countP_eq_length.mpr fun v hv => by simp [hvs v hv]
  simp only [census, Census.grow, List.countP_append, hall]
  rw [hnone _ fun v hv => by simp [hvs v hv], hnone _ fun v hv => by simp [hvs v hv],
    hnone _ fun v hv => by simp [hvs v hv]]
  simp [Nat.add_comm]

/-! ### Terminating replicas -/

/-- The workloads of a deployment after some of them were marked. -/
lemma MarkedBy.deployed (h : MarkedBy vs w w') (id : String) :
    ∃ τ : String → Time, w'.deployed id = (w.deployed id).map fun u =>
      if u.id ∈ vs.map Workload.id then u.marked (τ u.id) else u := by
  obtain ⟨τ, W, A, he, hW, -⟩ := h
  refine ⟨τ, ?_⟩
  rw [he.deployed, hW, List.filter_map, World.deployed]
  congr 1
  refine List.filter_congr ?_
  intro u _
  dsimp only [Function.comp_apply]
  split_ifs <;> rfl

lemma MarkedBy.fresh (h : MarkedBy vs w w') (hw : Fresh env w) :
    Fresh env w' := by
  obtain ⟨τ, W, A, he, hW, -⟩ := h
  refine hw.of_known he.tick ?_
  intro v hv
  rw [he.workloads, hW] at hv
  obtain ⟨u, hu, rfl⟩ := List.mem_map.mp hv
  refine ⟨u, hu, ?_⟩
  split_ifs <;> rfl

lemma ScaledDown.fresh (h : ScaledDown dep m w w') (hw : Fresh env w) : Fresh env w' := by
  obtain ⟨w₁, h₁, h₂⟩ := h
  exact h₂.fresh (h₁.fresh hw)

/-- Marking takes the marked workloads out of a count. -/
lemma countP_marked {l : List Workload} (hnd : (l.map Workload.id).Nodup) (hsub : vs.Subperm l)
    (τ : String → Time) {q : Workload → Bool} (hq : ∀ v now, q (Workload.marked v now) = false) :
    (l.map fun u => if u.id ∈ vs.map Workload.id then u.marked (τ u.id) else u).countP q +
      vs.countP q = l.countP q := by
  have hvs : (l.filter fun u => decide (u.id ∈ vs.map Workload.id)).Perm vs := by
    have hndl : l.Nodup := List.Nodup.of_map _ hnd
    obtain ⟨l', hperm, hl'⟩ := id hsub
    have hndvs : vs.Nodup := hperm.nodup_iff.mp (hndl.sublist hl')
    refine (List.perm_ext_iff_of_nodup (hndl.filter _) hndvs).mpr ?_
    intro u
    rw [List.mem_filter, decide_eq_true_eq]
    constructor
    · rintro ⟨hu, huid⟩
      obtain ⟨v, hv, hvid⟩ := List.mem_map.mp huid
      obtain rfl := List.inj_on_of_nodup_map hnd (hsub.subset hv) hu hvid
      exact hv
    · intro hu
      exact ⟨hsub.subset hu, List.mem_map_of_mem hu⟩
  rw [countP_split q (fun u => decide (u.id ∈ vs.map Workload.id)) l, ← hvs.countP_eq,
    List.countP_filter, List.countP_map, Nat.add_comm]
  congr 1
  · simp only [Bool.and_comm]
  · refine List.countP_congr ?_
    intro u _
    dsimp only [Function.comp_apply]
    split_ifs with hu
    · simp [hu, hq]
    · simp [hu]

lemma MarkedBy.census_add (h : MarkedBy vs w w')
    (hsub : vs.Subperm (w.deployed id)) (rev : ℤ) :
    census rev (w'.deployed id) + census rev vs = census rev (w.deployed id) := by
  obtain ⟨τ, hτ⟩ := h.deployed id
  have hcount : ∀ q : Workload → Bool, (∀ v now, q (Workload.marked v now) = false) →
      (w'.deployed id).countP q + vs.countP q = (w.deployed id).countP q := by
    intro q hq
    rw [hτ]
    exact countP_marked (nodup_deployed w id) hsub τ hq
  have hmark : ∀ (v : Workload) now, (v.marked now).status = .terminating := fun _ _ => rfl
  simp only [census, HAdd.hAdd, Add.add]
  congr 1
  all_goals
    refine hcount _ ?_
    intro v now
    simp [hmark]

section Victims

variable {l : List Workload} {rev : ℤ}

lemma activeWorkloads_of_forall (h : ∀ v ∈ l, v.active = true) : activeWorkloads l = l :=
  List.filter_eq_self.mpr h

lemma subperm_pickScaleDownVictims (l : List Workload) (count : ℤ) :
    (pickScaleDownVictims l count).Subperm l :=
  ((List.take_sublist _ _).subperm.trans (pickScaleDownVictims_perm l).subperm).trans
    List.filter_sublist.subperm

lemma pending_census : (census rev l).pending = l.countP fun v => v.status = .pending := by
  rw [countP_split (fun v : Workload => decide (v.status = .pending)) (fun v => v.version ≠ rev) l]
  simp [Census.pending, census]

lemma total_census (h : ∀ v ∈ l, v.active = true) : (census rev l).total = l.length := by
  rw [← length_active rev, activeWorkloads_of_forall h]

/-- Victims are pending ones as long as there are any. -/
lemma census_pickScaleDownVictims (h : ∀ v ∈ l, v.active = true) (count rev : ℤ) :
    (census rev (pickScaleDownVictims l count)).pending = min count.toNat (census rev l).pending ∧
    (census rev (pickScaleDownVictims l count)).total = min count.toNat (census rev l).total := by
  have hstatus : ∀ v ∈ activeWorkloads l, v.status = .running ∨ v.status = .pending := by
    intro v hv
    simpa [Workload.active] using (List.mem_filter.mp hv).2
  have hfirst : ClassFirst (fun v : Workload => decide (v.status = .pending))
      (sortStable victimBefore (activeWorkloads l)) := by
    refine classFirst_sortStable ?_ ?_
    · intro a _ b _ ha hb
      simp only [decide_eq_true_eq, decide_eq_false_iff_not] at ha hb
      simp [victimBefore, ha, hb]
    · intro a _ b _ ha hb
      simp only [decide_eq_true_eq, decide_eq_false_iff_not] at ha hb
      simp [victimBefore, hb, Ne.symm ha]
  have hsort := pickScaleDownVictims_perm l
  rw [activeWorkloads_of_forall h] at hsort hfirst
  constructor
  · rw [pending_census, pending_census, pickScaleDownVictims, activeWorkloads_of_forall h,
      hfirst.countP_take, hsort.countP_eq]
  · rw [total_census h, total_census fun v hv => (mem_pickScaleDownVictims hv).2,
      pickScaleDownVictims, List.length_take, activeWorkloads_of_forall h, hsort.length_eq]

lemma census_active : census rev (activeWorkloads l) = census rev l := by
  simp only [census, activeWorkloads, List.countP_filter]
  congr 1
  all_goals
    refine List.countP_congr ?_
    intro v _
    simp only [Workload.active, Bool.and_eq_true, Bool.or_eq_true, decide_eq_true_eq]
    tauto

lemma census_old : census rev (oldRevisionWorkloads l rev) =
    { census rev l with newRunning := 0, newPending := 0 } := by
  simp only [census, oldRevisionWorkloads, List.countP_filter]
  congr 1
  · refine List.countP_congr ?_
    intro v _
    simp
    tauto
  · refine List.countP_congr ?_
    intro v _
    simp
    tauto
  · refine List.countP_eq_zero.mpr ?_
    intro v _
    simp
    tauto
  · refine List.countP_eq_zero.mpr ?_
    intro v _
    simp
    tauto

end Victims

lemma activeOf_active {v : Workload} (h : v ∈ w.activeOf id) : v.active = true :=
  (List.mem_filter.mp h).2

lemma census_oldVictims (dep : Deployment) (m : ℤ) (w : World) :
    let c := census dep.currentRevision (w.deployed dep.id)
    let k := (min (c.old : ℤ) (c.total - m)).toNat
    let v := census dep.currentRevision (oldVictims dep m w)
    (oldVictims dep m w).Subperm (w.deployed dep.id) ∧ v.new = 0 ∧
      v.pending = min k c.oldPending ∧ v.total = min k c.old := by
  intro c k v
  have hsub : (oldRevisionWorkloads (w.activeOf dep.id) dep.currentRevision).Sublist
      (w.deployed dep.id) := List.filter_sublist.trans List.filter_sublist
  have hactive : ∀ u ∈ oldRevisionWorkloads (w.activeOf dep.id) dep.currentRevision,
      u.active = true := fun u hu => activeOf_active (List.mem_filter.mp hu).1
  have hcensus : census dep.currentRevision
      (oldRevisionWorkloads (w.activeOf dep.id) dep.currentRevision) =
        { c with newRunning := 0, newPending := 0 } := by
    rw [census_old, World.activeOf, census_active]
  have hk : (min ((oldRevisionWorkloads (w.activeOf dep.id) dep.currentRevision).length : ℤ)
      ((w.activeOf dep.id).length - m)).toNat = k := by
    rw [World.activeOf, length_oldActive, length_active dep.currentRevision]
  have hpick := census_pickScaleDownVictims hactive
    (min ((oldRevisionWorkloads (w.activeOf dep.id) dep.currentRevision).length : ℤ)
      ((w.activeOf dep.id).length - m)) dep.currentRevision
  rw [hk, hcensus] at hpick
  obtain ⟨hpending, htotal⟩ := hpick
  refine ⟨(subperm_pickScaleDownVictims _ _).trans hsub.subperm, ?_, hpending, htotal⟩
  -- the victims are old ones
  rw [← length_newActive, List.length_eq_zero_iff, activeForRevision, List.filter_eq_nil_iff]
  intro u hu
  have hmem := (mem_pickScaleDownVictims (List.mem_filter.mp hu).1).1
  simpa using (List.mem_filter.mp hmem).2

lemma census_excessVictims (dep : Deployment) (w : World) :
    let c := census dep.currentRevision (w.deployed dep.id)
    let k := ((c.total : ℤ) - dep.spec.replicas.toInt).toNat
    let v := census dep.currentRevision (excessVictims dep w)
    (excessVictims dep w).Subperm (w.deployed dep.id) ∧
      v.pending = min k c.pending ∧ v.total = min k c.total := by
  intro c k v
  have hk : (((w.activeOf dep.id).length : ℤ) - dep.spec.replicas.toInt).toNat = k := by
    rw [World.activeOf, length_active dep.currentRevision]
  have hactive : ∀ u ∈ w.activeOf dep.id, u.active = true := fun u hu => activeOf_active hu
  have hpick := census_pickScaleDownVictims hactive
    ((w.activeOf dep.id).length - dep.spec.replicas.toInt) dep.currentRevision
  rw [hk, World.activeOf, census_active] at hpick
  obtain ⟨hpending, htotal⟩ := hpick
  exact ⟨(subperm_pickScaleDownVictims _ _).trans List.filter_sublist.subperm, hpending, htotal⟩

/-- The first round of terminations, counted. -/
lemma MarkedBy.cullOld (h : MarkedBy (oldVictims dep m w) w w') :
    let c := census dep.currentRevision (w.deployed dep.id)
    census dep.currentRevision (w'.deployed dep.id) =
      c.cullOld (min (c.old : ℤ) (c.total - m)).toNat := by
  obtain ⟨hsub, hnew, hpending, htotal⟩ := census_oldVictims dep m w
  exact Census.eq_cullOld (h.census_add hsub _) hnew hpending htotal

/-- The two rounds of terminations, counted. -/
lemma ScaledDown.culled (h : ScaledDown dep m w w') :
    let c := census dep.currentRevision (w.deployed dep.id)
    let c₁ := c.cullOld (min (c.old : ℤ) (c.total - m)).toNat
    Census.Culled (c₁.total - dep.spec.replicas.toInt).toNat c₁
      (census dep.currentRevision (w'.deployed dep.id)) := by
  intro c c₁
  obtain ⟨w₁, h₁, h₂⟩ := h
  have hc₁ : census dep.currentRevision (w₁.deployed dep.id) = c₁ := h₁.cullOld
  obtain ⟨hsub', hpending', htotal'⟩ := census_excessVictims dep w₁
  rw [hc₁] at hpending' htotal'
  exact Census.culled_of_sum (by rw [← hc₁]; exact h₂.census_add hsub' _) hpending' htotal'

/-! ### A pass -/

lemma Enlarged.census_eq (h : Enlarged dep n w w') :
    census dep.currentRevision (w'.deployed dep.id) =
      (census dep.currentRevision (w.deployed dep.id)).grow n := by
  obtain ⟨vs, rfl, hvs, hperm⟩ := h
  rw [census_perm hperm, census_append_new fun v hv => (hvs v hv).2]

lemma WroteBack.deployed {c : DepCore} (h : WroteBack c w w') (id : String) :
    w'.deployed id = w.deployed id := by
  obtain ⟨d', -, he⟩ := h
  exact he.deployed id

lemma WroteBack.fresh {c : DepCore} (h : WroteBack c w w') (hw : Fresh env w) : Fresh env w' := by
  obtain ⟨d', -, he⟩ := h
  exact hw.of_workloads he.workloads he.tick

/-- A pass that creates what it wants and may terminate moves the census by `Rolled`. -/
lemma Enlarged.rolled {w₁ : World} (h : Enlarged dep n w w₁)
    (h' : ScaledDown dep m w₁ w') :
    Census.Rolled dep.spec.replicas.toInt m n (census dep.currentRevision (w.deployed dep.id))
      (census dep.currentRevision (w'.deployed dep.id)) := by
  have hs := h'.culled
  rw [h.census_eq] at hs
  exact hs

/-- A call of `reconcileDeployment` for a stored deployment. -/
lemma reconciled_final {d : Deployment} (hd : w.deps.get id = some d) :
    Reconciled env o d w ((reconcileDeployment o id).final (exec env) w) := by
  have hrun : Returns env Rules.any (reconcileDeployment o id) w _ :=
    reconcileDeployment_returns hd (allows_any _ _)
  obtain ⟨-, -, h⟩ := hrun.run
  exact h

lemma reconcileDeployment_final_of_none (hd : w.deps.get id = none) :
    (reconcileDeployment o id).final (exec env) w = w := by
  have hrun : Holds env Rules.any (reconcileDeployment o id) w _ :=
    reconcileDeployment_holds fun d _ => allows_any _ _
  rcases hrun.run with ⟨-, -, h⟩ | ⟨d', hd', -⟩
  · exact h
  · rw [hd] at hd'
    cases hd'

end Orchestrator
