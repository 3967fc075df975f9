/-
# The assignment queue

Assignments are stored under keys made of the node, the workload and the time of enqueueing,
and a poll takes the first few keys under the prefix of its node.  Nothing is lost or
delivered twice, and the assignments of a workload are delivered in the order in which they
were enqueued: their keys differ only in the numerals at the end, and a prefix never reaches
into a numeral.  The order does rest on all assignments of a workload being for one node.
-/
import Orchestrator.System

namespace Orchestrator

open Lib

/-! ### Keys -/

/-- The key of an assignment. -/
def Assignment.key (a : Assignment) : String := Tbl.key .assignment a

/-- The id of the assignment was made at this time. -/
def Assignment.StampedAt (a : Assignment) (nano : Time) : Prop :=
  a.id = assignmentID a.workloadID nano

/-- The part of the key of such an assignment before the time. -/
def keyHead (nodeID workloadID : String) : List Char :=
  (keyAssignmentPrefix nodeID ++ workloadID ++ "-").toList

section Keys

variable {a b : Assignment} {s t : Time}

lemma Assignment.StampedAt.toList_key {n : ℕ} (h : a.StampedAt n) :
    a.key.toList = keyHead a.nodeID a.workloadID ++ Nat.toDigits 10 n := by
  have hn : (toString (n : ℤ)).toList = Nat.toDigits 10 n := toString_nat_toList n
  change (keyAssignmentPrefix a.nodeID ++ a.id).toList = _
  rw [h, assignmentID]
  simp only [keyHead, String.toList_append, hn, List.append_assoc]

/-- Two times whose numerals have the same length, the first before the second. -/
structure Before (s t : Time) : Prop where
  nonneg : 0 ≤ s
  lt : s < t
  length : (toString s).length = (toString t).length

/-- Such times, as natural numbers. -/
lemma Before.exists_nat (h : Before s t) : ∃ m n : ℕ, s = m ∧ t = n ∧ m < n ∧
    (Nat.toDigits 10 m).length = (Nat.toDigits 10 n).length := by
  obtain ⟨m, rfl⟩ := Int.eq_ofNat_of_zero_le h.nonneg
  obtain ⟨n, rfl⟩ := Int.eq_ofNat_of_zero_le (h.nonneg.trans h.lt.le)
  refine ⟨m, n, rfl, rfl, Int.ofNat_lt.mp h.lt, ?_⟩
  have hlen : ∀ k : ℕ, (Nat.toDigits 10 k).length = (toString (k : ℤ)).length := fun k => by
    rw [← toString_nat_toList]
    rfl
  rw [hlen, hlen]
  exact h.length

/-- The assignments of a workload on a node are in the order of their times. -/
lemma Before.key_lt (h : Before s t) (ha : a.StampedAt s) (hb : b.StampedAt t)
    (hnode : a.nodeID = b.nodeID) (hworkload : a.workloadID = b.workloadID) : a.key < b.key := by
  obtain ⟨m, n, rfl, rfl, hlt, hlen⟩ := h.exists_nat
  rw [String.lt_iff_toList_lt, ha.toList_key, hb.toList_key, hnode, hworkload]
  exact append_left_lt _ (toDigits_lt hlt hlen)

/-- Assignments made at different times have different keys. -/
lemma Before.key_ne (h : Before s t) (ha : a.StampedAt s) (hb : b.StampedAt t) : a.key ≠ b.key := by
  obtain ⟨m, n, rfl, rfl, hlt, hlen⟩ := h.exists_nat
  intro hkey
  have hlist := congrArg String.toList hkey
  rw [ha.toList_key, hb.toList_key] at hlist
  exact hlt.ne (toDigits_inj (List.append_inj' hlist hlen).2)

/-- Whether a key is under the prefix of a node does not depend on the time in it. -/
lemma hasPrefix_key_iff (ha : a.StampedAt t) (ht : 0 ≤ t) (node : String) :
    hasPrefix a.key (keyAssignmentPrefix node) = true ↔
      (keyAssignmentPrefix node).toList <+: keyHead a.nodeID a.workloadID := by
  obtain ⟨n, rfl⟩ := Int.eq_ofNat_of_zero_le ht
  rw [hasPrefix, List.isPrefixOf_iff_prefix, ha.toList_key]
  constructor
  · intro h
    have hcolon : (keyAssignmentPrefix node).toList =
        ("assignment:" ++ node).toList ++ [':'] := by
      rw [keyAssignmentPrefix, String.toList_append]
      rfl
    rcases List.prefix_or_prefix_of_prefix h (List.prefix_append _ _) with hle | ⟨r, hr⟩
    · exact hle
    · -- otherwise the colon at the end would be one of the digits
      rw [← hr, List.prefix_append_right_inj] at h
      cases hrev : r.reverse with
      | nil =>
        rw [List.reverse_eq_nil_iff] at hrev
        rw [hrev, List.append_nil] at hr
        exact hr ▸ List.prefix_rfl
      | cons c r' =>
        have hr' : r = r'.reverse ++ [c] := by rw [← List.reverse_reverse r, hrev, List.reverse_cons]
        rw [hcolon, hr', ← List.append_assoc] at hr
        have hc : c = ':' := by simpa using (List.append_inj' hr rfl).2
        have hmem : c ∈ Nat.toDigits 10 n := h.subset (by simp [hr'])
        have hdigit := toDigits_isDigit n c hmem
        rw [hc] at hdigit
        cases hdigit
  · intro h
    exact h.trans (List.prefix_append _ _)

end Keys

/-! ### The queue as a system -/

/-- The calls on the queue. -/
inductive QueueOp
  | enqueue (a : Assignment)
  | pop (node : String) (max : ℕ)

/-- The state of the store, and what has happened so far. -/
structure QueueState where
  world : World
  /-- The assignments that were enqueued, as they were stored. -/
  enqueued : List Assignment := []
  /-- The times that the calls of `EnqueueAssignment` have seen. -/
  stamps : List Time := []
  /-- The maximum and the result of each call of `PopAssignments`. -/
  batches : List (ℕ × List Assignment) := []

/-- An assignment as `EnqueueAssignment` stores it. -/
def Assignment.withID (a : Assignment) (nano : Time) : Assignment :=
  if a.id = "" then { a with id := assignmentID a.workloadID nano } else a

def QueueState.step (env : Env) (op : QueueOp) (s : QueueState) : QueueState :=
  match op with
  | .enqueue a =>
    { s with
      world := (StateStore.enqueueAssignment a).final (exec env) s.world
      enqueued := s.enqueued ++ [a.withID (env.clock s.world.tick)]
      stamps := s.stamps ++ [env.clock s.world.tick] }
  | .pop node max =>
    { s with
      world := (StateStore.popAssignments node max).final (exec env) s.world
      batches := s.batches ++ [(max, match (StateStore.popAssignments node max).result (exec env)
        s.world with
        | .ok l => l
        | .error _ => [])] }

/-- Everything that was returned so far, in order. -/
def QueueState.delivered (s : QueueState) : List Assignment := s.batches.flatMap Prod.snd

/-- The clock runs: a call of `EnqueueAssignment` gets an assignment without an id, and sees a
later time than all calls before it, with a numeral of the same length. -/
def Timely (env : Env) (op : QueueOp) (s : QueueState) : Prop :=
  match op with
  | .enqueue a => a.id = "" ∧ 0 ≤ env.clock s.world.tick ∧
      ∀ t ∈ s.stamps, t < env.clock s.world.tick ∧
        (toString t).length = (toString (env.clock s.world.tick)).length
  | .pop _ _ => True

/-- The assignments of a workload are for one node. -/
def OneNode (op : QueueOp) (s : QueueState) : Prop :=
  match op with
  | .enqueue a => ∀ b ∈ s.enqueued, b.workloadID = a.workloadID → b.nodeID = a.nodeID
  | .pop _ _ => True

variable {env : Env} {s : QueueState}

/-- The assignments of a workload in a list. -/
def ofWorkload (id : String) (l : List Assignment) : List Assignment :=
  l.filter fun a => a.workloadID = id

/-- What holds in every state of the queue. -/
structure Conserved (s : QueueState) : Prop where
  stamped : ∀ a ∈ s.enqueued, ∃ t ∈ s.stamps, a.StampedAt t
  nonneg : ∀ t ∈ s.stamps, 0 ≤ t
  node : ∀ a ∈ s.enqueued, ∀ b ∈ s.enqueued, a.workloadID = b.workloadID → a.nodeID = b.nodeID
  all : s.enqueued.Perm (s.delivered ++ s.world.queue.rows)
  order : ∀ id, ofWorkload id s.enqueued =
    ofWorkload id s.delivered ++ ofWorkload id s.world.queue.rows
  size : ∀ b ∈ s.batches, b.2.length ≤ b.1

lemma Conserved.queued (h : Conserved s) {a : Assignment} (ha : a ∈ s.world.queue.rows) :
    a ∈ s.enqueued :=
  h.all.mem_iff.mpr (List.mem_append_right _ ha)

/-! ### Enqueueing -/

lemma enqueue_queue {a : Assignment} (h : a.id = "") (w : World) :
    ((StateStore.enqueueAssignment a).final (exec env) w).queue =
      w.queue.put (a.withID (env.clock w.tick)) := by
  rw [Assignment.withID, if_pos h, StateStore.enqueueAssignment, if_pos h]
  exact Store.put_self _ _ _

section Enqueue

variable {b : Assignment} {now : Time} (h : Conserved s) (hb : b.StampedAt now)
  (hbefore : ∀ t ∈ s.stamps, Before t now)
  (hnode : ∀ a ∈ s.enqueued, a.workloadID = b.workloadID → a.nodeID = b.nodeID)
include h hb hbefore

lemma Conserved.key_ne {a : Assignment} (ha : a ∈ s.world.queue.rows) : a.key ≠ b.key := by
  obtain ⟨t, ht, hat⟩ := h.stamped a (h.queued ha)
  exact (hbefore t ht).key_ne hat hb

lemma Conserved.enqueue_all :
    (s.enqueued ++ [b]).Perm (s.delivered ++ (s.world.queue.put b).rows) := by
  have hput : (s.world.queue.put b).rows.Perm (b :: s.world.queue.rows) :=
    Table.perm_put_of_get_none (Table.get_eq_none_iff.mpr fun a ha => h.key_ne hb hbefore ha)
  have hlast : (s.world.queue.rows ++ [b]).Perm (s.world.queue.put b).rows :=
    (List.perm_append_singleton b _).trans hput.symm
  have hall := h.all.append_right [b]
  rw [List.append_assoc] at hall
  exact hall.trans (hlast.append_left _)

include hnode in
/-- The new assignment has the largest key among those of its workload. -/
lemma Conserved.enqueue_order (id : String) : ofWorkload id (s.enqueued ++ [b]) =
    ofWorkload id s.delivered ++ ofWorkload id (s.world.queue.put b).rows := by
  have horder := h.order id
  have hne : ∀ a ∈ s.world.queue.rows, a.key ≠ b.key := fun a ha => h.key_ne hb hbefore ha
  simp only [ofWorkload, List.filter_append] at horder ⊢
  by_cases hbid : b.workloadID = id
  · have hlast : ∀ a ∈ s.world.queue.rows, decide (a.workloadID = id) = true →
        a.key < b.key := by
      intro a ha haid
      obtain ⟨t, ht, hat⟩ := h.stamped a (h.queued ha)
      have hab : a.workloadID = b.workloadID := (of_decide_eq_true haid).trans hbid.symm
      exact (hbefore t ht).key_lt hat hb (hnode a (h.queued ha) hab) hab
    have hrows := Table.filter_rows_put_last (p := fun a => decide (a.workloadID = id))
      (by simp [hbid]) hne hlast
    rw [hrows, horder, List.filter_cons_of_pos (by simp [hbid]), List.filter_nil,
      List.append_assoc]
  · have hrows := Table.filter_rows_put_of_false (p := fun a => decide (a.workloadID = id))
      (by simp [hbid]) hne
    rw [hrows, horder, List.filter_cons_of_neg (by simp [hbid]), List.filter_nil,
      List.append_nil]

end Enqueue

lemma Conserved.enqueue (h : Conserved s) {a : Assignment} (htime : Timely env (.enqueue a) s)
    (hnode : OneNode (.enqueue a) s) : Conserved (s.step env (.enqueue a)) := by
  obtain ⟨hid, hnow, hlater⟩ := htime
  have hbefore : ∀ t ∈ s.stamps, Before t (env.clock s.world.tick) := fun t ht =>
    ⟨h.nonneg t ht, (hlater t ht).1, (hlater t ht).2⟩
  have hqueue : (s.step env (.enqueue a)).world.queue = s.world.queue.put _ :=
    enqueue_queue hid s.world
  have hb : (a.withID (env.clock s.world.tick)).StampedAt (env.clock s.world.tick) ∧
      ∀ x ∈ s.enqueued, x.workloadID = (a.withID (env.clock s.world.tick)).workloadID →
        x.nodeID = (a.withID (env.clock s.world.tick)).nodeID := by
    rw [Assignment.withID, if_pos hid]
    exact ⟨rfl, hnode⟩
  obtain ⟨hb, hwith⟩ := hb
  refine ⟨?_, ?_, ?_, ?_, ?_, h.size⟩
  · intro x hx
    rcases List.mem_append.mp hx with hx | hx
    · obtain ⟨t, ht, hxt⟩ := h.stamped x hx
      exact ⟨t, List.mem_append_left _ ht, hxt⟩
    · obtain rfl := List.mem_singleton.mp hx
      exact ⟨_, List.mem_append_right _ List.mem_cons_self, hb⟩
  · intro t ht
    rcases List.mem_append.mp ht with ht | ht
    · exact h.nonneg t ht
    · rw [List.mem_singleton.mp ht]
      exact hnow
  · intro x hx y hy hxy
    rcases List.mem_append.mp hx with hx | hx <;> rcases List.mem_append.mp hy with hy | hy
    · exact h.node x hx y hy hxy
    · rw [List.mem_singleton.mp hy] at hxy ⊢
      exact hwith x hx hxy
    · rw [List.mem_singleton.mp hx] at hxy ⊢
      exact (hwith y hy hxy.symm).symm
    · rw [List.mem_singleton.mp hx, List.mem_singleton.mp hy]
  · rw [hqueue]
    exact h.enqueue_all hb hbefore
  · intro id
    rw [hqueue]
    exact h.enqueue_order hb hbefore hwith id

/-! ### Popping -/

/-- The assignments of a workload are all under the prefix of a node, or none is. -/
lemma Conserved.matches_or (h : Conserved s) (node id : String) :
    (∀ a ∈ s.world.queue.rows, decide (a.workloadID = id) = true →
      hasPrefix a.key (keyAssignmentPrefix node) = true) ∨
    ∀ a ∈ s.world.queue.rows, decide (a.workloadID = id) = true →
      hasPrefix a.key (keyAssignmentPrefix node) = false := by
  by_cases hex : ∃ a ∈ s.world.queue.rows, a.workloadID = id ∧
      hasPrefix a.key (keyAssignmentPrefix node) = true
  · obtain ⟨a, ha, haid, hpre⟩ := hex
    obtain ⟨t, ht, hat⟩ := h.stamped a (h.queued ha)
    rw [hasPrefix_key_iff hat (h.nonneg t ht)] at hpre
    refine Or.inl fun b hb hbid => ?_
    have hab : a.workloadID = b.workloadID := haid.trans (of_decide_eq_true hbid).symm
    obtain ⟨t', ht', hbt⟩ := h.stamped b (h.queued hb)
    rw [hasPrefix_key_iff hbt (h.nonneg t' ht'),
      ← h.node a (h.queued ha) b (h.queued hb) hab, ← hab]
    exact hpre
  · refine Or.inr fun a ha haid => ?_
    rw [Bool.eq_false_iff]
    intro hpre
    exact hex ⟨a, ha, of_decide_eq_true haid, hpre⟩

lemma Conserved.pop (h : Conserved s) (node : String) (max : ℕ) :
    Conserved (s.step env (.pop node max)) := by
  have hrows : (s.step env (.pop node max)).world.queue.rows =
      s.world.queue.rows.filter fun a => a ∉ s.world.store.popped node max := by
    have htable : (s.step env (.pop node max)).world.queue =
        s.world.queue.delWhere fun a => decide (a ∈ s.world.store.popped node max) := by
      change (s.world.store.popAssignments node max) .assignment = _
      exact Store.set_self _ _ _
    rw [htable, Table.rows_delWhere]
    refine List.filter_congr fun a _ => ?_
    simp
  have hdelivered : (s.step env (.pop node max)).delivered =
      s.delivered ++ s.world.store.popped node max := by
    change (s.batches ++ [(max, s.world.store.popped node max)]).flatMap Prod.snd = _
    rw [List.flatMap_append, List.flatMap_singleton]
    rfl
  have hpopped : s.world.store.popped node max = (s.world.queue.rows.filter fun a =>
      hasPrefix a.key (keyAssignmentPrefix node)).take max := rfl
  have hnodup : s.world.queue.rows.Nodup := s.world.queue.nodup_rows
  refine ⟨h.stamped, h.nonneg, h.node, ?_, ?_, ?_⟩
  · rw [hrows, hdelivered, hpopped, List.append_assoc]
    exact h.all.trans ((perm_take_filter _ max hnodup).append_left _)
  · intro id
    rw [hrows, hdelivered, hpopped]
    have horder := h.order id
    change ofWorkload id s.enqueued = _
    rw [horder]
    simp only [ofWorkload, List.filter_append, List.append_assoc]
    congr 1
    rcases h.matches_or node id with hall | hnone
    · exact filter_take_filter _ max hnodup hall
    · obtain ⟨hnil, hrest⟩ := filter_take_filter_of_false _ max hnone
      rw [hnil, hrest, List.nil_append]
  · intro b hb
    rcases List.mem_append.mp hb with hb | hb
    · exact h.size b hb
    · rw [List.mem_singleton.mp hb]
      change (s.world.store.popped node max).length ≤ max
      rw [hpopped]
      exact List.length_take_le _ _

/-! ### Whole runs -/

/-- **The queue.**  In every state of every run on an empty queue: what was enqueued is what
was returned together with what is still queued, no call has returned more than its maximum,
and the returned assignments of each workload are the first ones that were enqueued for it, in
that order. -/
theorem queue_conservation {w : World} (hw : w.queue = Table.empty)
    (h : Runs (QueueState.step env) (fun op s => Timely env op s ∧ OneNode op s)
      { world := w } s) :
    s.enqueued.Perm (s.delivered ++ s.world.queue.rows) ∧
      (∀ b ∈ s.batches, b.2.length ≤ b.1) ∧
      ∀ id, ofWorkload id s.delivered <+: ofWorkload id s.enqueued := by
  have hstart : Conserved { world := w } := by
    refine ⟨nofun, nofun, nofun, ?_, ?_, nofun⟩
    · rw [hw]
      exact List.Perm.refl _
    · intro id
      rw [hw]
      rfl
  have hall : Conserved s := by
    refine h.invariant hstart ?_
    rintro (a | ⟨node, max⟩) x hx ⟨htime, hnode⟩
    · exact hx.enqueue htime hnode
    · exact hx.pop node max
  refine ⟨hall.all, hall.size, fun id => ?_⟩
  rw [hall.order id]
  exact List.prefix_append _ _

instance (env : Env) (op : QueueOp) (s : QueueState) : Decidable (Timely env op s) :=
  match op with
  | .enqueue _ => inferInstanceAs (Decidable (_ ∧ _))
  | .pop _ _ => instDecidableTrue

instance (op : QueueOp) (s : QueueState) : Decidable (OneNode op s) :=
  match op with
  | .enqueue _ => inferInstanceAs (Decidable (∀ b ∈ s.enqueued, _))
  | .pop _ _ => instDecidableTrue

/-- The creation and the deletion of a workload, for the given nodes. -/
def birth (node : String) : Assignment := { action := .create, nodeID := node, workloadID := "w" }

def death (node : String) : Assignment := { action := .delete, nodeID := node, workloadID := "w" }

/-- The queue of a new system. -/
def emptyQueue : QueueState := { world := Sys.init.world }

theorem queue_conservation_two :
    ∃ s : QueueState, s.enqueued.length = 2 ∧ s.delivered.length = 1 ∧
      s.enqueued.Perm (s.delivered ++ s.world.queue.rows) ∧
      (∀ b ∈ s.batches, b.2.length ≤ b.1) ∧
      ∀ id, ofWorkload id s.delivered <+: ofWorkload id s.enqueued := by
  have hrun : Runs (QueueState.step steadyEnv)
      (fun op s => Timely steadyEnv op s ∧ OneNode op s) emptyQueue
      (after (QueueState.step steadyEnv)
        [.enqueue (birth "n1"), .enqueue (death "n1"), .pop "n1" 1] emptyQueue) :=
    Runs.of_list _ ⟨by decide +kernel, by decide +kernel, by decide +kernel, trivial⟩
  exact ⟨_, by decide +kernel, by decide +kernel, queue_conservation rfl hrun⟩

/-- If the creation and the deletion of a workload are for different nodes, the deletion can
be returned first. -/
theorem queue_out_of_order :
    ∃ s : QueueState, Runs (QueueState.step steadyEnv) (Timely steadyEnv) emptyQueue s ∧
      (ofWorkload "w" s.enqueued).map Assignment.action = [.create, .delete] ∧
      (ofWorkload "w" s.delivered).map Assignment.action = [.delete, .create] := by
  have hrun : Runs (QueueState.step steadyEnv) (Timely steadyEnv) emptyQueue
      (after (QueueState.step steadyEnv)
        [.enqueue (birth "n1"), .enqueue (death "n2"), .pop "n2" 1, .pop "n1" 1] emptyQueue) :=
    Runs.of_list _ ⟨by decide +kernel, by decide +kernel, by decide +kernel, by decide +kernel,
      trivial⟩
  exact ⟨_, hrun, by decide +kernel, by decide +kernel⟩

end Orchestrator
