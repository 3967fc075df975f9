/-
# Nodes that are shut

A node whose record is not ready gets no workload: `SelectNode` passes it over, and so does
a preemption.  Draining and removing a node shut it, and so does a health pass that finds its
last heartbeat too old.  The record stays as it is until the node registers again, sends a
heartbeat, or a health pass finds its last heartbeat recent enough; a drained node is opened
again by the last two, which no one asked for.
-/
import Orchestrator.Logic.Remediation
import Orchestrator.System

namespace Orchestrator

open Lib

variable {env : Env} {o : Config} {α β : Type} {w w' : World} {A : String → Prop} {t : Time} {k : ℕ}
  {s : Sys} {e : Event} {n : String} {c : Call} {p : M α} {m : Node} {now : Time}

/-! ### Shut nodes -/

/-- The record has been dated, and if the node is in `A`, it is not ready and dates from
`t`. -/
def Node.Shut (A : String → Prop) (t : Time) (r : Node) : Prop :=
  r.lastSeen.isZero = false ∧ (A r.id → r.status ≠ .ready ∧ r.lastSeen = t)

/-- The nodes in `A` are stored and shut, and at least `k` readings have been made. -/
structure Hushed (A : String → Prop) (t : Time) (k : ℕ) (w : World) : Prop where
  shut : ∀ r ∈ w.nodes.rows, r.Shut A t
  stored : ∀ n, A n → ∃ r ∈ w.nodes.rows, r.id = n
  tick : k ≤ w.tick

/-- The node on which the call places a workload: it stores a new pending workload there, or
enqueues a create assignment for it. -/
def Call.placement (w : World) : Call → Option String
  | .put .workload v =>
    if v.status = .pending ∧ w.workloads.get v.id = none then some v.nodeID else none
  | .put .assignment a => if a.creates then some a.nodeID else none
  | _ => none

abbrev Call.PlacesOn (n : String) (c : Call) (w : World) : Prop := c.placement w = some n

lemma Call.placesOn_workload {v : Workload} :
    (Call.put .workload v).PlacesOn n w ↔
      (v.status = .pending ∧ w.workloads.get v.id = none) ∧ v.nodeID = n := by
  change (if _ then some v.nodeID else none) = some n ↔ _
  rw [Option.ite_none_right_eq_some, Option.some_inj]

lemma Call.placesOn_assignment {a : Assignment} :
    (Call.put .assignment a).PlacesOn n w ↔ a.creates = true ∧ a.nodeID = n := by
  change (if _ then some a.nodeID else none) = some n ↔ _
  rw [Option.ite_none_right_eq_some, Option.some_inj]

/-- The call places nothing on the nodes in `A`. -/
def Call.Spares (A : String → Prop) (c : Call) (w : World) : Prop := ∀ n, A n → ¬ c.PlacesOn n w

/-- What holds at the calls of a run that spares the nodes in `A`. -/
abbrev Sparing (env : Env) (A : String → Prop) (t : Time) (k : ℕ) (p : M α) : Prop :=
  Throughout env (Hushed A t k) (Call.Spares A) p

lemma Call.Plain.spares_nodes (h : c.Plain) : c.writes .node = false := by
  cases c with
  | put t v => cases t <;> simp_all [Call.Plain, Call.writes]
  | del t k => cases t <;> simp_all [Call.Plain, Call.writes]
  | _ => rfl

lemma Hushed.of_nodes (h : Hushed A t k w) (hn : w'.nodes = w.nodes) (ht : w.tick ≤ w'.tick) :
    Hushed A t k w' := ⟨hn ▸ h.shut, hn ▸ h.stored, h.tick.trans ht⟩

lemma Hushed.exec (h : Hushed A t k w) (hc : c.writes .node = false) :
    Hushed A t k (exec env c w).2 := h.of_nodes (exec_writes env hc w) (exec_tick_le env c w)

lemma Call.Plain.spares (h : c.Plain) : c.Spares A w := by
  intro n _ hp
  cases c with
  | put t v =>
    cases t with
    | workload => exact h (Call.placesOn_workload.mp hp).1.1
    | assignment => exact absurd (h.symm.trans (Call.placesOn_assignment.mp hp).1) (by decide)
    | _ => cases hp
  | _ => cases hp

lemma sparing_plain (hp : Plain p) : Sparing env A t k p :=
  .of_makes (fun _ _ hc hw => ⟨hc.spares, hw.exec hc.spares_nodes⟩) hp

lemma sparing_reads (hc : c.reads = true) : Sparing env A t k (ask c) :=
  sparing_plain (.call (HasReads.reads c hc))

/-- The record of a node is stored: a shut one, or that of a node outside `A`. -/
lemma sparing_upsertNode (hzero : ∀ k, (env.clock k).isZero = false)
    (hm : m.Shut A t ∨ ¬ A m.id) : Sparing env A t k (StateStore.upsertNode m) := by
  have hput : ∀ (m : Node) (w : World), m.Shut A t → Hushed A t k w →
      Hushed A t k (exec env (.put .node m) w).2 := by
    intro m w hm hw
    have hnodes : (exec env (.put .node m) w).2.nodes = w.nodes.put m := Store.put_self _ _ _
    refine ⟨?_, ?_, hw.tick⟩ <;> rw [hnodes]
    · intro r hr
      rcases Table.mem_rows_put.mp hr with rfl | ⟨hr, -⟩
      · exact hm
      · exact hw.shut r hr
    · intro n hn
      obtain ⟨r, hr, hid⟩ := hw.stored n hn
      exact stored_put m hr hid
  intro w hw
  unfold StateStore.upsertNode orNow
  split
  · rename_i hz
    have hm' : Node.Shut A t { m with lastSeen := env.clock w.tick } := by
      refine ⟨hzero _, fun hA => ?_⟩
      rcases hm with hm | hm
      · rw [hm.1] at hz
        cases hz
      · exact absurd hA hm
    have hw' : Hushed A t k (Orchestrator.exec env .now w).2 := hw.exec rfl
    exact ⟨⟨hw, nofun⟩, ⟨hw', nofun⟩, hput _ _ hm' hw'⟩
  · rename_i hz
    have hm' : m.Shut A t := by
      rcases hm with hm | hm
      · exact hm
      · exact ⟨by simpa using hz, fun hA => absurd hA hm⟩
    exact ⟨⟨hw, nofun⟩, hput _ _ hm' hw⟩

/-! ### Placements -/

/-- A ready record among shut ones is that of a node outside `A`. -/
lemma Hushed.not_mem (h : Hushed A t k w) (hm : m ∈ w.nodes.rows)
    (hready : m.status = .ready) : ¬ A m.id := fun hA => ((h.shut m hm).2 hA).1 hready

/-- The guard of `Sparing`. -/
abbrev Hushes (env : Env) (A : String → Prop) (t : Time) (k : ℕ) (p : M α) (w : World)
    (Q : Except Err α → World → Prop) : Prop :=
  Prog.Sat (exec env) (fun c w => Hushed A t k w ∧ c.Spares A w) p w Q

lemma selectNode_hushes (dep : Deployment) (hw : Hushed A t k w) :
    Hushes env A t k (selectNode o dep) w fun r w' => Hushed A t k w' ∧
      ∀ m, r = .ok (some m) → ¬ A m.id := by
  have hlist : w.store.list .node "" = w.nodes.rows := if_pos rfl
  refine ⟨⟨hw, nofun⟩, ⟨hw, nofun⟩, hw.exec (c := .external) rfl, ?_⟩
  intro m hm
  have hsel : o.scheduler.selectNode o.fl (env.external w.tick) (w.store.list .node "")
      dep.spec.resources (dep.spec.labels.getD Table.empty) (dep.spec.tolerations.getD []) =
      some m := Except.ok.inj hm
  obtain ⟨hmem, hok⟩ := Planner.selectNode_some hsel
  rw [hlist] at hmem
  refine hw.not_mem hmem ?_
  simp only [schedulable, Bool.and_eq_true, decide_eq_true_eq] at hok
  exact hok.1.1.1

lemma tryPreempt_sparing (hzero : ∀ k, (env.clock k).isZero = false) (dep : Deployment)
    (req : Resource) : Sparing env A t k (tryPreemptForPriority dep req) := by
  intro w hw
  have hlist : w.store.list .node "" = w.nodes.rows := if_pos rfl
  refine ⟨⟨hw, nofun⟩, ⟨hw, nofun⟩, ?_⟩
  change Hushes env A t k (pure (w.store.list .node "") >>= _) w _
  rw [Prog.pure_bind']
  split
  · rename_i victim node hv
    obtain ⟨-, -, -, hmem, -, hready⟩ := preemptionVictim_some hv
    change node ∈ w.store.list .node "" at hmem
    rw [hlist] at hmem
    have hnode : ¬ A node.id := hw.not_mem hmem hready
    have hrest : Sparing env A t k (do
        StateStore.upsertNode { node with used := node.used.release victim.resources }
        StateStore.deleteWorkload victim.id
        pure true) :=
      .bind (sparing_upsertNode hzero (.inr hnode)) fun _ =>
        .bind (sparing_plain (.call trivial)) fun _ => .pure _
    exact hrest w hw
  · exact hw

lemma chooseNode_hushes (hzero : ∀ k, (env.clock k).isZero = false) (dep : Deployment)
    (hw : Hushed A t k w) :
    Hushes env A t k (chooseNode o dep) w fun r w' => Hushed A t k w' ∧
      ∀ m, r = .ok m → ¬ A m.id := by
  refine (selectNode_hushes dep hw).bind ?_ fun e w' h => ⟨h.1, by rintro _ ⟨⟩⟩
  rintro (_ | m) w₁ ⟨hw₁, hm⟩
  swap
  · refine ⟨hw₁, ?_⟩
    rintro _ ⟨⟩
    exact hm m rfl
  have htry : Sparing env A t k (if dep.spec.priority > 0 then
      tryPreemptForPriority dep dep.spec.resources else pure false) := by
    split
    · exact tryPreempt_sparing hzero dep _
    · exact .pure _
  refine (htry w₁ hw₁).bind ?_ fun e w' h => ⟨h, by rintro _ ⟨⟩⟩
  rintro (_ | _) w₂ hw₂
  · rw [if_neg Bool.false_ne_true]
    exact ⟨hw₂, by rintro _ ⟨⟩⟩
  · rw [if_pos rfl]
    refine (selectNode_hushes dep hw₂).bind ?_ fun e w' h => ⟨h.1, by rintro _ ⟨⟩⟩
    rintro (_ | m) w₃ ⟨hw₃, hm⟩
    · exact ⟨hw₃, by rintro _ ⟨⟩⟩
    · refine ⟨hw₃, ?_⟩
      rintro _ ⟨⟩
      exact hm m rfl

/-- A call that concerns a node outside `A`. -/
lemma sparing_call (hc : c.writes .node = false) (hsp : ∀ w, c.Spares A w) :
    Sparing env A t k (ask c) := fun _ hw => ⟨⟨hw, hsp _⟩, hw.exec hc⟩

/-- What placements and plain calls keep. -/
lemma kept_hushed (hzero : ∀ k, (env.clock k).isZero = false) :
    Kept env o (Hushed A t k) (Call.Spares A) where
  plain _ _ hc hw := ⟨hc.spares, hw.exec hc.spares_nodes⟩
  place dep := by
    intro w hw
    refine (chooseNode_hushes hzero dep hw).bind ?_ fun _ _ h => h.1
    rintro node w₁ ⟨hw₁, hnode⟩
    have hne : ∀ n, A n → node.id ≠ n := fun n hn h => hnode node rfl (h ▸ hn)
    have hstore : ∀ v : Workload, v.nodeID = node.id →
        Sparing env A t k (StateStore.upsertWorkload v) := fun v hv =>
      .bind (sparing_reads rfl) fun _ => sparing_call rfl fun _ n hn h =>
        hne n hn (hv.symm.trans (Call.placesOn_workload.mp h).2)
    have henqueue : ∀ a : Assignment, a.nodeID = node.id →
        Sparing env A t k (StateStore.enqueueAssignment a) := by
      have hput : ∀ a : Assignment, a.nodeID = node.id →
          Sparing env A t k (ask (.put .assignment a)) := fun a ha =>
        sparing_call rfl fun _ n hn h =>
          hne n hn (ha.symm.trans (Call.placesOn_assignment.mp h).2)
      intro a ha
      unfold StateStore.enqueueAssignment
      split
      · exact .bind (sparing_reads rfl) fun _ => hput _ ha
      · exact hput _ ha
    have hsecrets : Sparing env A t k (resolveSecretFilesForDeployment o dep) :=
      sparing_plain (makes_resolveSecretFiles _)
    refine (show Sparing env A t k _ from ?_) w₁ hw₁
    refine .bind (sparing_reads (c := .now) rfl) fun nano => ?_
    refine .bind (sparing_reads (c := .rand) rfl) fun r => ?_
    refine .bind (sparing_reads (c := .now) rfl) fun createdAt => ?_
    refine .bind (sparing_reads (c := .now) rfl) fun updatedAt => ?_
    refine .bind (hstore _ rfl) fun _ => ?_
    refine .bind (sparing_upsertNode hzero (.inr (hnode node rfl))) fun _ => ?_
    exact .bind hsecrets fun files => henqueue _ rfl

/-! ### Operations on nodes -/

section Nodes

variable (hzero : ∀ k, (env.clock k).isZero = false)

lemma getNode_hushes (id : String) (hw : Hushed A t k w) :
    Hushes env A t k (StateStore.getNode id) w fun r w' => Hushed A t k w' ∧
      ∀ m, r = .ok m → m.Shut A t ∧ m.id = id := by
  refine ⟨⟨hw, nofun⟩, ?_⟩
  cases hm : w.nodes.get id with
  | none =>
    have hget : (exec env (.get .node id) w).1 = none := hm
    rw [hget]
    exact ⟨hw, by rintro _ ⟨⟩⟩
  | some m =>
    have hget : (exec env (.get .node id) w).1 = some m := hm
    rw [hget]
    refine ⟨hw, ?_⟩
    rintro _ ⟨⟩
    exact ⟨hw.shut m (Table.mem_of_get hm), Table.key_of_get hm⟩

include hzero

lemma releaseReservation_sparing (u : Workload) : Sparing env A t k (releaseReservation u) := by
  intro w hw
  refine (getNode_hushes u.nodeID hw).attempt_bind ?_
  rintro (e | m) w₁ ⟨hw₁, hm⟩
  · exact hw₁
  · have hshut : Node.Shut A t { m with used := m.used.release u.resources } := (hm m rfl).1
    refine (show Sparing env A t k _ from ?_) w₁ hw₁
    exact .ignore (sparing_upsertNode hzero (.inl hshut))

lemma drainNode_sparing (id : String) : Sparing env A t k (drainNode id) := by
  intro w hw
  refine (getNode_hushes id hw).bind ?_ fun _ _ h => h.1
  rintro m w₁ ⟨hw₁, hm⟩
  have hshut : Node.Shut A t { m with
      health := { m.health with draining := true, isolated := true }, status := .unknown } :=
    ⟨(hm m rfl).1.1, fun hA => ⟨nofun, ((hm m rfl).1.2 hA).2⟩⟩
  refine (show Sparing env A t k _ from ?_) w₁ hw₁
  exact .bind (sparing_upsertNode hzero (.inl hshut)) fun _ => sparing_plain (plain_remediate id)

lemma removeNode_sparing (id : String) : Sparing env A t k (removeNode id) := by
  refine .bind (drainNode_sparing hzero id) fun _ w hw => ?_
  refine (getNode_hushes id hw).bind ?_ fun _ _ h => h.1
  rintro m w₁ ⟨hw₁, hm⟩
  have hshut : Node.Shut A t { m with
      status := .down, health := { m.health with reason := "node removed" } } :=
    ⟨(hm m rfl).1.1, fun hA => ⟨nofun, ((hm m rfl).1.2 hA).2⟩⟩
  refine (show Sparing env A t k _ from ?_) w₁ hw₁
  exact sparing_upsertNode hzero (.inl hshut)

lemma registerNode_sparing {node : Node} (hnode : ¬ A node.id) :
    Sparing env A t k (registerNode o node) := by
  unfold registerNode
  split
  · exact .ret _
  · exact .bind (sparing_reads (c := .now) rfl) fun _ => .bind (sparing_reads (c := .now) rfl) fun _ =>
      .bind (sparing_upsertNode hzero (.inr hnode)) fun _ => .ignore (sparing_plain plain_rebalance)

lemma heartbeatNode_sparing {id : String} (hid : ¬ A id) (used : Resource) :
    Sparing env A t k (heartbeatNode id used) := by
  intro w hw
  refine (getNode_hushes id hw).bind ?_ fun _ _ h => h.1
  rintro m w₁ ⟨hw₁, hm⟩
  have hm' : ¬ A m.id := (hm m rfl).2 ▸ hid
  refine (show Sparing env A t k _ from ?_) w₁ hw₁
  exact .bind (sparing_reads (c := .now) rfl) fun _ =>
    .bind (sparing_reads (c := .now) rfl) fun _ => sparing_upsertNode hzero (.inr hm')

lemma reportWorkloadStatus_sparing (id : String) (status : WorkloadStatus) (containerID : String) :
    Sparing env A t k (reportWorkloadStatus id status containerID) := by
  intro w hw
  refine ⟨⟨hw, nofun⟩, ?_⟩
  cases hu : w.workloads.get id with
  | none =>
    have hget : (exec env (.get .workload id) w).1 = none := hu
    rw [hget]
    exact hw
  | some u =>
    have hget : (exec env (.get .workload id) w).1 = some u := hu
    rw [hget]
    change Hushes env A t k (if status = .terminated then reportTerminated u
      else StateStore.upsertWorkload (u.reported status containerID)) w _
    split
    · exact Throughout.bind (releaseReservation_sparing hzero u) (fun _ =>
        .bind (sparing_plain (.call (c := .del .workload u.id) trivial)) fun _ =>
        sparing_plain (plain_settleDeployment _)) w hw
    · -- the record is there already
      have hw' : Hushed A t k (exec env .now w).2 := hw.exec rfl
      refine ⟨⟨hw, nofun⟩, ⟨hw', fun n _ h => ?_⟩, hw'.exec rfl⟩
      have hid : u.id = id := Table.key_of_get hu
      have hnone : w.workloads.get u.id = none := (Call.placesOn_workload.mp h).1.2
      rw [hid, hu] at hnone
      cases hnone

end Nodes

/-! ### The health pass -/

lemma Time.sub_mono {a b u : Time} (h : a ≤ b) : Time.sub a u ≤ Time.sub b u :=
  max_le_max le_rfl (min_le_min le_rfl (Int.sub_le_sub_right h u))

/-- A node whose heartbeat is too old is not ready after its evaluation. -/
lemma evaluateNode_status {n : Node} (h : o.nodeTTL ≤ Time.sub now n.lastSeen) :
    (evaluateNode o now n).status ≠ .ready := by
  have hmissed : 1 ≤ (Time.sub now n.lastSeen).tdiv o.nodeTTL := by
    rw [Int.tdiv_eq_ediv_of_nonneg (o.nodeTTL_pos.le.trans h)]
    exact (Int.le_ediv_iff_mul_le o.nodeTTL_pos).mpr (by rwa [one_mul])
  unfold evaluateNode
  dsimp only
  split_ifs
  · nofun
  · nofun

lemma evaluateNode_shut {n : Node} (hn : n.Shut A t)
    (hold : A n.id → o.nodeTTL ≤ Time.sub now t) : (evaluateNode o now n).Shut A t := by
  have hstatus : o.nodeTTL ≤ Time.sub now n.lastSeen → (evaluateNode o now n).status ≠ .ready :=
    evaluateNode_status
  obtain ⟨status, health, he⟩ := evaluateNode_eq (o := o) now n
  rw [he] at hstatus ⊢
  refine ⟨hn.1, fun hA => ⟨hstatus ?_, (hn.2 hA).2⟩⟩
  rw [(hn.2 hA).2]
  exact hold hA

lemma updateNodeHealth_hushes (hzero : ∀ k, (env.clock k).isZero = false) (hw : Hushed A t k w)
    (hold : ∀ n, A n → o.nodeTTL ≤ Time.sub (env.clock w.tick) t) :
    Hushes env A t k (updateNodeHealth o) w fun _ w' => Hushed A t k w' := by
  have hlist : w.store.list .node "" = w.nodes.rows := if_pos rfl
  refine ⟨⟨hw, nofun⟩, ⟨hw, nofun⟩, ?_⟩
  refine (show Sparing env A t k _ from ?_) _ (hw.exec (c := .now) rfl)
  refine .forEach fun n hn => ?_
  have hn' : n ∈ w.nodes.rows := hlist ▸ hn
  refine .bind (sparing_upsertNode hzero (.inl (evaluateNode_shut (hw.shut n hn') (hold n.id))))
    fun _ => ?_
  split
  · exact sparing_plain (plain_remediate _)
  · exact .pure _

/-! ### Steps of the system -/

/-- The event opens the node: it registers, or its runner sends a heartbeat. -/
def Event.Opens (n : String) (s : Sys) : Event → Prop
  | .registerNode node => node.id = n
  | .heartbeat m => (s.runner m).nodeID = n
  | _ => False

lemma sparing_ignore_then (hp : Sparing env A t k p) (b : β) :
    Sparing env A t k (p.ignore >>= fun _ => pure b) := .bind (.ignore hp) fun _ => .pure _

lemma sparing_work (hzero : ∀ k, (env.clock k).isZero = false) (r : Runner) (retries : ℕ)
    (rt : RuntimeOutcome) : Sparing env A t k (r.work retries rt) := by
  unfold Runner.work
  split
  · exact .pure _
  · rw [handle_eq]
    split
    · exact .bind (.ignore (reportWorkloadStatus_sparing hzero _ _ _)) fun _ => .pure _
    · exact .pure _

/-- A step spares the nodes that are shut, unless it opens one, or is a pass of the controller
that finds the heartbeat recent. -/
lemma Event.hushes (hzero : ∀ k, (env.clock k).isZero = false) (hmono : Monotone env.clock)
    (hs : Hushed A t 0 s.world) (hopen : ∀ n, A n → ¬ e.Opens n s)
    (hold : ∀ n, A n → e = .reconcileAll → o.nodeTTL ≤ Time.sub (env.clock s.world.tick) t) :
    Hushes env A t s.world.tick (e.program o s) s.world fun _ w' =>
      Hushed A t s.world.tick w' := by
  have hkept : Kept env o (Hushed A t s.world.tick) (Call.Spares A) := kept_hushed hzero
  have hw : Hushed A t s.world.tick s.world := ⟨hs.shut, hs.stored, le_rfl⟩
  cases e with
  | registerNode node =>
    exact sparing_ignore_then (registerNode_sparing hzero fun hA => hopen _ hA rfl) _ _ hw
  | createDeployment spec => exact sparing_ignore_then (hkept.createDeployment spec) _ _ hw
  | updateDeployment id next =>
    exact sparing_ignore_then (sparing_plain (plain_updateDeployment id next)) _ _ hw
  | rollbackDeployment id revision =>
    exact sparing_ignore_then (sparing_plain (plain_rollbackDeployment id revision)) _ _ hw
  | deleteDeployment id => exact sparing_ignore_then (sparing_plain (plain_deleteDeployment id)) _ _ hw
  | reconcileAll =>
    change Hushes env A t s.world.tick
      ((Orchestrator.reconcileAll o).ignore >>= fun _ => pure s.runner) s.world _
    rw [reconcileAll_eq]
    refine Prog.Sat.bind (R := fun _ w' => Hushed A t s.world.tick w') (Prog.Sat.ignore ?_)
      (fun _ _ h => h) fun _ _ h => h
    refine (hkept.reconcileStages s.world hw).bind ?_ fun _ _ h => h
    -- the health pass reads the clock after the stages
    intro _ w₁ hw₁
    exact updateNodeHealth_hushes hzero hw₁ fun n hn =>
      (hold n hn rfl).trans (Time.sub_mono (hmono hw₁.tick))
  | drainNode id => exact sparing_ignore_then (drainNode_sparing hzero id) _ _ hw
  | removeNode id => exact sparing_ignore_then (removeNode_sparing hzero id) _ _ hw
  | report id status containerID =>
    exact sparing_ignore_then (reportWorkloadStatus_sparing hzero id status containerID) _ _ hw
  | heartbeat node =>
    exact sparing_ignore_then (heartbeatNode_sparing hzero (fun hA => hopen _ hA rfl) _) _ _ hw
  | poll node max =>
    refine (show Sparing env A t s.world.tick _ from ?_) _ hw
    exact .bind (.bind (sparing_plain (.call (c := .popAssignments _ _) trivial)) fun _ => .pure _)
      fun _ => .pure _
  | work node retries rt =>
    refine (show Sparing env A t s.world.tick _ from ?_) _ hw
    exact .bind (sparing_work hzero _ retries rt) fun _ => .pure _
  | configure settings => exact hw

lemma Sys.step_nodes (s : Sys) (e : Event) :
    (s.step env o e).world.nodes = ((e.program o s).final (exec env) s.world).nodes := by
  cases e <;> rfl

/-- The nodes stay shut. -/
lemma Sys.step_hushed (hzero : ∀ k, (env.clock k).isZero = false) (hmono : Monotone env.clock)
    (hs : Hushed A t 0 s.world) (hopen : ∀ n, A n → ¬ e.Opens n s)
    (hold : ∀ n, A n → e = .reconcileAll → o.nodeTTL ≤ Time.sub (env.clock s.world.tick) t) :
    Hushed A t 0 (s.step env o e).world := by
  have hfinal := (Event.hushes hzero hmono hs hopen hold).run
  exact ⟨Sys.step_nodes s e ▸ hfinal.shut, Sys.step_nodes s e ▸ hfinal.stored, Nat.zero_le _⟩

/-- The records of the nodes have been dated. -/
abbrev Dated (w : World) : Prop := Hushed (fun _ => False) 0 0 w

lemma Runs.dated (hzero : ∀ k, (env.clock k).isZero = false) (hmono : Monotone env.clock)
    (h : Runs (Sys.step env o) Event.Any Sys.init s) : Dated s.world := by
  refine h.invariant (I := fun s => Dated s.world) ⟨?_, fun _ h => h.elim, le_rfl⟩ fun _ _ hI _ =>
    Sys.step_hushed hzero hmono hI (fun _ h => h.elim) fun _ h => h.elim
  exact fun r hr => absurd hr List.not_mem_nil

/-! ### Drained nodes -/

/-- Guards that allow every call. -/
abbrev Ends (env : Env) (p : M α) (w : World) (Q : Except Err α → World → Prop) : Prop :=
  Prog.Sat (exec env) (fun _ _ => True) p w Q

lemma Hushes.ends {Q : Except Err α → World → Prop} (h : Hushes env A t k p w Q) :
    Ends env p w Q := Prog.Sat.weaken (fun _ _ _ => trivial) h

lemma upsertNode_ends (hm : m.lastSeen.isZero = false) {f : Unit → M β}
    {Q : Except Err β → World → Prop} (h : Ends env (f ()) (exec env (.put .node m) w).2 Q) :
    Ends env (StateStore.upsertNode m >>= f) w Q := by
  rw [upsertNode_dated hm]
  exact ⟨trivial, h⟩

/-- A record that is not ready is stored: the node is shut. -/
lemma Dated.put (hw : Dated w) (hm : m.lastSeen.isZero = false)
    (hstatus : m.status ≠ .ready) :
    Hushed (· = m.id) m.lastSeen 0 (exec env (.put .node m) w).2 := by
  have hnodes : (exec env (.put .node m) w).2.nodes = w.nodes.put m := Store.put_self _ _ _
  refine ⟨?_, ?_, Nat.zero_le _⟩ <;> rw [hnodes]
  · intro r hr
    rcases Table.mem_rows_put.mp hr with rfl | ⟨hr, hne⟩
    · exact ⟨hm, fun _ => ⟨hstatus, rfl⟩⟩
    · exact ⟨(hw.shut r hr).1, fun hid => absurd hid hne⟩
  · rintro _ rfl
    exact ⟨m, Table.mem_rows_put.mpr (.inl rfl), rfl⟩

lemma drainNode_shuts (n : String) (hw : Dated w) :
    Ends env (drainNode n) w fun r w' => r = .ok () → ∃ t, Hushed (· = n) t 0 w' := by
  refine (getNode_hushes n hw).ends.bind ?_ (by rintro _ _ _ ⟨⟩)
  rintro m w₁ ⟨hw₁, hm⟩
  obtain ⟨⟨hseen, -⟩, rfl⟩ := hm m rfl
  refine upsertNode_ends (by exact hseen) ?_
  have hrest : Sparing env (· = m.id) m.lastSeen 0 (remediateUnhealthyNode m.id) :=
    sparing_plain (plain_remediate _)
  refine Prog.Sat.mono (Hushes.ends (hrest _ ?_)) fun _ _ h _ => ⟨m.lastSeen, h⟩
  exact Dated.put (m := { m with
    health := { m.health with draining := true, isolated := true }, status := .unknown })
    hw₁ hseen nofun

lemma removeNode_shuts (n : String) (hzero : ∀ k, (env.clock k).isZero = false) (hw : Dated w) :
    Ends env (removeNode n) w fun r w' => r = .ok () → ∃ t, Hushed (· = n) t 0 w' := by
  refine (drainNode_shuts n hw).bind ?_ (by rintro _ _ _ ⟨⟩)
  intro _ w₁ h
  obtain ⟨t, hw₁⟩ := h rfl
  refine (getNode_hushes n hw₁).ends.bind ?_ (by rintro _ _ _ ⟨⟩)
  rintro m w₂ ⟨hw₂, hm⟩
  have hm' : Node.Shut (· = n) t { m with
      status := .down, health := { m.health with reason := "node removed" } } :=
    ⟨(hm m rfl).1.1, fun hid => ⟨nofun, ((hm m rfl).1.2 hid).2⟩⟩
  exact (Hushes.ends (sparing_upsertNode hzero (.inl hm') w₂ hw₂)).mono fun _ _ h _ => ⟨t, h⟩

/-- The event drains or removes the node, and the call returns no error. -/
def Event.Closes (env : Env) (n : String) (e : Event) (s : Sys) : Prop :=
  e = .drainNode n ∧ (Orchestrator.drainNode n).result (exec env) s.world = .ok () ∨
    e = .removeNode n ∧ (Orchestrator.removeNode n).result (exec env) s.world = .ok ()

/-- The event leaves a node shut: the node does not register, its runner sends no heartbeat,
and the controller makes no pass while its last heartbeat is more recent than `nodeTTL`. -/
def Event.LeavesShut (env : Env) (o : Config) (n : String) (e : Event) (s : Sys) : Prop :=
  ¬ e.Opens n s ∧ (e = .reconcileAll → ∀ r ∈ s.world.nodes.rows, r.id = n →
    o.nodeTTL ≤ Time.sub (env.clock s.world.tick) r.lastSeen)

/-- The date of the record tells how old the heartbeat is. -/
lemma Event.LeavesShut.old (he : e.LeavesShut env o n s)
    (hs : Hushed (· = n) t k s.world) : ∀ m, m = n → e = .reconcileAll →
      o.nodeTTL ≤ Time.sub (env.clock s.world.tick) t := by
  rintro m rfl hpass
  obtain ⟨r, hr, hid⟩ := hs.stored m rfl
  have hage := he.2 hpass r hr hid
  rwa [((hs.shut r hr).2 hid).2] at hage

lemma Event.LeavesShut.spared (he : e.LeavesShut env o n s) :
    ∀ m, m = n → ¬ e.Opens m s := by
  rintro m rfl
  exact he.1

lemma Sys.step_closes {d : Event} (hzero : ∀ k, (env.clock k).isZero = false)
    (hs : Dated s.world) (hd : d.Closes env n s) :
    ∃ t, Hushed (· = n) t 0 (s.step env o d).world := by
  rcases hd with ⟨rfl, hok⟩ | ⟨rfl, hok⟩
  · have hstep : (s.step env o (.drainNode n)).world =
        (Orchestrator.drainNode n).final (exec env) s.world := Prog.final_ignore_then _ _ _ _
    rw [hstep]
    exact (drainNode_shuts n hs).run hok
  · have hstep : (s.step env o (.removeNode n)).world =
        (Orchestrator.removeNode n).final (exec env) s.world := Prog.final_ignore_then _ _ _ _
    rw [hstep]
    exact (removeNode_shuts n hzero hs).run hok

/-- Nothing is placed on the node at the call, nor could it be: no request makes `SelectNode`
return the node. -/
def Call.Shuns (o : Config) (n : String) (c : Call) (w : World) : Prop :=
  ¬ c.PlacesOn n w ∧ ∀ ext req labels tolerations m,
    o.scheduler.selectNode o.fl ext w.nodes.rows req labels tolerations = some m → m.id ≠ n

lemma Hushed.shuns (hw : Hushed (· = n) t k w) (hc : c.Spares (· = n) w) :
    c.Shuns o n w := by
  refine ⟨hc n rfl, fun ext req labels tolerations m hm => ?_⟩
  obtain ⟨hmem, hok⟩ := Planner.selectNode_some hm
  simp only [schedulable, Bool.and_eq_true, decide_eq_true_eq] at hok
  exact hw.not_mem hmem hok.1.1.1

/-- **Drained nodes get no workload.**  After a node has been drained or removed, in every run
of events that leave it shut, no call of a step places a workload on it. -/
theorem drained_gets_no_workload {n : String} {d : Event} {s₁ : Sys}
    (hzero : ∀ k, (env.clock k).isZero = false) (hmono : Monotone env.clock)
    (hs : Runs (Sys.step env o) Event.Any Sys.init s) (hd : d.Closes env n s)
    (hrun : Runs (Sys.step env o) (Event.LeavesShut env o n) (s.step env o d) s₁)
    (he : e.LeavesShut env o n s₁) :
    ∀ x ∈ (e.program o s₁).calls (exec env) s₁.world, x.1.Shuns o n x.2 := by
  obtain ⟨t, hshut⟩ := Sys.step_closes (o := o) hzero (Runs.dated hzero hmono hs) hd
  have hs₁ : Hushed (· = n) t 0 s₁.world :=
    hrun.invariant (I := fun s => Hushed (· = n) t 0 s.world) hshut fun e s hI he =>
      Sys.step_hushed hzero hmono hI he.spared (he.old hI)
  intro x hx
  obtain ⟨hw, hc⟩ := (Event.hushes hzero hmono hs₁ he.spared (he.old hs₁)).calls x hx
  exact hw.shuns hc

/-- A control plane for which a heartbeat is old after two seconds. -/
def quickConfig : Config := { plainConfig with nodeTTL := 2000000000, nodeTTL_pos := by decide }

/-- The node has registered. -/
def registered (o : Config) : Sys := Sys.init.step tickingEnv o (.registerNode smallNode)

/-- The node has been drained, and nothing more. -/
def drained (o : Config) : Sys := (registered o).step tickingEnv o (.drainNode "n1")

/-- The calls of the creation of a deployment. -/
def creation (o : Config) (s : Sys) : List (Call × World) :=
  ((Event.createDeployment webSpec).program o s).calls (exec tickingEnv) s.world

/-- A second deployment finds no node either, after a pass of the controller. -/
theorem drained_gets_no_workload_pass :
    let s := after (Sys.step tickingEnv quickConfig) [.createDeployment webSpec, .reconcileAll]
      (drained quickConfig)
    ∀ x ∈ creation quickConfig s, x.1.Shuns quickConfig "n1" x.2 := by
  have hcreate : ∀ s, (Event.createDeployment webSpec).LeavesShut tickingEnv quickConfig "n1" s :=
    fun _ => ⟨id, nofun⟩
  have hpass : Event.reconcileAll.LeavesShut tickingEnv quickConfig "n1"
      ((drained quickConfig).step tickingEnv quickConfig (.createDeployment webSpec)) :=
    ⟨id, fun _ => by decide +kernel⟩
  exact drained_gets_no_workload (s := registered quickConfig) (d := .drainNode "n1")
    tickingEnv_clock_nonzero tickingEnv_clock_monotone (.tail _ .refl trivial)
    (.inl ⟨rfl, by decide +kernel⟩) (.tail _ (.tail _ .refl (hcreate _)) hpass) (hcreate _)

/-- A heartbeat makes a drained node ready again, and the next deployment is placed on it;
so does a pass of the controller shortly after the drain. -/
theorem drained_reopens :
    (Orchestrator.drainNode "n1").result (exec tickingEnv) (registered plainConfig).world = .ok () ∧
    (∃ x ∈ creation plainConfig ((drained plainConfig).step tickingEnv plainConfig
      (.heartbeat "n1")), x.1.PlacesOn "n1" x.2) ∧
    ∃ x ∈ creation plainConfig ((drained plainConfig).step tickingEnv plainConfig
      .reconcileAll), x.1.PlacesOn "n1" x.2 := by
  decide +kernel

/-! ### Silent nodes -/

/-- The record that a health pass leaves of a node whose heartbeat is too old. -/
lemma Evaluated.hushed {r : Node} (h : Evaluated o (env.clock w.tick) w.nodes.rows w w')
    (hw : Dated w) (hr : r ∈ w.nodes.rows)
    (hage : o.nodeTTL ≤ Time.sub (env.clock w.tick) r.lastSeen) :
    Hushed (· = r.id) r.lastSeen 0 w' := by
  refine ⟨fun x hx => ?_, ?_, Nat.zero_le _⟩
  · rcases h.record x hx with ⟨hxw, hne⟩ | ⟨n, hn, rfl⟩
    · exact absurd rfl (hne x hxw)
    · have hstatus : o.nodeTTL ≤ Time.sub (env.clock w.tick) n.lastSeen →
          (evaluateNode o (env.clock w.tick) n).status ≠ .ready := evaluateNode_status
      obtain ⟨status, health, he⟩ := evaluateNode_eq (o := o) (env.clock w.tick) n
      rw [he] at hstatus ⊢
      refine ⟨(hw.shut n hn).1, fun hid => ?_⟩
      obtain rfl : n = r := Table.eq_of_mem_of_key_eq hn hr hid
      exact ⟨hstatus hage, rfl⟩
  · rintro _ rfl
    exact h.stored r hr

lemma evaluateNode_critical {n : Node}
    (h : 2 * o.nodeTTL ≤ Time.sub now n.lastSeen) :
    (evaluateNode o now n).health.failureClass = .critical := by
  have hnonneg : 0 ≤ Time.sub now n.lastSeen :=
    (Int.mul_nonneg zero_le_two o.nodeTTL_pos.le).trans h
  have hmissed : 2 ≤ (Time.sub now n.lastSeen).tdiv o.nodeTTL := by
    rw [Int.tdiv_eq_ediv_of_nonneg hnonneg]
    exact (Int.le_ediv_iff_mul_le o.nodeTTL_pos).mpr h
  unfold evaluateNode
  dsimp only
  rw [if_pos hmissed]

/-- What the workloads of an evacuated node have become. -/
lemma Evacuated.none_live {D : Workload → Prop} {L : List Assignment} (h : Evacuated D w w' L)
    (hD : ∀ v, v.nodeID = n → D v) {u : Workload} (hu : u ∈ w'.workloads.rows)
    (hn : u.nodeID = n) : ¬ u.Live := by
  intro hlive
  by_cases hex : ∃ v ∈ w.workloads.rows, v.id = u.id ∧ D v ∧ v.Live
  · obtain ⟨v, hv, hid, hDv, hvlive⟩ := hex
    obtain ⟨-, u', hu', hstatus, -⟩ := h.hit v hv hDv hvlive
    rw [hid, Table.get_of_mem hu] at hu'
    obtain rfl := Option.some.inj hu'
    rcases hlive with hl | hl <;> rw [hstatus] at hl <;> cases hl
  · have hmiss := (h.miss u.id fun v hv hid hDv hvlive => hex ⟨v, hv, hid, hDv, hvlive⟩).2
    rw [Table.get_of_mem hu] at hmiss
    exact hex ⟨u, Table.mem_of_get hmiss.symm, rfl, hD u hn, hlive⟩

/-- Where the health pass of a pass of the controller starts and ends. -/
lemma step_reconcileAll (h : (reconcileStages o).run (exec env) s.world = (.ok (), w)) :
    (s.step env o .reconcileAll).world = (updateNodeHealth o).final (exec env) w := by
  have hstep : (s.step env o .reconcileAll).world =
      (Orchestrator.reconcileAll o).final (exec env) s.world := Prog.final_ignore_then _ _ _ _
  rw [hstep, reconcileAll_eq, Prog.final, Prog.run_bind_ok _ h]
  rfl

/-- A node that is shut since a time that was old at tick `k` gets no workload until it is
opened. -/
lemma Runs.unopened {s₁ : Sys} (hzero : ∀ k, (env.clock k).isZero = false)
    (hmono : Monotone env.clock) (hs : Hushed (· = n) t k s.world)
    (hage : o.nodeTTL ≤ Time.sub (env.clock k) t)
    (hrun : Runs (Sys.step env o) (fun e s => ¬ e.Opens n s) s s₁) :
    Hushed (· = n) t k s₁.world := by
  refine hrun.invariant (I := fun s => Hushed (· = n) t k s.world) hs fun e s hI he => ?_
  have hstep : Hushed (· = n) t 0 (s.step env o e).world := by
    refine Sys.step_hushed hzero hmono ⟨hI.shut, hI.stored, Nat.zero_le _⟩ ?_ ?_
    · rintro _ rfl
      exact he
    · exact fun _ _ _ => hage.trans (Time.sub_mono (hmono hI.tick))
  exact ⟨hstep.shut, hstep.stored, hI.tick.trans (Sys.caused_any s e).tick_le⟩

/-- **Silent nodes are isolated.**  Let the health pass of a pass of the controller start in
`w` and find that the last heartbeat of a node is at least `nodeTTL` old.  Then no later step
places a workload on the node, until it registers or its runner sends a heartbeat.  If the
pass moves the node into the class critical, then at its end no workload on the node is
pending or running, and one deletion has been enqueued for each that was. -/
theorem silent_nodes_isolated {r : Node} (hzero : ∀ k, (env.clock k).isZero = false)
    (hmono : Monotone env.clock) (hs : Runs (Sys.step env o) Event.Any Sys.init s)
    (hw : (reconcileStages o).run (exec env) s.world = (.ok (), w)) (hr : r ∈ w.nodes.rows)
    (hage : o.nodeTTL ≤ Time.sub (env.clock w.tick) r.lastSeen) :
    (∀ (s₁ : Sys) (e : Event),
      Runs (Sys.step env o) (fun e s => ¬ e.Opens r.id s) (s.step env o .reconcileAll) s₁ →
      ¬ e.Opens r.id s₁ → ∀ x ∈ (e.program o s₁).calls (exec env) s₁.world,
        ¬ x.1.PlacesOn r.id x.2) ∧
    (2 * o.nodeTTL ≤ Time.sub (env.clock w.tick) r.lastSeen → r.health.failureClass ≠ .critical →
      (∀ v ∈ (s.step env o .reconcileAll).world.workloads.rows, v.nodeID = r.id →
        v.status ≠ .running ∧ v.status ≠ .pending) ∧
      ∀ v ∈ w.workloads.rows, v.nodeID = r.id → v.status = .running ∨ v.status = .pending →
        (enqueued env (updateNodeHealth o) w).countP (Assignment.deletes v.id) = 1) := by
  have hdated : Dated w := by
    have h := (kept_hushed (o := o) hzero).reconcileStages.final (Runs.dated hzero hmono hs)
    rwa [Prog.final, hw] at h
  obtain ⟨w', L, hem, heval, hevac⟩ := updateNodeHealth_emits env o
    fun n hn => (hdated.shut n hn).1
  have hfinal : (s.step env o .reconcileAll).world = w' :=
    (step_reconcileAll hw).trans (congrArg Prod.snd hem.run)
  refine ⟨fun s₁ e hrun he x hx => ?_, fun hcrit hclass => ?_⟩
  · -- after the pass the node is shut, since a time that was old when the pass started
    have htick : w.tick ≤ w'.tick := by
      have h := (updateNodeHealth_hushes (o := o) hzero (k := w.tick)
        ⟨hdated.shut, hdated.stored, le_rfl⟩ fun _ h => h.elim).run.tick
      rwa [Prog.final, hem.run] at h
    have hshut := heval.hushed hdated hr hage
    rw [← hfinal] at hshut htick
    have hs₁ := Runs.unopened hzero hmono ⟨hshut.shut, hshut.stored, htick⟩ hage hrun
    refine ((Event.hushes hzero hmono ⟨hs₁.shut, hs₁.stored, Nat.zero_le _⟩ ?_ ?_).calls x hx).2 _
      rfl
    · rintro _ rfl
      exact he
    · exact fun _ _ _ => hage.trans (Time.sub_mono (hmono hs₁.tick))
  · have hbecomes : BecomesCritical o (env.clock w.tick) r := ⟨evaluateNode_critical hcrit, hclass⟩
    rw [hfinal, hem.enqueued]
    refine ⟨fun v hv hn => ?_, fun v hv hn hlive => ?_⟩
    · exact not_or.mp (hevac.none_live (fun u hu => ⟨r, hr, hu, hbecomes⟩) hv hn)
    · exact (hevac.hit v hv ⟨r, hr, hn, hbecomes⟩ hlive).1

/-- The node has a workload. -/
def occupied : Sys := after (Sys.step tickingEnv quickConfig) webRun Sys.init

/-- A health pass starts, and finds that the node has been silent for two intervals. -/
def occupiedLate : World := (reconcileStages quickConfig).final (exec tickingEnv) occupied.world

theorem silent_nodes_isolated_critical :
    (∃ v ∈ occupiedLate.workloads.rows, v.nodeID = "n1" ∧ v.status = .pending ∧
      (enqueued tickingEnv (updateNodeHealth quickConfig) occupiedLate).countP
        (Assignment.deletes v.id) = 1) ∧
    (∀ v ∈ (occupied.step tickingEnv quickConfig .reconcileAll).world.workloads.rows,
      v.nodeID = "n1" → v.status ≠ .running ∧ v.status ≠ .pending) ∧
    ∀ x ∈ creation quickConfig (occupied.step tickingEnv quickConfig .reconcileAll),
      ¬ x.1.PlacesOn "n1" x.2 := by
  have hok : (reconcileStages quickConfig).result (exec tickingEnv) occupied.world = .ok () := by
    decide +kernel
  obtain ⟨r, hr, hid, hage, hcrit, hclass⟩ : ∃ r ∈ occupiedLate.nodes.rows, r.id = "n1" ∧
      quickConfig.nodeTTL ≤ Time.sub (tickingEnv.clock occupiedLate.tick) r.lastSeen ∧
      2 * quickConfig.nodeTTL ≤ Time.sub (tickingEnv.clock occupiedLate.tick) r.lastSeen ∧
      r.health.failureClass ≠ .critical := by
    decide +kernel
  obtain ⟨v, hv, hn, hpending⟩ : ∃ v ∈ occupiedLate.workloads.rows, v.nodeID = "n1" ∧
      v.status = .pending := by
    decide +kernel
  have hrun : Runs (Sys.step tickingEnv quickConfig) Event.Any Sys.init occupied :=
    .of_list webRun (admissible_any _ _)
  have hstart : (reconcileStages quickConfig).run (exec tickingEnv) occupied.world =
      (.ok (), occupiedLate) := Prod.ext hok rfl
  obtain ⟨hplace, hevac⟩ := silent_nodes_isolated tickingEnv_clock_nonzero
    tickingEnv_clock_monotone hrun hstart hr hage
  rw [hid] at hplace hevac
  exact ⟨⟨v, hv, hn, hpending, (hevac hcrit hclass).2 v hv hn (.inr hpending)⟩,
    (hevac hcrit hclass).1, hplace _ (.createDeployment webSpec) .refl id⟩

end Orchestrator
