/-
# Are the updates of a node serializable?

A heartbeat, the health pass, a drain, the report of a terminated workload and the placement
of a replica all read the record of a node, change it and write all of it back, and only the
placement holds `o.mu`.  Two of them that overlap lose an update.  If every write finds the
record as its thread has read it, the record is in the end the one that the operations leave
when they run one after another, in the order of their writes.
-/
import Mathlib.Data.List.Permutation
import Orchestrator.Lib.Commit
import Orchestrator.Logic.Clients
import Orchestrator.Logic.Remediation
import Orchestrator.System

namespace Orchestrator

open Lib

/-! ### The operations -/

/-- The operations on the node. -/
inductive NodeOp
  | heartbeat (used : Resource)
  | updateHealth
  | drain
  /-- `ReportWorkloadStatus` with the status `Terminated`. -/
  | report (id containerID : String)
  /-- `createWorkloadForDeployment`, which is called with `o.mu` held. -/
  | place (dep : Deployment)

/-- The program of an operation on the node `n`. -/
def NodeOp.program (o : Config) (n : String) : NodeOp → M Unit
  | heartbeat used => heartbeatNode n used
  | updateHealth => updateNodeHealth o
  | drain => drainNode n
  | report id containerID => reportWorkloadStatus id .terminated containerID
  | place dep => withLock (createWorkloadForDeployment o dep)

/-- The record that `UpsertNode` stores, if it has to read the time. -/
def Node.dated (now : Time) (r : Node) : Node :=
  { r with lastSeen := if r.lastSeen.isZero then now else r.lastSeen }

/-- The record that a heartbeat makes of a record. -/
def Node.beaten (used : Resource) (lastSeen evaluatedAt : Time) (r : Node) : Node :=
  { r with
    used := used
    status := .ready
    lastSeen := lastSeen
    health := { r.health with
      lastHeartbeatAgeSec := 0, consecutiveMissedTTL := 0, isolated := false, draining := false,
      failureClass := .healthy, reason := "", lastEvaluatedAt := evaluatedAt } }

/-- The record that a drain makes of a record. -/
def Node.drained (r : Node) : Node :=
  { r with health := { r.health with draining := true, isolated := true }, status := .unknown }

/-- Whether `SelectNode` takes the node, the only one, for a replica. -/
def takes (env : Env) (o : Config) (dep : Deployment) (r : Node) : Bool :=
  (o.scheduler.selectNode o.fl (env.external 0) [r] dep.spec.resources
    (dep.spec.labels.getD Table.empty) (dep.spec.tolerations.getD [])).isSome

/-- What an operation makes of the record of the node `n`, with the workloads `W`. -/
def NodeOp.effect (env : Env) (o : Config) (n : String) (W : Table Workload Workload.id) :
    NodeOp → Node → Node
  | heartbeat used, r => (r.beaten used (env.clock 0) (env.clock 1)).dated (env.clock 2)
  | updateHealth, r => (evaluateNode o (env.clock 0) r).dated (env.clock 1)
  | drain, r => r.drained.dated (env.clock 0)
  | report id _, r =>
    match W.get id with
    | some u => if u.nodeID = n then
        Node.dated (env.clock 0) { r with used := r.used.release u.resources } else r
    | none => r
  | place dep, r =>
    if takes env o dep r then
      Node.dated (env.clock 6) { r with used := r.used.reserve dep.spec.resources }
    else r

variable {env : Env} {o : Config} {n : String} {W : Table Workload Workload.id} {op : NodeOp}

lemma NodeOp.effect_id (r : Node) : (op.effect env o n W r).id = r.id := by
  cases op with
  | updateHealth =>
    obtain ⟨status, health, he⟩ := evaluateNode_eq (o := o) (env.clock 0) r
    rw [NodeOp.effect, he]
    rfl
  | report id c =>
    simp only [NodeOp.effect]
    split
    · split <;> rfl
    · rfl
  | place dep =>
    simp only [NodeOp.effect]
    split <;> rfl
  | _ => rfl

/-! ### What a thread does to the record -/

/-- What a thread has done that matters for the record. -/
structure NodeView where
  /-- The readings that it has made. -/
  tick : ℕ := 0
  /-- The record as it has read it. -/
  seen : Option Node := none
  /-- It has written the record. -/
  wrote : Bool := false
  /-- It has deleted a workload. -/
  gone : Bool := false

def NodeView.note (n : String) : (c : Call) → c.Res → NodeView → NodeView
  | .now, _, l | .rand, _, l | .admission, _, l | .external, _, l => { l with tick := l.tick + 1 }
  | .get .node k, a, l => if k = n then { l with seen := a } else l
  | .list .node _, a, l => { l with seen := a.head? }
  | .put .node _, _, l => { l with wrote := true }
  | .del .workload _, _, l => { l with gone := true }
  | _, _, l => l

/-- The workload has the node and the resources of the one in `W`. -/
def Workload.Matches (W : Table Workload Workload.id) (v : Workload) : Prop :=
  ∃ u, W.get v.id = some u ∧ v.resources = u.resources ∧ v.nodeID = u.nodeID

/-- The operation reports the workload. -/
def NodeOp.Reports (id : String) (op : NodeOp) : Prop := ∃ c, op = .report id c

/-- The calls of an operation.  It reads the record of the node once and writes it back once,
as its effect; it deletes no workload but the one that it reports, and does not change the
node or the resources of the workloads in `S`. -/
def NodeOp.Allows (env : Env) (o : Config) (n : String) (W : Table Workload Workload.id)
    (S : String → Prop) (op : NodeOp) (l : NodeView) : Call → Prop
  | .put .node x => l.wrote = false ∧ ∃ r, l.seen = some r ∧ x = op.effect env o n W r
  | .get .node k => k = n → l.seen = none
  | .list .node pfx => pfx = "" ∧ l.seen = none
  | .put .workload v => S v.id → v.Matches W
  | .del .workload k => op.Reports k
  | .del .node _ | .deleteDeployment _ => False
  | _ => True

/-- The answers that an operation gets. -/
def NodeOp.Answered (env : Env) (n : String) (W : Table Workload Workload.id)
    (S : String → Prop) (op : NodeOp) (l : NodeView) : (c : Call) → c.Res → Prop
  | .now, a => a = env.clock l.tick
  | .rand, a => a = env.rand l.tick
  | .external, a => a = env.external l.tick
  | .get .node k, a => (k = n → ∃ r, a = some r ∧ r.id = n) ∧ (k ≠ n → a = none)
  | .list .node _, a => ∃ r : Node, a = [r] ∧ r.id = n
  | .get .workload k, a => (∀ v : Workload, a = some v → v.id = k ∧ (S k → v.Matches W)) ∧
      (op.Reports k → l.gone = false → (W.get k).isSome = true → a.isSome = true)
  | .list .workload _, a => ∀ v ∈ (a : List Workload), S v.id → v.Matches W
  | _, _ => True

/-- The protocol of an operation. -/
def NodeOp.protocol (env : Env) (o : Config) (n : String) (W : Table Workload Workload.id)
    (S : String → Prop) (op : NodeOp) : Protocol Call.Res NodeView where
  note := NodeView.note n
  allows := op.Allows env o n W S
  answers := op.Answered env n W S

/-- The operation is over: it has written the record, or it would not have changed it. -/
def NodeOp.Over (env : Env) (o : Config) (n : String) (W : Table Workload Workload.id)
    (op : NodeOp) (l : NodeView) : Prop :=
  l.wrote = false → (∀ r, l.seen = some r → op.effect env o n W r = r) ∧
    (l.seen = none → ∀ r, op.effect env o n W r = r)

section Follows

variable {S : String → Prop} {l : NodeView} {α β : Type}

/-- The program follows the protocol, and neither reads nor writes the record. -/
abbrev Idle (env : Env) (o : Config) (n : String) (W : Table Workload Workload.id)
    (S : String → Prop) (op : NodeOp) (p : M α) : Prop :=
  ∀ l, (op.protocol env o n W S).Follows p l fun _ l' => l'.seen = l.seen ∧ l'.wrote = l.wrote

namespace Idle

lemma ret (r : Except Err α) : Idle env o n W S op (Prog.ret r : M α) := fun _ => ⟨rfl, rfl⟩

lemma bind {p : M α} {f : α → M β} (hp : Idle env o n W S op p)
    (hf : ∀ a, Idle env o n W S op (f a)) : Idle env o n W S op (p >>= f) := fun l =>
  (hp l).bind (fun a l₁ h₁ => (hf a l₁).mono fun _ _ h₂ => ⟨h₂.1.trans h₁.1, h₂.2.trans h₁.2⟩)
    fun _ _ h => h

lemma sequential : Prog.Sequential fun _ p => Idle env o n W S op p := ⟨fun _ => ret _, bind⟩

end Idle

/-- The calls that neither concern nodes nor store or delete workloads. -/
def Call.Aside : Call → Prop
  | .get .node _ | .list .node _ | .put .node _ | .del .node _ | .put .workload _
  | .del .workload _ | .deleteDeployment _ => False
  | _ => True

lemma Call.Aside.allows {c : Call} (hc : c.Aside) : op.Allows env o n W S l c := by
  cases c with
  | get t k => cases t <;> trivial
  | list t k => cases t <;> trivial
  | put t v => cases t <;> trivial
  | del t k => cases t <;> trivial
  | deleteDeployment k => exact hc.elim
  | _ => trivial

lemma Call.Aside.note {c : Call} (hc : c.Aside) (a : c.Res) :
    (NodeView.note n c a l).seen = l.seen ∧ (NodeView.note n c a l).wrote = l.wrote := by
  cases c with
  | get t k => cases t <;> first | exact ⟨rfl, rfl⟩ | exact hc.elim
  | list t k => cases t <;> first | exact ⟨rfl, rfl⟩ | exact hc.elim
  | put t v => cases t <;> first | exact hc.elim | exact ⟨rfl, rfl⟩
  | del t k => cases t <;> exact ⟨rfl, rfl⟩
  | _ => exact ⟨rfl, rfl⟩

lemma idle_aside {p : M α} (hp : Makes Call.Aside p) : Idle env o n W S op p := by
  intro l
  refine (Protocol.Follows.of_only (I := fun l' => l'.seen = l.seen ∧ l'.wrote = l.wrote) ?_ hp
    ⟨rfl, rfl⟩).mono fun _ _ h => h.2
  rintro c l' hc ⟨hs, hw⟩
  exact ⟨hc.allows, fun a _ => ⟨(hc.note a).1.trans hs, (hc.note a).2.trans hw⟩⟩

lemma idle_enqueue (a : Assignment) :
    Idle env o n W S op (StateStore.enqueueAssignment a) := by
  refine idle_aside ?_
  unfold StateStore.enqueueAssignment
  split
  · exact ⟨trivial, fun _ => ⟨trivial, fun _ => trivial⟩⟩
  · exact ⟨trivial, fun _ => trivial⟩

/-- A workload is marked as terminating. -/
lemma idle_terminateWorkload {v : Workload} (hv : S v.id → v.Matches W) :
    Idle env o n W S op (terminateWorkload v) := by
  have hput : Idle env o n W S op (StateStore.upsertWorkload { v with status := .terminating }) :=
    fun l => ⟨trivial, fun _ _ => ⟨hv, fun _ _ => ⟨rfl, rfl⟩⟩⟩
  exact hput.bind fun _ => idle_enqueue _

lemma idle_remediate (k : String) : Idle env o n W S op (remediateUnhealthyNode k) := by
  intro l
  refine ⟨trivial, fun workloads hmatch => ?_⟩
  have hloop : Idle env o n W S op (Prog.forEach workloads fun w =>
      if w.nodeID = k ∧ (w.status = .running ∨ w.status = .pending) then terminateWorkload w
      else pure ()) := by
    refine Idle.sequential.forEach fun v hv => ?_
    split
    · exact idle_terminateWorkload (hmatch v hv)
    · exact .ret _
  exact hloop l

lemma idle_settleDeployment (k : String) : Idle env o n W S op (settleDeployment k) := by
  refine idle_aside (.attempt_bind ⟨trivial, ?_⟩ ?_)
  · rintro (_ | d) <;> trivial
  · rintro (e | d)
    · trivial
    refine .bind ⟨trivial, fun _ => trivial⟩ fun ws =>
      .ite (.bind ?_ fun _ => .ignore (.call trivial)) trivial
    refine Prog.Only.mono (Prog.Only.weaken ?_ (keepsCore_settledStatus d ws)) fun _ _ => trivial
    intro c hc
    cases c <;> trivial

/-- The record is written as the effect of the operation. -/
lemma write_follows {r x : Node} (hseen : l.seen = some r) (hwrote : l.wrote = false)
    (hx : x.dated (env.clock l.tick) = op.effect env o n W r) :
    (op.protocol env o n W S).Follows (StateStore.upsertNode x) l fun _ l' => l'.wrote = true := by
  unfold StateStore.upsertNode orNow
  unfold Node.dated at hx
  split
  · next hz =>
    rw [if_pos hz] at hx
    refine ⟨trivial, fun now hnow => ?_⟩
    obtain rfl : now = env.clock l.tick := hnow
    exact ⟨⟨hwrote, r, hseen, hx⟩, fun _ _ => rfl⟩
  · next hz =>
    rw [if_neg hz] at hx
    exact ⟨⟨hwrote, r, hseen, hx⟩, fun _ _ => rfl⟩

/-- What is over once the record is written. -/
lemma over_of_wrote (h : l.wrote = true) : op.Over env o n W l := fun hw => by
  rw [h] at hw
  cases hw

/-- Nothing that follows the write matters. -/
lemma wrote_bind {p : M α} {f : α → M β}
    (hp : (op.protocol env o n W S).Follows p l fun _ l' => l'.wrote = true)
    (hf : ∀ a, Idle env o n W S op (f a)) :
    (op.protocol env o n W S).Follows (p >>= f) l fun _ l' => l'.wrote = true :=
  hp.bind (fun a l₁ h₁ => (hf a l₁).mono fun _ _ h₂ => h₂.2.trans h₁) fun _ _ h => h

lemma heartbeat_follows (used : Resource) :
    ((NodeOp.heartbeat used).protocol env o n W S).Follows (heartbeatNode n used) {}
      fun _ l => (NodeOp.heartbeat used).Over env o n W l := by
  refine ⟨fun _ => rfl, fun a ha => ?_⟩
  obtain ⟨r, rfl, -⟩ := ha.1 rfl
  refine ⟨trivial, fun now₀ h₀ => ⟨trivial, fun now₁ h₁ => ?_⟩⟩
  simp only [NodeOp.protocol, NodeView.note, if_true] at h₀ h₁ ⊢
  obtain rfl : now₀ = env.clock 0 := h₀
  obtain rfl : now₁ = env.clock 1 := h₁
  exact (write_follows rfl rfl rfl).mono fun _ _ h => over_of_wrote h

lemma updateHealth_follows :
    (NodeOp.updateHealth.protocol env o n W S).Follows (updateNodeHealth o) {}
      fun _ l => NodeOp.updateHealth.Over env o n W l := by
  refine ⟨⟨rfl, rfl⟩, fun nodes hnodes => ?_⟩
  obtain ⟨r, rfl, -⟩ := hnodes
  refine ⟨trivial, fun now hnow => ?_⟩
  obtain rfl : now = env.clock 0 := hnow
  refine (wrote_bind (wrote_bind (write_follows rfl rfl rfl) fun _ => ?_)
    fun _ => .ret _).mono fun _ _ h => over_of_wrote h
  split
  · exact idle_remediate _
  · exact .ret _

lemma drain_follows :
    (NodeOp.drain.protocol env o n W S).Follows (drainNode n) {}
      fun _ l => NodeOp.drain.Over env o n W l := by
  refine ⟨fun _ => rfl, fun a ha => ?_⟩
  obtain ⟨r, rfl, -⟩ := ha.1 rfl
  simp only [NodeOp.protocol, NodeView.note, if_true]
  exact (wrote_bind (write_follows rfl rfl rfl) fun _ => idle_remediate n).mono
    fun _ _ h => over_of_wrote h

lemma report_follows {id : String} (c : String) (hS : S id) :
    ((NodeOp.report id c).protocol env o n W S).Follows (reportWorkloadStatus id .terminated c) {}
      fun _ l => (NodeOp.report id c).Over env o n W l := by
  refine ⟨trivial, fun a ha => ?_⟩
  cases a with
  | none =>
    have hnone : W.get id = none := by
      by_contra hsome
      have := ha.2 ⟨c, rfl⟩ rfl (Option.isSome_iff_ne_none.mpr hsome)
      cases this
    have heffect : ∀ r, (NodeOp.report id c).effect env o n W r = r := fun r => by
      simp only [NodeOp.effect, hnone]
    exact fun _ => ⟨fun r _ => heffect r, fun _ => heffect⟩
  | some v =>
    obtain ⟨hid, hmatch⟩ := ha.1 v rfl
    obtain ⟨u, hu, hres, hnode⟩ := hmatch hS
    rw [hid] at hu
    have hrest : Idle env o n W S (.report id c)
        (StateStore.deleteWorkload v.id >>= fun _ => settleDeployment v.deploymentID) :=
      .bind (fun l => ⟨⟨c, by rw [hid]⟩, fun _ _ => ⟨rfl, rfl⟩⟩)
        fun _ => idle_settleDeployment _
    refine ⟨fun _ => rfl, fun b hb => ?_⟩
    by_cases hn : v.nodeID = n
    · obtain ⟨r, rfl, -⟩ := hb.1 hn
      simp only [NodeOp.protocol, NodeView.note, if_pos hn]
      refine (wrote_bind (.ignore (write_follows rfl rfl ?_)) fun _ => hrest).mono
        fun _ _ h => over_of_wrote h
      simp only [NodeOp.effect, hu, if_pos (hnode.symm.trans hn), hres]
    · obtain rfl := hb.2 hn
      simp only [NodeOp.protocol, NodeView.note, if_neg hn]
      have heffect : ∀ r, (NodeOp.report id c).effect env o n W r = r := fun r => by
        simp only [NodeOp.effect, hu, if_neg (show u.nodeID ≠ n from hnode ▸ hn)]
      exact (hrest _).mono fun _ _ _ _ => ⟨fun r _ => heffect r, fun _ => heffect⟩

/-- The scheduler has the only node to choose from. -/
lemma chooseNode_follows {dep : Deployment} (hprio : dep.spec.priority ≤ 0) :
    ((NodeOp.place dep).protocol env o n W S).Follows (chooseNode o dep) {} fun res l =>
      ∃ r, l = { tick := 1, seen := some r } ∧ match res with
        | .ok m => m = r ∧ takes env o dep r = true
        | .error _ => takes env o dep r = false := by
  refine Protocol.Follows.bind (R := fun res l => ∃ r, l = { tick := 1, seen := some r } ∧
    match res with
      | .ok m => (∀ x, m = some x → x = r) ∧ takes env o dep r = m.isSome
      | .error _ => False) ?_ ?_ ?_
  · refine ⟨⟨rfl, rfl⟩, fun nodes hnodes => ?_⟩
    obtain ⟨r, rfl, -⟩ := hnodes
    refine ⟨trivial, fun ext hext => ⟨r, rfl, fun x hx => ?_, ?_⟩⟩
    · simpa using (Planner.selectNode_some hx).1
    · obtain rfl : ext = env.external 0 := hext
      rfl
  · rintro m l ⟨r, rfl, hm, htakes⟩
    cases m with
    | some x => exact ⟨r, rfl, hm x rfl, htakes⟩
    | none =>
      simp only [if_neg (not_lt.mpr hprio)]
      exact ⟨r, rfl, htakes⟩
  · rintro e l ⟨r, -, ⟨⟩⟩

lemma place_follows {dep : Deployment} (hprio : dep.spec.priority ≤ 0)
    (hid : ¬ S (env.workloadID 1)) :
    ((NodeOp.place dep).protocol env o n W S).Follows
      (withLock (createWorkloadForDeployment o dep)) {}
      fun _ l => (NodeOp.place dep).Over env o n W l := by
  have hunlock : ∀ r : Except Err Unit, Idle env o n W S (.place dep)
      (ask .unlock >>= fun _ => Prog.ret r : M Unit) := fun r l => ⟨trivial, fun _ _ => ⟨rfl, rfl⟩⟩
  refine ⟨trivial, fun _ _ => ?_⟩
  refine Protocol.Follows.attempt_bind (R := fun _ l => (NodeOp.place dep).Over env o n W l) ?_
    fun r l hover => (hunlock r l).mono fun _ l' hl' hw => ?_
  · refine (chooseNode_follows hprio).bind ?_ ?_
    · rintro m _ ⟨r, rfl, rfl, htakes⟩
      refine ⟨trivial, fun nano hnano => ⟨trivial, fun rnd hrnd => ⟨trivial, fun _ _ =>
        ⟨trivial, fun _ _ => ⟨trivial, fun _ _ => ?_⟩⟩⟩⟩⟩
      have hdrawn : workloadID nano rnd = env.workloadID 1 := by
        rw [show nano = env.clock 1 from hnano, show rnd = env.rand 2 from hrnd]
        rfl
      refine ⟨fun hSid => absurd (hdrawn ▸ hSid) hid, fun _ _ => ?_⟩
      refine (wrote_bind (write_follows rfl rfl ?_) fun _ => ?_).mono
        fun _ _ h => over_of_wrote h
      · simp only [NodeOp.effect, htakes, if_true]
        rfl
      · refine .bind (idle_aside (.bind (makes_collectSecretFiles_of (fun _ => trivial) _ _ _)
          fun _ => trivial)) fun _ => idle_enqueue _
    · rintro e _ ⟨r, rfl, htakes⟩ -
      refine ⟨fun x hx => ?_, by rintro ⟨⟩⟩
      obtain rfl : r = x := by simpa using hx
      simp [NodeOp.effect, htakes]
  · rw [hl'.2] at hw
    rw [hl'.1]
    exact hover hw

/-- What is asked of an operation: a placement does not preempt, and draws an identifier that
is not reported. -/
def NodeOp.Fits (env : Env) (S : String → Prop) : NodeOp → Prop
  | report id _ => S id
  | place dep => dep.spec.priority ≤ 0 ∧ ¬ S (env.workloadID 1)
  | _ => True

/-- Every operation follows its protocol. -/
lemma NodeOp.follows (hfit : op.Fits env S) :
    (op.protocol env o n W S).Follows (op.program o n) {} fun _ l => op.Over env o n W l := by
  cases op with
  | heartbeat used => exact heartbeat_follows used
  | updateHealth => exact updateHealth_follows
  | drain => exact drain_follows
  | report id c => exact report_follows c hfit
  | place dep => exact place_follows hfit.1 hfit.2

end Follows

/-! ### What a call does to the node and to the workloads -/

/-- The record of the node is `r`, and the reported workloads are as in `W`. -/
structure Serves (n : String) (W : Table Workload Workload.id) (S : String → Prop) (s : Store)
    (r : Node) : Prop where
  nodes : (s .node).rows = [r]
  id : r.id = n
  workloads : ∀ v ∈ (s .workload).rows, S (Workload.id v) → Workload.Matches W v

/-- The workload is stored. -/
def Present (s : Store) (k : String) : Prop := ((s .workload).get k).isSome = true

section Step

variable {S : String → Prop} {l : NodeView} {c : Call} {w : World} {r : Node}

lemma Serves.get (h : Serves n W S w.store r) : (w.store .node).get n = some r :=
  Table.get_eq_some_iff.mpr ⟨by rw [h.nodes]; exact List.mem_singleton_self r, h.id⟩

/-- The answers are those that the operation counts on. -/
lemma Serves.answers (h : Serves n W S w.store r) (hallow : op.Allows env o n W S l c)
    (htick : w.tick = l.tick)
    (hpresent : ∀ k, op.Reports k → l.gone = false → (W.get k).isSome = true →
      Present w.store k) :
    op.Answered env n W S l c (exec env c w).1 := by
  cases c with
  | now => exact congrArg env.clock htick
  | rand => exact congrArg env.rand htick
  | external => exact congrArg env.external htick
  | get t k =>
    cases t with
    | node =>
      refine ⟨fun hk => ⟨r, hk ▸ h.get, h.id⟩, fun hk => ?_⟩
      refine Table.get_eq_none_iff.mpr fun v hv hvk => hk ?_
      rw [h.nodes, List.mem_singleton] at hv
      rw [← hvk, hv]
      exact h.id
    | workload =>
      refine ⟨fun v hv => ?_, fun hrep hgone hW => hpresent k hrep hgone hW⟩
      obtain ⟨hmem, hkey⟩ := Table.get_eq_some_iff.mp hv
      exact ⟨hkey, fun hk => h.workloads v hmem ((show v.id = k from hkey).symm ▸ hk)⟩
    | _ => trivial
  | list t pfx =>
    cases t with
    | node =>
      obtain ⟨rfl, -⟩ := hallow
      exact ⟨r, h.nodes, h.id⟩
    | workload => exact fun v hv => h.workloads v (Store.mem_list hv)
    | _ => trivial
  | _ => trivial

/-- The record after a call. -/
def Call.record (r : Node) : Call → Node
  | .put .node x => x
  | _ => r

/-- A call leaves the record that it writes, and the reported workloads as they were. -/
lemma Serves.call (h : Serves n W S w.store r) (hallow : op.Allows env o n W S l c)
    (hseen : ∀ x, l.seen = some x → x.id = n) :
    Serves n W S (exec env c w).2.store (c.record r) := by
  have hworkloads : ∀ v ∈ (exec env c w).2.workloads.rows, S v.id → v.Matches W := by
    intro v hv
    rcases exec_mem (t := .workload) nofun hv with hold | ⟨u, rfl, rfl⟩
    · exact h.workloads v hold
    · exact hallow
  have hquiet : c.writes .node = false → c.record r = r →
      Serves n W S (exec env c w).2.store (c.record r) := fun hn hr => by
    rw [hr]
    exact ⟨by rw [exec_writes env hn]; exact h.nodes, h.id, hworkloads⟩
  cases c with
  | put t v =>
    cases t with
    | node =>
      obtain ⟨-, x, hx, rfl⟩ := hallow
      have hid : (op.effect env o n W x).id = n := (op.effect_id x).trans (hseen x hx)
      have hget : w.nodes.get (op.effect env o n W x).id = some r := by
        rw [hid]
        exact h.get
      have hput : (exec env (.put .node (op.effect env o n W x)) w).2.nodes =
          w.nodes.put (op.effect env o n W x) := Store.put_self _ _ _
      have hrows := Table.rows_put_of_get hget
      rw [show w.nodes.rows = [r] from h.nodes] at hrows
      refine ⟨(congrArg Table.rows hput).trans (hrows.trans ?_), hid, hworkloads⟩
      simp [hid, h.id, Call.record]
    | _ => exact hquiet rfl rfl
  | del t k =>
    cases t with
    | node => exact hallow.elim
    | _ => exact hquiet rfl rfl
  | deleteDeployment k => exact hallow.elim
  | _ => exact hquiet rfl rfl

/-- A workload is stored as long as the thread that reports it has not deleted it. -/
lemma Present.call {k : String} (h : Present w.store k) (hallow : op.Allows env o n W S l c)
    (hk : c ≠ .del .workload k) : Present (exec env c w).2.store k := by
  refine exec_stays nofun nofun h hk ?_
  rintro id rfl
  exact hallow.elim

/-- The readings are counted. -/
lemma note_tick (htick : w.tick = l.tick) (a : c.Res) :
    (exec env c w).2.tick = (NodeView.note n c a l).tick := by
  cases c with
  | get t k =>
    cases t with
    | node =>
      simp only [NodeView.note]
      split <;> exact htick
    | _ => exact htick
  | list t k => cases t <;> exact htick
  | put t v => cases t <;> exact htick
  | del t k => cases t <;> exact htick
  | now => exact congrArg (· + 1) htick
  | rand => exact congrArg (· + 1) htick
  | admission => exact congrArg (· + 1) htick
  | external => exact congrArg (· + 1) htick
  | _ => exact htick

/-- Once a workload has been deleted, the view says so. -/
lemma note_gone (a : c.Res) (h : (NodeView.note n c a l).gone = false) :
    l.gone = false ∧ ∀ k, c ≠ .del .workload k := by
  cases c with
  | get t k =>
    refine ⟨?_, by rintro _ ⟨⟩⟩
    cases t with
    | node =>
      simp only [NodeView.note] at h
      split at h <;> exact h
    | _ => exact h
  | list t k => exact ⟨by cases t <;> exact h, by rintro _ ⟨⟩⟩
  | put t v => exact ⟨by cases t <;> exact h, by rintro _ ⟨⟩⟩
  | del t k =>
    cases t with
    | workload => cases h
    | _ => exact ⟨h, by rintro _ ⟨⟩⟩
  | _ => exact ⟨h, by rintro _ ⟨⟩⟩

/-- A call writes the record, or it reads it for the first time, or it does neither. -/
lemma Serves.cases (h : Serves n W S w.store r) (hallow : op.Allows env o n W S l c)
    {l' : NodeView} (hl' : l' = NodeView.note n c (exec env c w).1 l) :
    (∃ x, c = .put .node x ∧ l'.seen = l.seen ∧ l'.wrote = true) ∨
      (c.record r = r ∧ l.seen = none ∧ l'.seen = some r ∧ l'.wrote = l.wrote) ∨
      (c.record r = r ∧ l'.seen = l.seen ∧ l'.wrote = l.wrote) := by
  subst hl'
  cases c with
  | get t k =>
    cases t with
    | node =>
      by_cases hk : k = n
      · refine .inr (.inl ⟨rfl, hallow hk, ?_⟩)
        simp only [NodeView.note, if_pos hk, and_true]
        rw [hk]
        exact h.get
      · refine .inr (.inr ⟨rfl, ?_⟩)
        simp only [NodeView.note, if_neg hk, and_self]
    | _ => exact .inr (.inr ⟨rfl, rfl, rfl⟩)
  | list t pfx =>
    cases t with
    | node =>
      obtain ⟨rfl, hseen⟩ := hallow
      refine .inr (.inl ⟨rfl, hseen, ?_, rfl⟩)
      exact (congrArg List.head? h.nodes).trans rfl
    | _ => exact .inr (.inr ⟨rfl, rfl, rfl⟩)
  | put t v =>
    cases t with
    | node => exact .inl ⟨v, rfl, rfl, rfl⟩
    | _ => exact .inr (.inr ⟨rfl, rfl, rfl⟩)
  | del t k => cases t <;> exact .inr (.inr ⟨rfl, rfl, rfl⟩)
  | _ => exact .inr (.inr ⟨rfl, rfl, rfl⟩)

end Step

/-! ### One after another -/

/-- The invariant of an operation that runs alone, from a store with the record `r` on. -/
structure Alone (env : Env) (o : Config) (n : String) (W : Table Workload Workload.id)
    (S : String → Prop) (op : NodeOp) (r : Node) (s : Store) (l : NodeView) (w : World) : Prop where
  tick : w.tick = l.tick
  serves : Serves n W S w.store (if l.wrote then op.effect env o n W r else r)
  seen : ∀ x, l.seen = some x → x = r
  unseen : l.seen = none → l.wrote = false
  present : ∀ k, Present s k → op.Reports k → l.gone = false → Present w.store k
  others : ∀ k, Present s k → ¬ op.Reports k → Present w.store k

section Alone

variable {S : String → Prop} {l : NodeView} {c : Call} {w : World} {r : Node} {s : Store}

lemma Alone.step (h : Alone env o n W S op r s l w)
    (hW : ∀ k, op.Reports k → (W.get k).isSome = true → Present s k)
    (hallow : op.Allows env o n W S l c) :
    op.Answered env n W S l c (exec env c w).1 ∧
      Alone env o n W S op r s (NodeView.note n c (exec env c w).1 l) (exec env c w).2 := by
  have hid : r.id = n := by
    have := h.serves.id
    split at this
    · rwa [op.effect_id] at this
    · exact this
  have hseen : ∀ x, l.seen = some x → x.id = n := fun x hx => (h.seen x hx).symm ▸ hid
  have hcall := h.serves.call hallow hseen
  obtain ⟨hserves, hread, hunread⟩ :
      Serves n W S (exec env c w).2.store
        (if (NodeView.note n c (exec env c w).1 l).wrote then op.effect env o n W r else r) ∧
      (∀ x, (NodeView.note n c (exec env c w).1 l).seen = some x → x = r) ∧
      ((NodeView.note n c (exec env c w).1 l).seen = none →
        (NodeView.note n c (exec env c w).1 l).wrote = false) := by
    rcases h.serves.cases hallow rfl with ⟨x, rfl, hsame, hwrote⟩ | ⟨hrec, hnone, hsome, hwrote⟩ |
      ⟨hrec, hsame, hwrote⟩
    · obtain ⟨-, y, hy, rfl⟩ := hallow
      rw [hwrote, hsame, hy, if_pos rfl, ← h.seen y hy]
      exact ⟨hcall, fun x hx => (Option.some.inj hx).symm, by rintro ⟨⟩⟩
    · rw [hwrote, hsome]
      refine ⟨hrec ▸ hcall, fun x hx => ?_, by rintro ⟨⟩⟩
      rw [← Option.some.inj hx, h.unseen hnone, if_neg Bool.false_ne_true]
    · rw [hwrote, hsame]
      exact ⟨hrec ▸ hcall, h.seen, h.unseen⟩
  refine ⟨h.serves.answers hallow h.tick fun k hk hgone hsome =>
    h.present k (hW k hk hsome) hk hgone, note_tick h.tick _, hserves, hread, hunread, ?_, ?_⟩
  · intro k hk hrep hgone
    obtain ⟨hgone', hdel⟩ := note_gone _ hgone
    exact (h.present k hk hrep hgone').call hallow (hdel k)
  · intro k hk hrep
    refine (h.others k hk hrep).call hallow ?_
    rintro rfl
    exact hrep hallow

/-- An operation that runs alone makes its effect of the record. -/
lemma NodeOp.alone (hfit : op.Fits env S) (h : Serves n W S s r)
    (hW : ∀ k, op.Reports k → (W.get k).isSome = true → Present s k) :
    Serves n W S ((op.program o n).final (exec env) ⟨s, 0⟩).store (op.effect env o n W r) ∧
      ∀ k, Present s k → ¬ op.Reports k →
        Present ((op.program o n).final (exec env) ⟨s, 0⟩).store k := by
  have hstart : Alone env o n W S op r s {} ⟨s, 0⟩ :=
    ⟨rfl, h, by rintro _ ⟨⟩, fun _ => rfl, fun _ hk _ _ => hk, fun _ hk _ => hk⟩
  obtain ⟨l, hover, hend⟩ := (NodeOp.follows hfit).run
    (I := fun l w => Alone env o n W S op r s l w) (fun c l w hl hallow => hl.step hW hallow) hstart
  refine ⟨?_, hend.others⟩
  have hserves := hend.serves
  cases hwrote : l.wrote with
  | true => rwa [hwrote, if_pos rfl] at hserves
  | false =>
    rw [hwrote, if_neg Bool.false_ne_true] at hserves
    have hidle : op.effect env o n W r = r := by
      cases hseen : l.seen with
      | some x => exact hend.seen x hseen ▸ (hover hwrote).1 x hseen
      | none => exact (hover hwrote).2 hseen r
    rwa [hidle]

end Alone

/-- The operation of thread `i`. -/
def operation (ops : List NodeOp) (i : ℕ) : NodeOp := ops[i]?.getD .drain

/-- The store after the operations in the given order, each with its own readings. -/
def inSequence (env : ℕ → Env) (o : Config) (n : String) (ops : List NodeOp) (order : List ℕ)
    (s : Store) : Store :=
  order.foldl (fun s i => (((operation ops i).program o n).final (exec (env i)) ⟨s, 0⟩).store) s

section Sequence

variable {env : ℕ → Env} {S : String → Prop} {ops : List NodeOp} {r : Node} {s : Store}

/-- The effect of the operation of thread `i`. -/
abbrev effects (env : ℕ → Env) (o : Config) (n : String) (W : Table Workload Workload.id)
    (ops : List NodeOp) (i : ℕ) : Node → Node := (operation ops i).effect (env i) o n W

/-- **One after another**, the operations make their effects of the record. -/
lemma inSequence_serves {order : List ℕ} (hnodup : order.Nodup)
    (hfit : ∀ i, (operation ops i).Fits (env i) S)
    (hdistinct : ∀ i j k, (operation ops i).Reports k → (operation ops j).Reports k → i = j)
    (h : Serves n W S s r)
    (hW : ∀ i ∈ order, ∀ k, (operation ops i).Reports k → (W.get k).isSome = true → Present s k) :
    Serves n W S (inSequence env o n ops order s) (serial (effects env o n W ops) order r) := by
  induction order generalizing s r with
  | nil => exact h
  | cons i order ih =>
    obtain ⟨hi, hnodup⟩ := List.nodup_cons.mp hnodup
    obtain ⟨hserves, hothers⟩ := NodeOp.alone (o := o) (hfit i) h (hW i List.mem_cons_self)
    refine ih hnodup hserves fun j hj k hk hsome => ?_
    exact hothers k (hW j (List.mem_cons_of_mem _ hj) k hk hsome)
      fun hik => hi (hdistinct i j k hik hk ▸ hj)

end Sequence

/-! ### Runs -/

/-- The store and the mutex, and what each thread has done. -/
abbrev NodeState := Protocol.Viewed Commons NodeView

/-- The views of the threads, without rules. -/
def recorder (n : String) : Protocol Call.Res NodeView where
  note := NodeView.note n
  allows _ _ := True
  answers _ _ _ := True

/-- A write finds the record as the thread has read it. -/
def Undisturbed (n : String) (i : ℕ) : Call → NodeState → Prop
  | .put .node _, s => (s.base.store .node).get n = (s.view i).seen
  | _, _ => True

/-- What the record has to do with the threads: it is the one after the writes in the log. -/
structure Serialized (env : ℕ → Env) (o : Config) (n : String) (W : Table Workload Workload.id)
    (S : String → Prop) (ops : List NodeOp) (r₀ : Node) (s : NodeState) : Prop where
  logged : ∃ r log, Serves n W S s.base.store r ∧
    Logged (effects env o n W ops) (fun i => (s.view i).seen) (fun i => (s.view i).wrote) r₀ r log
  seen : ∀ i x, (s.view i).seen = some x → x.id = n
  present : ∀ i k, (operation ops i).Reports k → (s.view i).gone = false →
    (W.get k).isSome = true → Present s.base.store k
  ticks : ∀ i, s.base.ticks i = (s.view i).tick

section Runs

variable {env : ℕ → Env} {S : String → Prop} {ops : List NodeOp} {r₀ : Node} {s : NodeState}
  {i : ℕ} {c : Call}

/-- **One step** of a thread. -/
lemma Serialized.step (h : Serialized env o n W S ops r₀ s)
    (hdistinct : ∀ i j k, (operation ops i).Reports k → (operation ops j).Reports k → i = j)
    (hc : Undisturbed n i c s)
    (hallow : (operation ops i).Allows (env i) o n W S (s.view i) c) :
    (operation ops i).Answered (env i) n W S (s.view i) c
        ((clients env).exec i c s.base).1 ∧
      Serialized env o n W S ops r₀
        ((Protocol.watch (fun _ => recorder n) (clients env)).exec i c s).2 := by
  obtain ⟨r, log, hserves, hlog⟩ := h.logged
  have hserves' : Serves n W S (s.base.world i).store r := hserves
  have htick : (s.base.world i).tick = (s.view i).tick := h.ticks i
  have hcall := hserves'.call hallow (h.seen i)
  generalize hl' : NodeView.note n c (exec (env i) c (s.base.world i)).1 (s.view i) = l'
  have hview : ∀ j, ((Protocol.watch (fun _ => recorder n) (clients env)).exec i c s).2.view j =
      if j = i then l' else s.view j := fun j => by
    rw [← hl']
    rfl
  have hcases := hserves'.cases hallow hl'.symm
  refine ⟨hserves'.answers hallow htick fun k hk hgone hsome => h.present i k hk hgone hsome,
    ⟨?_, ?_, ?_, ?_⟩⟩
  · have hsplit : ∀ {α : Type} (f : NodeView → α), (fun j => f
        (((Protocol.watch (fun _ => recorder n) (clients env)).exec i c s).2.view j)) =
        fun j => if j = i then f l' else f (s.view j) := fun f => by
      funext j
      rw [hview, apply_ite f]
    have hkeep : ∀ {α : Type} (f : NodeView → α), f l' = f (s.view i) →
        (fun j => if j = i then f l' else f (s.view j)) = fun j => f (s.view j) := fun f hf => by
      funext j
      split
      · next hji => rw [hf, hji]
      · rfl
    rw [hsplit NodeView.seen, hsplit NodeView.wrote]
    rcases hcases with ⟨x, rfl, hsame, hwrote⟩ | ⟨hrec, hnone, hsome, hwrote⟩ |
      ⟨hrec, hsame, hwrote⟩
    · obtain ⟨hw, y, hy, rfl⟩ := hallow
      obtain rfl : r = y := Option.some.inj ((hserves'.get.symm.trans hc).trans hy)
      refine ⟨_, log.erase i ++ [i], hcall, ?_⟩
      rw [hkeep NodeView.seen hsame, hwrote]
      exact hlog.writing hy hw
    · refine ⟨r, log ++ [i], hrec ▸ hcall, ?_⟩
      rw [hkeep NodeView.wrote hwrote, hsome]
      exact hlog.reading hnone
    · refine ⟨r, log, hrec ▸ hcall, ?_⟩
      rw [hkeep NodeView.seen hsame, hkeep NodeView.wrote hwrote]
      exact hlog
  · intro j x hx
    rw [hview] at hx
    split at hx
    · rcases hcases with ⟨y, rfl, hsame, -⟩ | ⟨-, -, hsome, -⟩ | ⟨-, hsame, -⟩
      · exact h.seen i x (hsame ▸ hx)
      · rw [← Option.some.inj (hsome.symm.trans hx)]
        exact hserves.id
      · exact h.seen i x (hsame ▸ hx)
    · exact h.seen j x hx
  · intro j k hk hgone hsome
    rw [hview] at hgone
    split at hgone
    · next hji =>
      subst hji
      rw [← hl'] at hgone
      obtain ⟨hgone', hdel⟩ := note_gone _ hgone
      exact Present.call (w := s.base.world j) (h.present j k hk hgone' hsome) hallow (hdel k)
    · next hji =>
      refine Present.call (w := s.base.world i) (h.present j k hk hgone hsome) hallow ?_
      rintro rfl
      exact hji (hdistinct j i k hk hallow)
  · intro j
    rw [hview]
    change (if j = i then (exec (env i) c (s.base.world i)).2.tick else s.base.ticks j) = _
    split
    · rw [← hl']
      exact note_tick htick _
    · exact h.ticks j

/-- The program of thread `i`: the threads after the last operation do nothing. -/
def programs (o : Config) (n : String) (ops : List NodeOp) (i : ℕ) : M Unit :=
  if i < ops.length then (operation ops i).program o n else pure ()

/-- The workload that an operation reports. -/
def NodeOp.reported : NodeOp → Option String
  | report id _ => some id
  | _ => none

lemma NodeOp.reports_iff {op : NodeOp} {k : String} : op.Reports k ↔ op.reported = some k := by
  constructor
  · rintro ⟨c, rfl⟩
    rfl
  · intro h
    cases op with
    | report id c => exact ⟨c, by rw [Option.some.inj h]⟩
    | _ => cases h

/-- What is asked of the operations: a workload is reported by at most one of them, and a
placement does not preempt and draws an identifier that none of them reports. -/
structure Compatible (env : ℕ → Env) (ops : List NodeOp) : Prop where
  reports : (ops.filterMap NodeOp.reported).Nodup
  places : ∀ i dep, ops[i]? = some (.place dep) →
    dep.spec.priority ≤ 0 ∧ (env i).workloadID 1 ∉ ops.filterMap NodeOp.reported

lemma operation_reports {k : String} (h : (operation ops i).Reports k) :
    ∃ op, ops[i]? = some op ∧ op.reported = some k := by
  rw [NodeOp.reports_iff, operation] at h
  cases hop : ops[i]? with
  | some op =>
    rw [hop] at h
    exact ⟨op, rfl, h⟩
  | none =>
    rw [hop] at h
    cases h

lemma Compatible.fits (h : Compatible env ops) (i : ℕ) :
    (operation ops i).Fits (env i) (· ∈ ops.filterMap NodeOp.reported) := by
  cases hop : ops[i]? with
  | none =>
    rw [operation, hop]
    trivial
  | some op =>
    rw [operation, hop]
    cases op with
    | report id c => exact List.mem_filterMap.mpr ⟨_, List.mem_of_getElem? hop, rfl⟩
    | place dep => exact h.places i dep hop
    | _ => trivial

lemma Compatible.distinct (h : Compatible env ops) (i j : ℕ) (k : String)
    (hi : (operation ops i).Reports k) (hj : (operation ops j).Reports k) : i = j := by
  have hpair := List.pairwise_iff_getElem.mp (List.pairwise_filterMap.mp h.reports)
  have hlt : ∀ {i j}, (operation ops i).Reports k → (operation ops j).Reports k → ¬ i < j := by
    intro i j hi hj hij
    obtain ⟨a, ha, hak⟩ := operation_reports hi
    obtain ⟨b, hb, hbk⟩ := operation_reports hj
    obtain ⟨hi', rfl⟩ := List.getElem?_eq_some_iff.mp ha
    obtain ⟨hj', rfl⟩ := List.getElem?_eq_some_iff.mp hb
    exact hpair i j hi' hj' hij k hak k hbk rfl
  have h₁ := hlt hi hj
  have h₂ := hlt hj hi
  omega

/-- What is known of thread `i` when it is over. -/
def ThreadOver (env : ℕ → Env) (o : Config) (n : String) (W : Table Workload Workload.id)
    (ops : List NodeOp) (i : ℕ) (l : NodeView) : Prop :=
  if i < ops.length then (operation ops i).Over (env i) o n W l else l = {}

/-- When all threads are over, the record is the one after the effects of the operations in
some order. -/
lemma Serialized.order (h : Serialized env o n W S ops r₀ s)
    (hover : ∀ i, ThreadOver env o n W ops i (s.view i)) :
    ∃ order : List ℕ, order.Perm (List.range ops.length) ∧ Serves n W S s.base.store
      (serial (effects env o n W ops) order r₀) := by
  obtain ⟨r, log, hserves, hlog⟩ := h.logged
  have hlt : ∀ i, (s.view i).seen.isSome = true → i < ops.length := by
    intro i hi
    by_contra hge
    have hview : s.view i = {} := by simpa [ThreadOver, hge] using hover i
    rw [hview] at hi
    cases hi
  obtain ⟨order, hperm, hserial⟩ := hlog.order hlt fun i hi => by
    have hi' := hover i
    rwa [ThreadOver, if_pos hi] at hi'
  exact ⟨order, hperm, hserial ▸ hserves⟩

/-- The threads without an operation do nothing. -/
lemma idle_threads {p : Pool Call.Res Err Unit NodeState} {store : Store}
    {cond : ℕ → Call → NodeState → Prop}
    (hrun : Runs (Protocol.watch (fun _ => recorder n) (clients env)).step (Pool.Next cond)
      (launch (programs o n ops) store {}) p) (hi : ops.length ≤ i) :
    p.threads i = .ret (.ok ()) := by
  refine hrun.invariant (I := fun p => p.threads i = .ret (.ok ())) (if_neg (not_lt.mpr hi)) ?_
  intro j q hq _
  rcases Machine.step_cases _ j q with hst | ⟨c, k, hcall, -, -, -, hothers⟩
  · rwa [hst]
  · rw [hothers i ?_, hq]
    rintro rfl
    rw [hq] at hcall
    cases hcall

/-- **The updates of a node are serializable** in every run in which each write of the record
finds it as its thread has read it: when the operations are over, the record is the one that
they leave when they run one after another, in some order. -/
theorem node_updates_serializable {p : Pool Call.Res Err Unit NodeState} {store : Store}
    (hnode : (store .node).rows = [r₀]) (hops : Compatible env ops)
    (hrun : Runs (Protocol.watch (fun _ => recorder r₀.id) (clients env)).step
      (Pool.Next (Undisturbed r₀.id)) (launch (programs o r₀.id ops) store {}) p)
    (hdone : ∀ i < ops.length, (p.threads i).returned = true) :
    ∃ order : List ℕ, order.Perm (List.range ops.length) ∧
      (p.shared.base.store .node).rows =
        (inSequence env o r₀.id ops order store .node).rows := by
  set W : Table Workload Workload.id := store .workload
  set S : String → Prop := (· ∈ ops.filterMap NodeOp.reported)
  have hstart : Serves r₀.id W S store r₀ :=
    ⟨hnode, rfl, fun v hv _ => ⟨v, Table.get_of_mem hv, rfl, rfl⟩⟩
  have hfollow : Protocol.Followed
      (fun i => (operation ops i).protocol (env i) o r₀.id W S)
      (Serialized env o r₀.id W S ops r₀)
      (fun i _ l => ThreadOver env o r₀.id W ops i l) p := by
    refine Protocol.run_follows ?_ ⟨⟨⟨r₀, [], hstart, .init⟩, ?_, ?_, fun _ => rfl⟩, ?_⟩ hrun
    · exact fun i c s hI _ hc hallow => hI.step hops.distinct hc hallow
    · rintro i x ⟨⟩
    · exact fun i k _ _ hk => hk
    · intro i
      by_cases hi : i < ops.length
      · have hthread : (launch (programs o r₀.id ops) store ({} : NodeView)).threads i =
            (operation ops i).program o r₀.id := if_pos hi
        rw [hthread]
        refine (NodeOp.follows (hops.fits i)).mono fun _ l hl => ?_
        rwa [ThreadOver, if_pos hi]
      · have hthread : (launch (programs o r₀.id ops) store ({} : NodeView)).threads i =
            .ret (.ok ()) := if_neg hi
        rw [hthread]
        change ThreadOver env o r₀.id W ops i {}
        rw [ThreadOver, if_neg hi]
  have hover : ∀ i, ThreadOver env o r₀.id W ops i (p.shared.view i) := by
    intro i
    by_cases hi : i < ops.length
    · cases hthread : p.threads i with
      | ret r => exact hfollow.result hthread
      | call c k =>
        have hret := hdone i hi
        rw [hthread] at hret
        cases hret
    · exact hfollow.result (idle_threads hrun (not_lt.mp hi))
  obtain ⟨order, hperm, hserves⟩ := hfollow.inv.order hover
  have hnodup : order.Nodup := hperm.nodup_iff.mpr List.nodup_range
  refine ⟨order, hperm, ?_⟩
  have hserial := inSequence_serves (o := o) hnodup hops.fits hops.distinct hstart
    fun _ _ _ _ hk => hk
  exact hserves.nodes.trans hserial.nodes.symm

end Runs

/-- A node with a reservation of 500. -/
def reservedNode : Node := { smallNode with used := ⟨500, 500⟩, lastSeen := 5 }

/-- A workload holds 300 of them. -/
def reservedStore : Store :=
  (Store.empty.put .node reservedNode).put .workload
    { id := "w1", deploymentID := "d1", nodeID := "n1", resources := ⟨300, 300⟩,
      status := .terminating }

/-- The workload is reported as terminated, and the node sends a heartbeat. -/
def reportAndBeat : List NodeOp := [.report "w1" "", .heartbeat ⟨500, 500⟩]

/-- The operations after the given steps of the threads. -/
def overlapped (schedule : List ℕ) : Pool Call.Res Err Unit NodeState :=
  after (Protocol.watch (fun _ => recorder reservedNode.id) (clients fun _ => steadyEnv)).step
    schedule (launch (programs plainConfig reservedNode.id reportAndBeat) reservedStore {})

/-- The record of the node then. -/
def overlappedNode (schedule : List ℕ) : List Node :=
  ((overlapped schedule).shared.base.store .node).rows

/-- The record after the operations in the given order. -/
def sequenceNode (order : List ℕ) : List Node :=
  (inSequence (fun _ => steadyEnv) plainConfig reservedNode.id reportAndBeat order reservedStore
    .node).rows

instance Undisturbed.decidable (n : String) (i : ℕ) (c : Call) (s : NodeState) :
    Decidable (Undisturbed n i c s) := by
  unfold Undisturbed
  split <;> infer_instance

/-- The operations overlap without a conflict: the release comes after the heartbeat. -/
theorem node_updates_serializable_apart :
    ∃ order : List ℕ, order.Perm (List.range 2) ∧
      overlappedNode [0, 1, 1, 1, 1, 0, 0, 0, 0] = sequenceNode order := by
  have hnode : (reservedStore .node).rows = [reservedNode] := by decide +kernel
  have hops : Compatible (fun _ => steadyEnv) reportAndBeat :=
    ⟨by decide, fun i dep h => by rcases i with _ | _ | i <;> cases h⟩
  have hrun : Runs (Protocol.watch (fun _ => recorder reservedNode.id)
      (clients fun _ => steadyEnv)).step (Pool.Next (Undisturbed reservedNode.id))
      (launch (programs plainConfig reservedNode.id reportAndBeat) reservedStore {})
      (overlapped [0, 1, 1, 1, 1, 0, 0, 0, 0]) := .of_list _ (by decide +kernel)
  exact node_updates_serializable hnode hops hrun (by decide +kernel)

/-- The heartbeat falls between the read and the write of the release, and is lost. -/
theorem node_update_lost :
    (∀ i < 2, ((overlapped [0, 0, 1, 1, 1, 1, 0, 0, 0]).threads i).returned = true) ∧
      ∀ order : List ℕ, order.Perm (List.range 2) →
        overlappedNode [0, 0, 1, 1, 1, 1, 0, 0, 0] ≠ sequenceNode order := by
  refine ⟨by decide +kernel, fun order hperm => ?_⟩
  have hne : ∀ l ∈ (List.range 2).permutations',
      overlappedNode [0, 0, 1, 1, 1, 1, 0, 0, 0] ≠ sequenceNode l := by decide +kernel
  exact hne order (List.mem_permutations'.mpr hperm)

end Orchestrator
