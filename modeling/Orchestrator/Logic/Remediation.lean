/-
# What remediation enqueues

A node that becomes critical is drained: each of its pending and running workloads is marked
as terminating, and the deletion of each is enqueued.  `Evacuated D w w' L` says that on the
way from `w` to `w'`, with the assignments `L` enqueued, this happened to the workloads in
`D`, once to each, and to no other; it is kept by sequencing.
-/
import Orchestrator.Logic.Throughout

namespace Orchestrator

open Lib

variable {env : Env} {o : Config} {α β : Type} {w w₁ w₂ w' : World} {L L' : List Assignment}

/-! ### Enqueued assignments -/

/-- The assignment that a call enqueues. -/
def Call.enqueues : Call → Option Assignment
  | .put .assignment a => some a
  | _ => none

/-- The assignments that a run enqueues, in order. -/
def enqueued (env : Env) (p : M α) (w : World) : List Assignment :=
  (p.calls (exec env) w).filterMap fun x => x.1.enqueues

/-- The run of `p` from `w` returns `a` in `w'`, and enqueues `L`. -/
structure Emits (env : Env) (p : M α) (w : World) (a : α) (w' : World) (L : List Assignment) :
    Prop where
  run : p.run (exec env) w = (.ok a, w')
  enqueued : enqueued env p w = L

namespace Emits

lemma pure (a : α) : Emits env (Pure.pure a) w a w [] := ⟨rfl, rfl⟩

lemma bind {p : M α} {f : α → M β} {a : α} {b : β} (hp : Emits env p w a w₁ L)
    (hf : Emits env (f a) w₁ b w₂ L') : Emits env (p >>= f) w b w₂ (L ++ L') := by
  have hres : p.result (exec env) w = .ok a := congrArg Prod.fst hp.run
  have hfin : p.final (exec env) w = w₁ := congrArg Prod.snd hp.run
  refine ⟨(Prog.run_bind_ok _ hp.run).trans hf.run, ?_⟩
  have hcalls : (p >>= f).calls (exec env) w =
      p.calls (exec env) w ++ (f a).calls (exec env) w₁ := by
    rw [Prog.calls_bind, hres, hfin]
  rw [Orchestrator.enqueued, hcalls, List.filterMap_append]
  exact congrArg₂ _ hp.enqueued hf.enqueued

/-- A call that enqueues nothing. -/
lemma ask {c : Call} (hc : c.enqueues = none) :
    Emits env (ask c) w (exec env c w).1 (exec env c w).2 [] :=
  ⟨rfl, List.filterMap_cons_none hc⟩

end Emits

/-! ### Evacuated workloads -/

/-- The workload takes part: it is pending or running. -/
def Workload.Live (v : Workload) : Prop := v.status = .running ∨ v.status = .pending

/-- The assignment deletes the workload. -/
def Assignment.deletes (id : String) (a : Assignment) : Bool :=
  decide (a.action = .delete ∧ a.workloadID = id)

/-- The live workloads in `D` have been marked as terminating, with one deletion of each
enqueued, and the others are untouched. -/
structure Evacuated (D : Workload → Prop) (w w' : World) (L : List Assignment) : Prop where
  hit : ∀ v ∈ w.workloads.rows, D v → v.Live → L.countP (Assignment.deletes v.id) = 1 ∧
    ∃ u, w'.workloads.get v.id = some u ∧ u.status = .terminating ∧ u.nodeID = v.nodeID
  miss : ∀ id, (∀ v ∈ w.workloads.rows, v.id = id → D v → ¬ v.Live) →
    L.countP (Assignment.deletes id) = 0 ∧ w'.workloads.get id = w.workloads.get id

namespace Evacuated

variable {D D' : Workload → Prop}

lemma of_workloads (h : w'.workloads = w.workloads) : Evacuated (fun _ => False) w w' [] where
  hit _ _ h := h.elim
  miss _ _ := ⟨rfl, by rw [h]⟩

lemma congr (h : Evacuated D w w' L) (hD : ∀ v ∈ w.workloads.rows, v.Live → (D v ↔ D' v)) :
    Evacuated D' w w' L where
  hit v hv hD' hlive := h.hit v hv ((hD v hv hlive).mpr hD') hlive
  miss id hid := h.miss id fun v hv hvid hDv hlive =>
    hid v hv hvid ((hD v hv hlive).mp hDv) hlive

/-- A workload that is marked already is not marked again, one that is not stays as it is. -/
lemma trans (h : Evacuated D w w₁ L) (h' : Evacuated D' w₁ w₂ L') :
    Evacuated (fun v => D v ∨ D' v) w w₂ (L ++ L') := by
  refine ⟨fun v hv hD hlive => ?_, fun id hid => ?_⟩ <;> rw [List.countP_append]
  · have hget : w.workloads.get v.id = some v := Table.get_of_mem hv
    by_cases hDv : D v
    · obtain ⟨hcount, u, hu, hstatus, hnode⟩ := h.hit v hv hDv hlive
      have hmiss := h'.miss v.id fun x hx hid _ hx' => by
        obtain rfl : x = u :=
          Option.some.inj ((Table.get_of_mem hx).symm.trans ((congrArg _ hid).trans hu))
        rcases hx' with hx' | hx' <;> rw [hstatus] at hx' <;> cases hx'
      exact ⟨by rw [hcount, hmiss.1], u, hmiss.2.trans hu, hstatus, hnode⟩
    · obtain ⟨hcount, hsame⟩ := h.miss v.id fun x hx hid hDx => by
        obtain rfl : x = v := Table.eq_of_mem_of_key_eq hx hv hid
        exact absurd hDx hDv
      have hv₁ : v ∈ w₁.workloads.rows := Table.mem_of_get (hsame.trans hget)
      obtain ⟨hcount', hu⟩ := h'.hit v hv₁ (hD.resolve_left hDv) hlive
      exact ⟨by rw [hcount, hcount'], hu⟩
  · obtain ⟨hcount, hsame⟩ := h.miss id fun v hv hvid hD => hid v hv hvid (.inl hD)
    obtain ⟨hcount', hsame'⟩ := h'.miss id fun v hv hvid hD' => by
      have hget : w.workloads.get id = some v := by
        rw [← hsame, ← hvid]
        exact Table.get_of_mem hv
      exact hid v (Table.mem_of_get hget) hvid (.inr hD')
    exact ⟨by rw [hcount, hcount'], hsame'.trans hsame⟩

end Evacuated

/-! ### Remediation -/

lemma terminateWorkload_emits (env : Env) {v : Workload} (hv : v ∈ w.workloads.rows) (hlive : v.Live) :
    ∃ w' L, Emits env (terminateWorkload v) w () w' L ∧ w'.nodes = w.nodes ∧
      Evacuated (· = v) w w' L := by
  -- the marked record, and the assignment with the id that it gets
  let u : Workload := { v with status := .terminating, updatedAt := env.clock w.tick }
  let a : Assignment := { deleteAssignment v with id := assignmentID v.id (env.clock (w.tick + 1)) }
  let w' := (exec env (.put .assignment a) (exec env .now (exec env (.put .workload u)
    (exec env .now w).2).2).2).2
  have hW : w'.workloads = w.workloads.put u := rfl
  refine ⟨w', [a], ⟨rfl, rfl⟩, rfl, ?_⟩
  have hdel : Assignment.deletes v.id a = true := decide_eq_true ⟨rfl, rfl⟩
  refine ⟨?_, fun id hid => ?_⟩
  · rintro _ - rfl -
    exact ⟨by rw [List.countP_singleton, if_pos hdel], u,
      by rw [hW]; exact Table.get_put_self _ u, rfl, rfl⟩
  · have hne : id ≠ v.id := fun h => hid v hv h.symm rfl hlive
    refine ⟨?_, ?_⟩
    · rw [List.countP_singleton, if_neg]
      exact fun h => hne (of_decide_eq_true h).2.symm
    · rw [hW]
      exact Table.get_put_of_ne _ hne

/-- The workloads of a list are marked one by one. -/
lemma terminateEach_emits (env : Env) (n : String) (l : List Workload) (hl : (l.map Workload.id).Nodup)
    (hw : ∀ v ∈ l, v ∈ w.workloads.rows) :
    ∃ w' L, Emits env (Prog.forEach l fun v =>
        if v.nodeID = n ∧ (v.status = .running ∨ v.status = .pending) then terminateWorkload v
        else pure ()) w () w' L ∧
      w'.nodes = w.nodes ∧ Evacuated (fun v => v ∈ l ∧ v.nodeID = n) w w' L := by
  induction l generalizing w with
  | nil =>
    refine ⟨w, [], .pure (), rfl, (Evacuated.of_workloads rfl).congr fun v _ _ => ?_⟩
    simp
  | cons v l ih =>
    rw [List.map_cons, List.nodup_cons] at hl
    -- the first workload
    obtain ⟨w₁, L, hfirst, hn, hev⟩ : ∃ w₁ L, Emits env (if v.nodeID = n ∧
        (v.status = .running ∨ v.status = .pending) then terminateWorkload v else pure ())
        w () w₁ L ∧ w₁.nodes = w.nodes ∧ Evacuated (fun u => u = v ∧ u.nodeID = n) w w₁ L := by
      by_cases hv : v.nodeID = n ∧ (v.status = .running ∨ v.status = .pending)
      · rw [if_pos hv]
        obtain ⟨w₁, L, he, hn, hev⟩ := terminateWorkload_emits env
          (hw v List.mem_cons_self) hv.2
        refine ⟨w₁, L, he, hn, hev.congr fun u _ _ => ?_⟩
        exact ⟨fun h => ⟨h, h ▸ hv.1⟩, fun h => h.1⟩
      · rw [if_neg hv]
        refine ⟨w, [], .pure (), rfl, (Evacuated.of_workloads rfl).congr fun u _ hu => ?_⟩
        refine ⟨False.elim, ?_⟩
        rintro ⟨rfl, hn⟩
        exact hv ⟨hn, hu⟩
    -- the others are still there
    have hrest : ∀ u ∈ l, u ∈ w₁.workloads.rows := by
      intro u hu
      have hne : v.id ≠ u.id := fun h => hl.1 (h ▸ List.mem_map_of_mem hu)
      have hmem := hw u (List.mem_cons_of_mem _ hu)
      have hmiss := (hev.miss u.id fun x hx hid hxv => absurd (hxv.1 ▸ hid) hne).2
      exact Table.mem_of_get (hmiss.trans (Table.get_of_mem hmem))
    obtain ⟨w₂, L', hothers, hn', hev'⟩ := ih hl.2 hrest
    refine ⟨w₂, L ++ L', hfirst.bind hothers, hn'.trans hn, (hev.trans hev').congr fun u _ _ => ?_⟩
    rw [List.mem_cons, or_and_right]

lemma remediate_emits (env : Env) (n : String) (w : World) : ∃ w' L,
    Emits env (remediateUnhealthyNode n) w () w' L ∧ w'.nodes = w.nodes ∧
      Evacuated (fun v => v.nodeID = n) w w' L := by
  have hlist : w.store.list .workload "" = w.workloads.rows := if_pos rfl
  obtain ⟨w', L, he, hn, hev⟩ := terminateEach_emits env n w.workloads.rows
    w.workloads.nodup_keys fun _ h => h
  have hread : Emits env StateStore.listWorkloads w (w.store.list .workload "") w [] :=
    Emits.ask rfl
  rw [hlist] at hread
  exact ⟨w', L, hread.bind he, hn, hev.congr fun v hv _ => and_iff_right hv⟩

/-! ### The health pass -/

/-- The evaluation moves the node into the class critical. -/
def BecomesCritical (o : Config) (now : Time) (n : Node) : Prop :=
  (evaluateNode o now n).health.failureClass = .critical ∧ n.health.failureClass ≠ .critical

lemma upsertNode_dated {m : Node} (hm : m.lastSeen.isZero = false) :
    StateStore.upsertNode m = ask (.put .node m) := by
  unfold StateStore.upsertNode orNow
  rw [hm, if_neg Bool.false_ne_true]
  rfl

lemma updateOne_emits (env : Env) (o : Config) (now : Time) {n : Node}
    (hn : n.lastSeen.isZero = false) (w : World) :
    ∃ w' L, Emits env (updateOneNodeHealth o now n) w () w' L ∧
      w'.nodes = w.nodes.put (evaluateNode o now n) ∧
      Evacuated (fun v => v.nodeID = n.id ∧ BecomesCritical o now n) w w' L := by
  obtain ⟨status, health, he⟩ := evaluateNode_eq (o := o) now n
  have hid : (evaluateNode o now n).id = n.id := by rw [he]
  have hput : Emits env (StateStore.upsertNode (evaluateNode o now n)) w ()
      (exec env (.put .node (evaluateNode o now n)) w).2 [] := by
    rw [upsertNode_dated (by rw [he]; exact hn)]
    exact Emits.ask rfl
  have hsame : Evacuated (fun _ => False) w
      (exec env (.put .node (evaluateNode o now n)) w).2 [] := .of_workloads rfl
  unfold updateOneNodeHealth
  dsimp only
  split
  · next hcrit =>
    obtain ⟨w', L, hem, hnodes, hev⟩ := remediate_emits env (evaluateNode o now n).id
      (exec env (.put .node (evaluateNode o now n)) w).2
    refine ⟨w', [] ++ L, hput.bind hem, hnodes, (hsame.trans hev).congr fun v _ _ => ?_⟩
    rw [false_or, hid]
    exact (and_iff_left hcrit).symm
  · next hcrit =>
    refine ⟨_, [] ++ [], hput.bind (.pure ()), rfl, hsame.congr fun v _ _ => ?_⟩
    exact ⟨False.elim, fun h => hcrit h.2⟩

lemma stored_put {T : Table Node Node.id} {r : Node} {n : String} (m : Node) (hr : r ∈ T.rows)
    (hid : r.id = n) : ∃ r ∈ (T.put m).rows, r.id = n := by
  by_cases hm : m.id = n
  · exact ⟨m, Table.mem_rows_put.mpr (.inl rfl), hm⟩
  · exact ⟨r, Table.mem_rows_put.mpr (.inr ⟨hr, fun h => hm (h.symm.trans hid)⟩), hid⟩

/-- The nodes of the list have been evaluated. -/
structure Evaluated (o : Config) (now : Time) (l : List Node) (w w' : World) : Prop where
  record : ∀ x ∈ w'.nodes.rows, (x ∈ w.nodes.rows ∧ ∀ n ∈ l, x.id ≠ n.id) ∨
    ∃ n ∈ l, x = evaluateNode o now n
  stored : ∀ n ∈ w.nodes.rows, ∃ x ∈ w'.nodes.rows, x.id = n.id

lemma Evaluated.cons {now : Time} {n : Node} {l : List Node}
    (h : w₁.nodes = w.nodes.put (evaluateNode o now n)) (hl : Evaluated o now l w₁ w₂) :
    Evaluated o now (n :: l) w w₂ := by
  refine ⟨fun x hx => ?_, fun m hm => ?_⟩
  · rcases hl.record x hx with ⟨hx₁, hne⟩ | ⟨m, hm, rfl⟩
    · rw [h] at hx₁
      rcases Table.mem_rows_put.mp hx₁ with rfl | ⟨hxw, hid⟩
      · exact .inr ⟨n, List.mem_cons_self, rfl⟩
      · obtain ⟨status, health, he⟩ := evaluateNode_eq (o := o) now n
        rw [he] at hid
        exact .inl ⟨hxw, List.forall_mem_cons.mpr ⟨hid, hne⟩⟩
    · exact .inr ⟨m, List.mem_cons_of_mem _ hm, rfl⟩
  · obtain ⟨x, hx, hid⟩ := stored_put (evaluateNode o now n) hm rfl
    rw [← h] at hx
    obtain ⟨y, hy, hyx⟩ := hl.stored x hx
    exact ⟨y, hy, hyx.trans hid⟩

lemma updateEach_emits (env : Env) (o : Config) (now : Time) (l : List Node)
    (hl : ∀ n ∈ l, n.lastSeen.isZero = false)
    (w : World) : ∃ w' L, Emits env (Prog.forEach l (updateOneNodeHealth o now)) w () w' L ∧
      Evaluated o now l w w' ∧
      Evacuated (fun v => ∃ n ∈ l, v.nodeID = n.id ∧ BecomesCritical o now n) w w' L := by
  induction l generalizing w with
  | nil =>
    refine ⟨w, [], .pure (), ⟨fun x hx => .inl ⟨hx, by simp⟩, fun n hn => ⟨n, hn, rfl⟩⟩, ?_⟩
    exact (Evacuated.of_workloads rfl).congr fun v _ _ => by simp
  | cons n l ih =>
    rw [List.forall_mem_cons] at hl
    obtain ⟨w₁, L, hfirst, hnodes, hev⟩ := updateOne_emits env o now hl.1 w
    obtain ⟨w₂, L', hothers, hrec, hev'⟩ := ih hl.2 w₁
    refine ⟨w₂, L ++ L', hfirst.bind hothers, hrec.cons hnodes, ?_⟩
    exact (hev.trans hev').congr fun v _ _ => by simp

/-- **What a health pass does**: it evaluates every node, and evacuates those that have
become critical. -/
theorem updateNodeHealth_emits (env : Env) (o : Config)
    (hw : ∀ n ∈ w.nodes.rows, n.lastSeen.isZero = false) :
    ∃ w' L, Emits env (updateNodeHealth o) w () w' L ∧
      Evaluated o (env.clock w.tick) w.nodes.rows w w' ∧
      Evacuated (fun v => ∃ n ∈ w.nodes.rows, v.nodeID = n.id ∧
        BecomesCritical o (env.clock w.tick) n) w w' L := by
  have hlist : w.store.list .node "" = w.nodes.rows := if_pos rfl
  obtain ⟨w', L, he, hrec, hev⟩ :=
    updateEach_emits env o (env.clock w.tick) w.nodes.rows hw (exec env .now w).2
  have hread : Emits env StateStore.listNodes w (w.store.list .node "") w [] := Emits.ask rfl
  have hnow : Emits env timeNow w (env.clock w.tick) (exec env .now w).2 [] := Emits.ask rfl
  rw [hlist] at hread
  exact ⟨w', [] ++ ([] ++ L), hread.bind (hnow.bind he), ⟨hrec.record, hrec.stored⟩,
    ⟨hev.hit, hev.miss⟩⟩

end Orchestrator
