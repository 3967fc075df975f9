/-
# Deletion

What holds when deployments are deleted and every operation runs without interruption.  The
controller removes a deployment record only when no workload of it is stored any more;
workload records leave the store only through a report of their termination or through
preemption; and a deployment that is marked for deletion gets no new workload.

The first two are statements about the single calls of a run: what holds at the moment a
record is removed.
-/
import Orchestrator.System

namespace Orchestrator

open Lib

variable {env : Env} {o : Config} {S : Resource → Prop} {w w' : World} {d d' : Deployment}

/-! ### No record is stored as terminated -/

/-- No workload is stored as terminated. -/
def Unterminated (w : World) : Prop := ∀ v ∈ w.workloads.rows, v.status ≠ .terminated

lemma exec_unterminated {R : String → Prop} {c : Call} (hG : Guard (planeRules S R) c w)
    (h : Unterminated w) : Unterminated (exec env c w).2 := by
  intro v hv
  rcases exec_mem (t := .workload) nofun hv with hv | ⟨u, rfl, rfl⟩
  · exact h v hv
  · exact hG.1

/-- The program of an event, with what is known at each of its calls. -/
lemma Event.program_calls {s : Sys} (e : Event) (hs : Unterminated s.world) :
    Prog.Sat (exec env)
      (fun c w => Guard (planeRules (fun _ => True) (e.Terminates s)) c w ∧ Unterminated w)
      (e.program o s) s.world fun _ w' => Unterminated w' := by
  have hp : Holds env (planeRules (fun _ => True) (e.Terminates s)) (e.program o s) s.world _ :=
    Event.program_holds (fun _ _ => trivial) (asks_true e)
  exact (hp.keep (fun _ _ hG => exec_unterminated hG) hs).mono fun _ _ h => h.2

lemma Sys.step_unterminated {s : Sys} (e : Event) (hs : Unterminated s.world) :
    Unterminated (s.step env o e).world := by
  by_cases he : ∃ settings, e = .configure settings
  · obtain ⟨settings, rfl⟩ := he
    exact hs
  · rw [not_exists] at he
    rw [Sys.step_world he]
    exact (Event.program_calls e hs).run

lemma Runs.unterminated {s : Sys} (h : Runs (Sys.step env o) Event.Any Sys.init s) :
    Unterminated s.world :=
  h.invariant (I := fun s => Unterminated s.world) (fun _ hv => by cases hv)
    fun e _ hI _ => Sys.step_unterminated e hI

/-! ### How a record leaves the store -/

/-- A call after which the record of a workload is gone has deleted it, alone or with its
deployment. -/
lemma exec_drops {c : Call} {v : Workload} (hv : v ∈ w.workloads.rows)
    (h : (exec env c w).2.workloads.get v.id = none) :
    c = .del .workload v.id ∨ c = .deleteDeployment v.deploymentID := by
  by_contra hne
  obtain ⟨hdel, hcascade⟩ := not_or.mp hne
  by_cases hc : ∃ id, c = .deleteDeployment id
  · obtain ⟨id, rfl⟩ := hc
    change (w.store.deleteDeployment id .workload).get v.id = none at h
    rw [Store.deleteDeployment, Store.set_self, Table.get_eq_none_iff] at h
    refine h v (Table.mem_rows_delWhere.mpr ⟨hv, decide_eq_false ?_⟩) rfl
    rintro rfl
    exact hcascade rfl
  · have hget : w.workloads.get v.id = some v := Table.get_of_mem hv
    have hstays : ((exec env c w).2.workloads.get v.id).isSome = true :=
      exec_stays (by decide) (by decide) (Option.isSome_of_eq_some hget) hdel fun id hid => absurd ⟨id, hid⟩ hc
    rw [h] at hstays
    cases hstays

/-! ### No new workloads -/

lemma DepChange.deletionTimestamp_ne (h : DepChange S d d') (hd : d.deletionTimestamp ≠ none) :
    d'.deletionTimestamp ≠ none := by
  have hcore : ∀ c : DepCore, d'.core = c.viaJSON → d'.deletionTimestamp = c.deletionTimestamp :=
    fun c hc => congrArg DepCore.deletionTimestamp hc
  cases h with
  | touch h =>
    rcases h with h | h <;> rw [hcore _ h] <;> exact hd
  | rollback d₀ h₀ rev target now ht h =>
    rw [hcore _ h]
    rcases h₀ with rfl | rfl <;> exact hd
  | scale replicas h =>
    rw [hcore _ h]
    exact hd
  | update next now hS h =>
    rw [hcore _ h, Deployment.updatedTo]
    split <;> exact hd
  | mark now h =>
    rw [hcore _ h]
    exact Option.some_ne_none now

/-- The deployment with the `k`-th id is marked or gone, and its workloads are among those
that were stored in `w₀`. -/
structure Doomed (env : Env) (k : ℕ) (w₀ w : World) : Prop where
  drawn : k < w.tick
  marked : ∀ d ∈ w.deps.rows, d.id = env.deploymentID k → d.deletionTimestamp ≠ none
  known : ∀ v ∈ w.workloads.rows, v.deploymentID = env.deploymentID k →
    ∃ u ∈ w₀.workloads.rows, u.id = v.id ∧ u.deploymentID = env.deploymentID k

lemma Ctl.doomed (hids : Function.Injective env.deploymentID) {k : ℕ} {w₀ : World}
    (h : Ctl env S w w') (hw : Doomed env k w₀ w) : Doomed env k w₀ w' where
  drawn := hw.drawn.trans_le h.tick_le
  marked d hd hid := by
    rcases h.dep_cases hd with hd | ⟨e, he, hch⟩ | ⟨spec, j, -, -, hj, -, rfl⟩
    · exact hw.marked d hd hid
    · exact hch.deletionTimestamp_ne (hw.marked e he (hch.id_eq.symm.trans hid))
    · have hjk : j = k := hids hid
      have hk := hw.drawn
      omega
  known v hv hid := by
    rcases h.workload_cases hv with ⟨u, hu, hr⟩ | ⟨e, he, hlive, n, -, hrep, -⟩
    · obtain ⟨hvu, -, -, hdep, -⟩ := hr.fields
      obtain ⟨x, hx, hxu, hxid⟩ := hw.known u hu (hdep.symm.trans hid)
      exact ⟨x, hx, hxu.trans hvu.symm, hxid⟩
    · exact absurd hlive (hw.marked e he (hrep.deploymentID.symm.trans hid))

lemma Doomed.of_workloads {k : ℕ} {w₀ : World} (hw : Doomed env k w₀ w) (hD : w'.deps = w.deps)
    (ht : w.tick ≤ w'.tick) (hW : ∀ v ∈ w'.workloads.rows, ∃ u ∈ w.workloads.rows,
      u.id = v.id ∧ u.deploymentID = v.deploymentID) : Doomed env k w₀ w' where
  drawn := hw.drawn.trans_le ht
  marked := by
    rw [hD]
    exact hw.marked
  known v hv hid := by
    obtain ⟨u, hu, huid, hdep⟩ := hW v hv
    obtain ⟨x, hx, hxu, hxid⟩ := hw.known u hu (hdep.trans hid)
    exact ⟨x, hx, hxu.trans huid, hxid⟩

lemma Caused.doomed (hids : Function.Injective env.deploymentID) {k : ℕ} {w₀ : World} {s : Sys}
    {e : Event} (h : Caused env S s e w') (hs : Doomed env k w₀ s.world) : Doomed env k w₀ w' := by
  refine h.invariant (I := Doomed env k w₀) (fun h hw => h.doomed hids hw) ?_ ?_ ?_ hs
  · intro w w' hD hW ht hw
    refine hw.of_workloads hD ht ?_
    rw [hW]
    exact fun v hv => ⟨v, hv, rfl, rfl⟩
  · intro u status w w' _ h hw
    exact hw.of_workloads h.deps h.tick_le h.known
  · intro u w w' h hw
    exact hw.of_workloads h.deps h.tick_le h.known

/-! ### Runs -/

/-- The workload with the `j`-th id, if there is one, belongs to the given deployment. -/
structure Belongs (env : Env) (j : ℕ) (deploymentID : String) (w : World) : Prop where
  drawn : j < w.tick
  belongs : ∀ v ∈ w.workloads.rows, v.id = env.workloadID j → v.deploymentID = deploymentID

lemma Caused.belongs (hids : Function.Injective env.workloadID) {j : ℕ} {id : String} {s : Sys}
    {e : Event} (h : Caused env S s e w') (hs : Belongs env j id s.world) : Belongs env j id w' := by
  have hold : ∀ {w w' : World}, w.tick ≤ w'.tick → (∀ v ∈ w'.workloads.rows,
      ∃ x ∈ w.workloads.rows, x.id = v.id ∧ x.deploymentID = v.deploymentID) →
      Belongs env j id w → Belongs env j id w' := by
    intro w w' ht hW hw
    refine ⟨hw.drawn.trans_le ht, ?_⟩
    intro v hv hid
    obtain ⟨x, hx, hxv, hdep⟩ := hW v hv
    exact hdep.symm.trans (hw.belongs x hx (hxv.trans hid))
  refine h.invariant (I := Belongs env j id) ?_ ?_ ?_ ?_ hs
  · intro w w' h hw
    refine ⟨hw.drawn.trans_le h.tick_le, ?_⟩
    intro v hv hid
    rcases h.workload_cases hv with ⟨u, hu, hr⟩ | ⟨d, -, -, n, -, -, k, hk, htick, -⟩
    · obtain ⟨hvu, -, -, hdep, -⟩ := hr.fields
      exact hdep.trans (hw.belongs u hu (hvu.symm.trans hid))
    · have hkj : k = j := hids (hk.symm.trans hid)
      have hj := hw.drawn
      omega
  · intro w w' _ hW ht
    refine hold ht ?_
    rw [hW]
    exact fun v hv => ⟨v, hv, rfl, rfl⟩
  · intro u status w w' _ h
    exact hold h.tick_le h.known
  · intro u w w' h
    exact hold h.tick_le h.known

/-- **Finalizer safety.** At each call of each operation: when a deployment record is removed,
no workload of it is stored; when a workload record goes, the operation reports the
workload as terminated or a stored deployment outranks it; when a workload record is
stored that was not there, its deployment is stored and not marked for deletion.  And
along every run a deployment that is marked gets no new workload, and a workload stays
with its deployment, as long as no id is drawn twice. -/
theorem finalizer_safety {s : Sys} (h : Runs (Sys.step env o) Event.Any Sys.init s) :
    (∀ e : Event, ∀ x ∈ (e.program o s).calls (exec env) s.world,
      (∀ id, x.1 = .deleteDeployment id → ∀ v ∈ x.2.workloads.rows, v.deploymentID ≠ id) ∧
      (∀ v ∈ x.2.workloads.rows, (exec env x.1 x.2).2.workloads.get v.id = none →
        e.Terminates s v.id ∨ Outranked v.id x.2) ∧
      (∀ v, x.1 = .put .workload v → x.2.workloads.get v.id = none →
        ∃ d ∈ x.2.deps.rows, d.id = v.deploymentID ∧ d.deletionTimestamp = none)) ∧
    (Function.Injective env.deploymentID → ∀ d ∈ s.world.deps.rows, d.deletionTimestamp ≠ none →
      ∀ s', Runs (Sys.step env o) Event.Any s s' → ∀ v ∈ s'.world.workloads.rows,
        v.deploymentID = d.id → ∃ u ∈ s.world.workloads.rows, u.id = v.id ∧
          u.deploymentID = d.id) ∧
    (Function.Injective env.workloadID → ∀ s', Runs (Sys.step env o) Event.Any s s' →
      ∀ v ∈ s.world.workloads.rows, ∀ v' ∈ s'.world.workloads.rows, v'.id = v.id →
        v'.deploymentID = v.deploymentID) := by
  refine ⟨?_, ?_, ?_⟩
  · intro e x hx
    obtain ⟨hG, hun⟩ := (Event.program_calls e (Runs.unterminated h)).calls x hx
    obtain ⟨c, w⟩ := x
    have hempty : ∀ id, c = .deleteDeployment id → ∀ v ∈ w.workloads.rows,
        v.deploymentID ≠ id := by
      rintro id rfl v hv hid
      exact hun v hv (hG v hv hid)
    refine ⟨hempty, ?_, ?_⟩
    · intro v hv hgone
      rcases exec_drops hv hgone with rfl | rfl
      · exact hG
      · exact absurd rfl (hempty _ rfl v hv)
    · rintro v rfl hnew
      rcases hG.2 with ⟨u, hu, hid, -⟩ | hlive
      · exact absurd hid.symm (Table.get_eq_none_iff.mp hnew u hu)
      · exact hlive
  · intro hids d hd hmark s' h' v hv hid
    obtain ⟨k, hk, hdk⟩ := (Runs.drawn h).deployments d hd
    have hstart : Doomed env k s.world s.world := by
      refine ⟨hk, ?_, fun v hv hid => ⟨v, hv, rfl, hid⟩⟩
      intro e he heid
      obtain rfl : e = d := Table.eq_of_mem_of_key_eq he hd (heid.trans hdk.symm)
      exact hmark
    have hend : Doomed env k s.world s'.world :=
      h'.invariant (I := fun x => Doomed env k s.world x.world) hstart
        fun e x hI _ => (Sys.caused_any x e).doomed hids hI
    rw [hdk] at hid ⊢
    exact hend.known v hv hid
  · intro hids s' h' v hv v' hv' hid
    obtain ⟨j, hj, hvj⟩ := (Runs.drawn h).workloads v hv
    have hstart : Belongs env j v.deploymentID s.world := by
      refine ⟨hj, ?_⟩
      intro u hu huid
      obtain rfl : u = v := Table.eq_of_mem_of_key_eq hu hv (huid.trans hvj.symm)
      rfl
    have hend : Belongs env j v.deploymentID s'.world :=
      h'.invariant (I := fun x => Belongs env j v.deploymentID x.world) hstart
        fun e x hI _ => (Sys.caused_any x e).belongs hids hI
    exact hend.belongs v' hv' (hid.trans hvj)

/-- A deployment is created and deleted, and its workload terminates. -/
def deletionRun : List Event :=
  webRun ++ [.deleteDeployment (steadyEnv.deploymentID 5), .reconcileAll,
    .report (steadyEnv.workloadID 8) .terminated ""]

/-- The call that removes the record of a deployment. -/
def Call.removes (id : String) : Call → Bool
  | .deleteDeployment id' => id' = id
  | _ => false

lemma Call.eq_of_removes {id : String} {c : Call} (h : c.removes id = true) :
    c = .deleteDeployment id := by
  cases c with
  | deleteDeployment id' =>
    have hid : id' = id := of_decide_eq_true h
    rw [hid]
  | _ => cases h

theorem finalizer_safety_deleted : ∃ s : Sys, ∃ x ∈ (Event.reconcileAll.program plainConfig s).calls
      (exec steadyEnv) s.world,
    Runs (Sys.step steadyEnv plainConfig) Event.Any Sys.init s ∧
      x.1 = .deleteDeployment (steadyEnv.deploymentID 5) ∧
      ∀ v ∈ x.2.workloads.rows, v.deploymentID ≠ steadyEnv.deploymentID 5 := by
  have hrun : Runs (Sys.step steadyEnv plainConfig) Event.Any Sys.init _ :=
    Runs.of_list deletionRun (admissible_any deletionRun Sys.init)
  have hany : ((Event.reconcileAll.program plainConfig
      (after (Sys.step steadyEnv plainConfig) deletionRun Sys.init)).calls (exec steadyEnv)
      (after (Sys.step steadyEnv plainConfig) deletionRun Sys.init).world).any
      (fun x => x.1.removes (steadyEnv.deploymentID 5)) = true := by
    decide +kernel
  obtain ⟨x, hx, hcall⟩ := List.any_eq_true.mp hany
  have hrem := Call.eq_of_removes hcall
  exact ⟨_, x, hx, hrun, hrem, ((finalizer_safety hrun).1 _ x hx).1 _ hrem⟩

end Orchestrator
