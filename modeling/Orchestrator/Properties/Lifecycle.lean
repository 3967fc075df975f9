/-
# The life of a workload

A workload that is marked as terminating is on its way out: the control plane never makes it
pending or running again.  A report can: reports carry no generation, and a runner that has
polled the creation of a workload before it was marked still starts it and reports it as
running.  Without such a late report the workload stays terminating or failed until it is
removed.
-/
import Orchestrator.System

namespace Orchestrator

open Lib

variable {env : Env} {o : Config} {S : Resource → Prop} {w w' : World}

/-- The workload with the `j`-th id, if it is stored, is terminating or failed. -/
structure Leaving (env : Env) (j : ℕ) (w : World) : Prop where
  drawn : j < w.tick
  status : ∀ v ∈ w.workloads.rows, v.id = env.workloadID j →
    v.status = .terminating ∨ v.status = .failed

/-- No action brings a leaving workload back. -/
lemma Ctl.leaving (hids : Function.Injective env.workloadID) {j : ℕ} (h : Ctl env S w w')
    (hw : Leaving env j w) : Leaving env j w' := by
  refine ⟨hw.drawn.trans_le h.tick_le, ?_⟩
  intro v hv hid
  rcases h.workload_cases hv with ⟨u, hu, hr⟩ | ⟨d, -, -, n, -, -, k, hk, htick, -⟩
  · have hst := hw.status u hu (hr.fields.1.symm.trans hid)
    cases hr with
    | same => exact hst
    | mark now _ _ => exact Or.inl rfl
    | unlive now hrun => exact Or.inr rfl
  · have hkj : k = j := hids (hk.symm.trans hid)
    have hj := hw.drawn
    omega

lemma Leaving.of_eq {j : ℕ} (hw : Leaving env j w) (hW : w'.workloads = w.workloads)
    (ht : w.tick ≤ w'.tick) : Leaving env j w' := by
  refine ⟨hw.drawn.trans_le ht, ?_⟩
  rw [hW]
  exact hw.status

/-- If the event reports on this workload, it reports that it has failed, that it is still
terminating, or that it is gone. -/
def Event.Final (id : String) (e : Event) (s : Sys) : Prop :=
  ∀ status, e.reports s = some (id, status) →
    status = .failed ∨ status = .terminating ∨ status = .terminated

lemma Caused.leaving (hids : Function.Injective env.workloadID) {j : ℕ} {s : Sys} {e : Event}
    (he : e.Final (env.workloadID j) s) (h : Caused env S s e w') (hs : Leaving env j s.world) :
    Leaving env j w' := by
  have hctl : ∀ {w w' : World}, Ctl env S w w' → Leaving env j w → Leaving env j w' :=
    fun h hw => h.leaving hids hw
  cases h with
  | actions h => exact Chain.invariant hctl h hs
  | registered node _ w₁ h hc =>
    obtain ⟨health, seen, h⟩ := h
    exact Chain.invariant hctl hc (hs.of_eq h.workloads h.tick)
  | beat node _ h =>
    obtain ⟨n, health, seen, -, h⟩ := h
    exact hs.of_eq h.workloads h.tick
  | reported id status hrep h =>
    rcases h with ⟨-, rfl⟩ | ⟨u, hu, ⟨hst, hmem, cid, now, h⟩ | ⟨-, w₁, ⟨-, seen, h⟩, hc⟩⟩
    · exact hs
    · -- a report on this workload writes a final status, one on another does not touch it
      refine ⟨hs.drawn.trans_le h.tick, ?_⟩
      intro v hv hid
      rw [h.workloads, Table.mem_rows_put] at hv
      rcases hv with rfl | ⟨hv, -⟩
      · have hid' : id = env.workloadID j := (Table.key_of_get hu).symm.trans hid
        rw [hid'] at hrep
        rcases he status hrep with hfin | hfin | hfin
        · exact Or.inr hfin
        · exact Or.inl hfin
        · exact absurd hfin hst
      · exact hs.status v hv hid
    · refine Chain.invariant hctl hc.chain ⟨hs.drawn.trans_le h.tick, ?_⟩
      intro v hv hid
      rw [h.workloads, Table.mem_rows_del] at hv
      exact hs.status v hv.1 hid
  | configured settings _ h =>
    subst h
    exact hs.of_eq rfl le_rfl

/-- **A terminating workload does not come back**, unless a report says so: along every run
from a state in which the workload is terminating, in which no report calls it pending or
running, it is terminating or failed as long as it is stored. -/
theorem terminating_stays (hids : Function.Injective env.workloadID) {s s' : Sys}
    (h : Runs (Sys.step env o) Event.Any Sys.init s) {v v' : Workload}
    (hv : v ∈ s.world.workloads.rows) (hst : v.status = .terminating)
    (h' : Runs (Sys.step env o) (Event.Final v.id) s s') (hv' : v' ∈ s'.world.workloads.rows)
    (hid : v'.id = v.id) : v'.status = .terminating ∨ v'.status = .failed := by
  obtain ⟨j, hj, hvj⟩ := (Runs.drawn h).workloads v hv
  have hstart : Leaving env j s.world := by
    refine ⟨hj, ?_⟩
    intro u hu huid
    obtain rfl : u = v := Table.eq_of_mem_of_key_eq hu hv (huid.trans hvj.symm)
    exact Or.inl hst
  have hend : Leaving env j s'.world := by
    refine h'.invariant (I := fun x => Leaving env j x.world) hstart ?_
    intro e x hI he
    rw [hvj] at he
    exact (Sys.caused_any x e).leaving hids he hI
  exact hend.status v' hv' (hid.trans hvj)

/-- The runner has polled the creation of the workload when its node is drained. -/
def drainRun : List Event := webRun ++ [.poll "n1" 10, .drainNode "n1"]

/-- The next assignment that the runner processes is still the creation. -/
def lateStart : Event := .work "n1" 3 willingRuntime

/-- The runtime fails to start anything. -/
def failedStart : Event := .work "n1" 3 { willingRuntime with started := fun _ => none }

theorem terminating_stays_failed : ∃ s s' : Sys, ∃ v ∈ s.world.workloads.rows,
    ∃ v' ∈ s'.world.workloads.rows, Runs (Sys.step steadyEnv plainConfig) Event.Any Sys.init s ∧
      v.status = .terminating ∧
      Runs (Sys.step steadyEnv plainConfig) (Event.Final v.id) s s' ∧ v'.id = v.id ∧
      v'.status ≠ v.status ∧ (v'.status = .terminating ∨ v'.status = .failed) := by
  have hrun : Runs (Sys.step steadyEnv plainConfig) Event.Any Sys.init _ :=
    Runs.of_list drainRun (admissible_any drainRun Sys.init)
  have hreport : failedStart.reports (after (Sys.step steadyEnv plainConfig) drainRun Sys.init) =
      some (steadyEnv.workloadID 8, .failed) := by
    decide +kernel
  have hfail : ∃ v ∈ (after (Sys.step steadyEnv plainConfig) drainRun Sys.init).world.workloads.rows,
      ∃ v' ∈ ((after (Sys.step steadyEnv plainConfig) drainRun Sys.init).step steadyEnv plainConfig
        failedStart).world.workloads.rows,
      v.status = .terminating ∧ v'.id = v.id ∧ v'.status ≠ v.status := by
    decide +kernel
  obtain ⟨v, hv, v', hv', hst, hid, hne⟩ := hfail
  have hfinal : failedStart.Final v.id
      (after (Sys.step steadyEnv plainConfig) drainRun Sys.init) := by
    intro status h
    rw [hreport] at h
    exact Or.inl (Prod.mk.inj (Option.some.inj h)).2.symm
  have hrun' : Runs (Sys.step steadyEnv plainConfig) (Event.Final v.id) _ _ :=
    Runs.refl.tail failedStart hfinal
  exact ⟨_, _, v, hv, v', hv', hrun, hst, hrun', hid, hne,
    terminating_stays steadyEnv_ids hrun hv hst hrun' hv' hid⟩

/-- A late report makes a terminating workload run again. -/
theorem terminating_runs_again : ∃ s : Sys, ∃ v ∈ s.world.workloads.rows,
    ∃ v' ∈ (s.step steadyEnv plainConfig lateStart).world.workloads.rows,
      Runs (Sys.step steadyEnv plainConfig) Event.Any Sys.init s ∧ v.status = .terminating ∧
      v'.id = v.id ∧ v'.status = .running := by
  have hrun : Runs (Sys.step steadyEnv plainConfig) Event.Any Sys.init _ :=
    Runs.of_list drainRun (admissible_any drainRun Sys.init)
  have hback : ∃ v ∈ (after (Sys.step steadyEnv plainConfig) drainRun Sys.init).world.workloads.rows,
      ∃ v' ∈ ((after (Sys.step steadyEnv plainConfig) drainRun Sys.init).step steadyEnv plainConfig
        lateStart).world.workloads.rows,
      v.status = .terminating ∧ v'.id = v.id ∧ v'.status = .running := by
    decide +kernel
  obtain ⟨v, hv, v', hv', h⟩ := hback
  exact ⟨_, v, hv, v', hv', hrun, h⟩

end Orchestrator
