/-
# The system

The control plane together with its workers: the store, the runner on each node, and the
events that can happen (calls of the API, controller passes, heartbeats, polls, processed
assignments, reports, and changes to the tables that the control plane only reads or that
belong to other calls of the API).  A run takes one step for every event.

`Caused` says once what a step can do to the tables; the invariants are proved from it.
-/
import Mathlib
import Orchestrator.Lib.Decimal
import Orchestrator.Lib.Run
import Orchestrator.Logic.Workers

namespace Orchestrator

open Lib

/-- The state of the system. -/
structure Sys where
  world : World
  /-- The runner on each node. -/
  runner : String → Runner

/-- The system before anything has happened. -/
def Sys.init : Sys where
  world := { store := Store.empty, tick := 0 }
  runner nodeID := { nodeID := nodeID }

/-- What can happen. -/
inductive Event
  | registerNode (node : Node)
  | createDeployment (spec : DeploymentSpec)
  | updateDeployment (id : String) (next : DeploymentSpec)
  | rollbackDeployment (id : String) (revision : ℤ)
  | deleteDeployment (id : String)
  | reconcileAll
  | drainNode (id : String)
  | removeNode (id : String)
  | report (id : String) (status : WorkloadStatus) (containerID : String)
  /-- The runner on a node sends its own count. -/
  | heartbeat (node : String)
  /-- The runner on a node polls assignments. -/
  | poll (node : String) (max : ℤ)
  /-- The runner on a node processes the next assignment it has polled. -/
  | work (node : String) (retries : ℕ) (rt : RuntimeOutcome)
  /-- Other calls of the API: namespaces, quotas, secrets, volumes, services, policies,
  metrics, jobs and cron jobs become those of the given store. -/
  | configure (settings : Store)

/-- The tables that the events other than `configure` are about. -/
def Tbl.main : Tbl → Bool
  | .node | .deployment | .workload | .assignment => true
  | _ => false

/-- The other tables become those of `settings`. -/
def World.configure (w : World) (settings : Store) : World :=
  { w with store := fun t => if t.main then w.store t else settings t }

/-- The program that runs on an event, and the runners after it. -/
def Event.program (o : Config) (s : Sys) : Event → M (String → Runner)
  | .registerNode node => do (Orchestrator.registerNode o node).ignore; pure s.runner
  | .createDeployment spec => do (Orchestrator.createDeployment o spec).ignore; pure s.runner
  | .updateDeployment id next => do (Orchestrator.updateDeployment id next).ignore; pure s.runner
  | .rollbackDeployment id revision => do
      (Orchestrator.rollbackDeployment id revision).ignore; pure s.runner
  | .deleteDeployment id => do (Orchestrator.deleteDeployment id).ignore; pure s.runner
  | .reconcileAll => do (Orchestrator.reconcileAll o).ignore; pure s.runner
  | .drainNode id => do (Orchestrator.drainNode id).ignore; pure s.runner
  | .removeNode id => do (Orchestrator.removeNode id).ignore; pure s.runner
  | .report id status containerID => do
      (reportWorkloadStatus id status containerID).ignore; pure s.runner
  | .heartbeat node => do (s.runner node).heartbeat.ignore; pure s.runner
  | .poll node max => do
      let r ← (s.runner node).poll max
      pure (Function.update s.runner node r)
  | .work node retries rt => do
      let r ← (s.runner node).work retries rt
      pure (Function.update s.runner node r)
  | .configure _ => pure s.runner

/-- One step of the system. -/
def Sys.step (env : Env) (o : Config) (e : Event) (s : Sys) : Sys :=
  let w := (e.program o s).final (exec env) s.world
  { world := match e with
      | .configure settings => w.configure settings
      | _ => w
    runner := match (e.program o s).result (exec env) s.world with
      | .ok runner => runner
      | .error _ => s.runner }

/-- The workload and the status that an event reports. -/
def Event.reports (s : Sys) : Event → Option (String × WorkloadStatus)
  | .report id status _ => some (id, status)
  | .work node retries rt =>
    match (s.runner node).inbox with
    | [] => none
    | a :: _ => (Runner.verdict retries rt a).map fun v => (a.workloadID, v.1)
  | _ => none

/-- The event reports a workload as terminated. -/
def Event.Terminates (s : Sys) (e : Event) (id : String) : Prop :=
  e.reports s = some (id, .terminated)

/-- What the event asks for satisfies `S`: the resources of a specification, or those of the
jobs it stores. -/
def Event.Asks (S : Resource → Prop) : Event → Prop
  | .createDeployment spec => S spec.resources
  | .updateDeployment _ next => S next.resources
  | .configure settings => RequestsIn S { store := settings, tick := 0 }
  | _ => True

variable {env : Env} {o : Config} {S : Resource → Prop} {s : Sys} {e : Event} {w' : World}

/-- What an event does to the tables. -/
inductive Caused (env : Env) (S : Resource → Prop) (s : Sys) (e : Event) (w' : World) : Prop
  | actions (h : Chain env S s.world w')
  | registered (node : Node) (he : e = .registerNode node) (w₁ : World)
      (h : Registered node s.world w₁) (hc : Chain env S w₁ w')
  | beat (node : String) (he : e = .heartbeat node)
      (h : Beat (s.runner node).nodeID (s.runner node).used s.world w')
  | reported (id : String) (status : WorkloadStatus) (he : e.reports s = some (id, status))
      (h : Reported id status s.world w')
  | configured (settings : Store) (he : e = .configure settings)
      (h : w' = s.world.configure settings)

/-- The run of a program whose result does not matter. -/
lemma holds_ignore_then {α β : Type} {P : Rules} {w : World} {p : M α} {b : β}
    {Q : Except Err β → World → Prop} (hp : Holds env P p w fun _ w' => Q (.ok b) w') :
    Holds env P (p.ignore >>= fun _ => pure b) w Q :=
  Prog.Sat.bind_ok (R := fun _ w' => Q (.ok b) w')
    (Prog.Sat.ignore (hp.mono fun _ _ h => ⟨(), rfl, h⟩)) fun _ _ h => h

lemma Steers.caused {R : String → Prop} {α : Type} {p : M α}
    (hp : Steers env S R p s.world)
    (he : e.program o s = p.ignore >>= fun _ => pure s.runner) :
    Holds env (planeRules S R) (e.program o s) s.world fun _ w' =>
      (∀ settings, e ≠ .configure settings) → Caused env S s e w' := by
  rw [he]
  exact holds_ignore_then (hp.mono fun _ _ h _ => .actions h)

lemma steers_poll {R : String → Prop} {w : World} (r : Runner) (max : ℤ) :
    Steers env S R (r.poll max) w := by
  refine .bind (Prog.Sat.mono (popAssignments_returns _ _ w) ?_) fun _ _ => .stop _
  rintro _ w' ⟨_, -, A, he⟩
  exact .single (.quiet A he)

/-- Processing the next assignment does what its report does. -/
lemma work_holds (node : String) (retries : ℕ) (rt : RuntimeOutcome) :
    Holds env (planeRules S (Event.Terminates s (.work node retries rt)))
      ((s.runner node).work retries rt) s.world fun _ w' =>
        Caused env S s (.work node retries rt) w' := by
  unfold Runner.work
  cases hin : (s.runner node).inbox with
  | nil => exact Caused.actions .refl
  | cons a rest =>
    dsimp only
    rw [handle_eq]
    cases hv : Runner.verdict retries rt a with
    | none => exact Caused.actions .refl
    | some v =>
      obtain ⟨status, containerID⟩ := v
      have hrep : Event.reports s (.work node retries rt) = some (a.workloadID, status) := by
        simp [Event.reports, hin, hv]
      refine holds_ignore_then ((reportWorkloadStatus_holds _ _ _ ?_).mono ?_)
      · rintro rfl
        exact hrep
      · intro _ w' h
        exact .reported _ _ hrep h

/-- **The program of an event** obeys the rules and does what `Caused` says. -/
theorem Event.program_holds (hw : RequestsIn S s.world) (hS : e.Asks S) :
    Holds env (planeRules S (e.Terminates s)) (e.program o s) s.world fun _ w' =>
      (∀ settings, e ≠ .configure settings) → Caused env S s e w' := by
  cases e with
  | registerNode node =>
    refine holds_ignore_then ((registerNode_holds node).mono ?_)
    rintro _ w' (rfl | ⟨w₁, h, hc⟩) -
    · exact .actions .refl
    · exact .registered node rfl w₁ h hc
  | createDeployment spec => exact (steers_createDeployment hS).caused rfl
  | updateDeployment id next => exact (steers_updateDeployment hS id).caused rfl
  | rollbackDeployment id revision =>
    have hr : Steers env S (Event.Terminates s (.rollbackDeployment id revision))
        (Orchestrator.rollbackDeployment id revision) s.world :=
      (rollbackDeployment_holds id revision).mono fun _ _ h => h.1
    exact hr.caused rfl
  | deleteDeployment id => exact (steers_deleteDeployment id).caused rfl
  | reconcileAll => exact (steers_reconcileAll hw).caused rfl
  | drainNode id => exact (steers_drainNode id).caused rfl
  | removeNode id => exact (steers_removeNode id).caused rfl
  | report id status containerID =>
    refine holds_ignore_then ((reportWorkloadStatus_holds id status containerID ?_).mono ?_)
    · rintro rfl
      rfl
    · intro _ w' h _
      exact .reported id status rfl h
  | heartbeat node =>
    refine holds_ignore_then ((heartbeatNode_holds _ _).mono ?_)
    rintro _ w' (rfl | h) -
    · exact .actions .refl
    · exact .beat node rfl h
  | poll node max =>
    refine Prog.Sat.mono ((steers_poll _ max).bind fun _ _ => .stop _) ?_
    intro _ w' h _
    exact .actions h
  | work node retries rt =>
    refine (work_holds node retries rt).bind ?_ ?_
    · intro r w' h
      exact fun _ => h
    · intro _ w' h _
      exact h
  | configure settings => exact fun h => absurd rfl (h settings)

lemma Sys.step_world (he : ∀ settings, e ≠ .configure settings) :
    (s.step env o e).world = (e.program o s).final (exec env) s.world := by
  rw [Sys.step]
  exact he

/-- One step does to the tables what `Caused` says, and keeps the requests of the jobs in
`S`. -/
theorem Sys.step_caused (hw : RequestsIn S s.world) (hS : e.Asks S) :
    Caused env S s e (s.step env o e).world ∧ RequestsIn S (s.step env o e).world := by
  by_cases he : ∃ settings, e = .configure settings
  · obtain ⟨settings, rfl⟩ := he
    exact ⟨.configured settings rfl rfl, hS⟩
  · rw [not_exists] at he
    have hp : Holds env _ (e.program o s) s.world _ := Event.program_holds hw hS
    have hrun := (holds_requested hp hw).run
    rw [Sys.step_world he]
    exact ⟨hrun.1 he, hrun.2⟩

/-! ### Invariants of the tables -/

section Invariant

variable {I : World → Prop}
  (hctl : ∀ {w w' : World}, Ctl env S w w' → I w → I w')
  (hsame : ∀ {w w' : World}, w'.deps = w.deps → w'.workloads = w.workloads → w.tick ≤ w'.tick →
    I w → I w')
  (hrestate : ∀ {u : Workload} {status : WorkloadStatus} {w w' : World}, status ≠ .terminated →
    Restated u status w w' → I w → I w')
  (hrelease : ∀ {u : Workload} {w w' : World}, Released u w w' → I w → I w')
include hctl

lemma Chain.invariant {w w' : World} (h : Chain env S w w') (hw : I w) : I w' := by
  induction h with
  | refl => exact hw
  | tail _ hstep ih => exact hctl hstep ih

include hrestate hrelease in
lemma Reported.invariant {w w' : World} {id : String} {status : WorkloadStatus}
    (h : Reported id status w w') (hw : I w) : I w' := by
  rcases h with ⟨-, rfl⟩ | ⟨u, -, ⟨hst, h⟩ | ⟨-, w₁, h, hs⟩⟩
  · exact hw
  · exact hrestate hst h hw
  · exact Chain.invariant hctl hs.chain (hrelease h hw)

include hsame hrestate hrelease

/-- The invariant rule: a property of deployments, workloads and ticks that the actions, the
reports and the terminations keep is kept by every step. -/
theorem Caused.invariant (h : Caused env S s e w') (hs : I s.world) : I w' := by
  cases h with
  | actions h => exact Chain.invariant hctl h hs
  | registered node _ w₁ h hc =>
    obtain ⟨health, seen, h⟩ := h
    exact Chain.invariant hctl hc (hsame h.deps h.workloads h.tick hs)
  | beat node _ h =>
    obtain ⟨n, health, seen, -, h⟩ := h
    exact hsame h.deps h.workloads h.tick hs
  | reported id status _ h => exact h.invariant hctl hrestate hrelease hs
  | configured settings _ h =>
    subst h
    exact hsame (w := s.world) rfl rfl le_rfl hs

end Invariant

lemma Caused.tick_le (h : Caused env S s e w') : s.world.tick ≤ w'.tick := by
  refine h.invariant (I := fun w => s.world.tick ≤ w.tick) ?_ ?_ ?_ ?_ le_rfl
  · intro w₁ w₂ h hw
    exact hw.trans h.tick_le
  · intro w₁ w₂ _ _ ht hw
    exact hw.trans ht
  · intro u status w₁ w₂ _ h hw
    exact hw.trans h.tick_le
  · intro u w₁ w₂ h hw
    exact hw.trans h.tick_le

/-- The ids in use have been drawn. -/
structure Drawn (env : Env) (w : World) : Prop where
  workloads : ∀ v ∈ w.workloads.rows, ∃ k < w.tick, v.id = env.workloadID k
  deployments : ∀ d ∈ w.deps.rows, ∃ k < w.tick, d.id = env.deploymentID k

lemma Ctl.drawn {w w' : World} (h : Ctl env S w w') (hw : Drawn env w) : Drawn env w' := by
  refine ⟨?_, ?_⟩
  · intro v hv
    rcases h.workload_cases hv with ⟨u, hu, hr⟩ | ⟨d, -, -, n, -, -, k, hid, -, hk⟩
    · obtain ⟨k, hk, hid⟩ := hw.workloads u hu
      exact ⟨k, hk.trans_le h.tick_le, hr.fields.1.trans hid⟩
    · exact ⟨k, hk, hid⟩
  · intro d hd
    rcases h.dep_cases hd with hd | ⟨e, he, hch⟩ | ⟨spec, k, -, -, -, hk, rfl⟩
    · obtain ⟨k, hk, hid⟩ := hw.deployments d hd
      exact ⟨k, hk.trans_le h.tick_le, hid⟩
    · obtain ⟨k, hk, hid⟩ := hw.deployments e he
      exact ⟨k, hk.trans_le h.tick_le, hch.id_eq.trans hid⟩
    · exact ⟨k, hk, rfl⟩

lemma Drawn.of_workloads {w w' : World} (hw : Drawn env w) (hD : w'.deps = w.deps)
    (ht : w.tick ≤ w'.tick) (hW : ∀ v ∈ w'.workloads.rows, ∃ u ∈ w.workloads.rows,
      u.id = v.id ∧ u.deploymentID = v.deploymentID) : Drawn env w' := by
  refine ⟨?_, ?_⟩
  · intro v hv
    obtain ⟨u, hu, huv, -⟩ := hW v hv
    obtain ⟨k, hk, hid⟩ := hw.workloads u hu
    exact ⟨k, hk.trans_le ht, huv.symm.trans hid⟩
  · intro d hd
    rw [hD] at hd
    obtain ⟨k, hk, hid⟩ := hw.deployments d hd
    exact ⟨k, hk.trans_le ht, hid⟩

lemma Caused.drawn (h : Caused env S s e w') (hs : Drawn env s.world) : Drawn env w' := by
  refine h.invariant (fun h hw => h.drawn hw) ?_ ?_ ?_ hs
  · intro w w' hD hW ht hw
    refine hw.of_workloads hD ht ?_
    rw [hW]
    exact fun v hv => ⟨v, hv, rfl, rfl⟩
  · intro u status w w' _ h hw
    exact hw.of_workloads h.deps h.tick_le h.known
  · intro u w w' h hw
    exact hw.of_workloads h.deps h.tick_le h.known

/-- Any event, anywhere. -/
def Event.Any (_ : Event) (_ : Sys) : Prop := True

lemma asks_true (e : Event) : e.Asks fun _ => True := by
  cases e with
  | createDeployment spec => trivial
  | updateDeployment id next => trivial
  | configure settings => exact fun _ _ => trivial
  | _ => trivial

lemma Sys.caused_any (s : Sys) (e : Event) :
    Caused env (fun _ => True) s e (s.step env o e).world :=
  (Sys.step_caused (fun _ _ => trivial) (asks_true e)).1

lemma admissible_any {step : Event → Sys → Sys} (es : List Event) (s : Sys) :
    Admissible step Event.Any es s := by
  induction es generalizing s with
  | nil => trivial
  | cons e es ih => exact ⟨trivial, ih _⟩

lemma Runs.drawn {s : Sys} (h : Runs (Sys.step env o) Event.Any Sys.init s) :
    Drawn env s.world := by
  refine h.invariant (I := fun s => Drawn env s.world) ?_ fun e s hI _ =>
    (Sys.caused_any s e).drawn hI
  constructor <;> intro _ h <;> cases h

/-! ### A clock that never shows a time twice -/

/-- The time can be read back from an id made of a text, a time and a suffix. -/
lemma stamp_inj {pfx x y : String} {a b : Time} (ha : 0 ≤ a) (hb : 0 ≤ b)
    (h : pfx ++ toString a ++ "-" ++ x = pfx ++ toString b ++ "-" ++ y) : a = b := by
  obtain ⟨m, rfl⟩ := Int.eq_ofNat_of_zero_le ha
  obtain ⟨n, rfl⟩ := Int.eq_ofNat_of_zero_le hb
  have hm : ∀ k : ℕ, (toString (k : ℤ)).toList = Nat.toDigits 10 k := fun k => toString_nat_toList k
  have hl := congrArg String.toList h
  simp only [String.toList_append, hm, List.append_assoc] at hl
  have hl' := List.append_cancel_left hl
  exact congrArg _ (toDigits_append_inj (c := '-') (by decide) hl').1

lemma Env.workloadID_injective (hpos : ∀ k, 0 ≤ env.clock k)
    (hclock : Function.Injective env.clock) : Function.Injective env.workloadID :=
  fun _ _ h => hclock (stamp_inj (hpos _) (hpos _) h)

lemma Env.deploymentID_injective (hpos : ∀ k, 0 ≤ env.clock k)
    (hclock : Function.Injective env.clock) : Function.Injective env.deploymentID :=
  fun _ _ h => hclock (stamp_inj (hpos _) (hpos _) h)

/-- An environment whose clock advances by a nanosecond at each reading, with no plugins. -/
def steadyEnv : Env where
  clock k := 1700000000000000000 + k
  rand _ := 7
  admission _ := none
  external _ _ _ := none

lemma steadyEnv_clock_pos (k : ℕ) : 0 ≤ steadyEnv.clock k := by
  change (0 : ℤ) ≤ 1700000000000000000 + k
  omega

lemma steadyEnv_clock_injective : Function.Injective steadyEnv.clock := by
  intro j k h
  have h' : (1700000000000000000 : ℤ) + j = 1700000000000000000 + k := h
  omega

lemma steadyEnv_ids : Function.Injective steadyEnv.workloadID :=
  Env.workloadID_injective steadyEnv_clock_pos steadyEnv_clock_injective

/-- An environment whose clock advances by a second at each reading. -/
def tickingEnv : Env :=
  { steadyEnv with clock := fun k => 1700000000000000000 + k * 1000000000 }

lemma tickingEnv_clock_nonzero (k : ℕ) : (tickingEnv.clock k).isZero = false := by
  have hpos : (0 : ℤ) ≤ 1700000000000000000 + k * 1000000000 := by omega
  refine decide_eq_false fun h : (1700000000000000000 + k * 1000000000 : ℤ) = Time.zero => ?_
  rw [h] at hpos
  exact absurd hpos (by decide)

lemma tickingEnv_clock_monotone : Monotone tickingEnv.clock := by
  intro j k h
  change (1700000000000000000 + j * 1000000000 : ℤ) ≤ 1700000000000000000 + k * 1000000000
  omega

/-- A control plane with the default scheduling policy. -/
def plainConfig : Config where
  scheduler := newPlanner id "least-loaded"
  nodeTTL := 20000000000
  nodeTTL_pos := by decide
  decryptSecretData := id
  fl := id

/-- A node with one core. -/
def smallNode : Node :=
  { id := "n1", capacity := ⟨1000, 1000⟩, allocatable := ⟨1000, 1000⟩ }

/-- A deployment whose single replica takes more than half of it. -/
def webSpec : DeploymentSpec :=
  { name := "web", image := "img", replicas := 1, resources := ⟨600, 600⟩ }

/-- A runtime that starts and stops whatever it is asked to. -/
def willingRuntime : RuntimeOutcome :=
  { stopped := true, materialized := true, started := fun _ => some "c1" }

/-- The node registers, and the deployment is created. -/
def webRun : List Event := [.registerNode smallNode, .createDeployment webSpec]

end Orchestrator
