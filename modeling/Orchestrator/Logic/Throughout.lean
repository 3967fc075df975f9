/-
# Properties that are kept throughout a run

`Throughout env I G p` says that whenever the program `p` starts in a state with `I`, then
`I` holds at every call of the run and at its end, and every call satisfies `G`.  The
operations that change no node record by themselves consist of plain calls and of placements
of replicas; what both keep (`Kept`), the operations keep.
-/
import Orchestrator.Logic.Frames

namespace Orchestrator

open Lib

variable {env : Env} {I : World → Prop} {G : Call → World → Prop} {o : Config} {α β : Type}

def Throughout (env : Env) (I : World → Prop) (G : Call → World → Prop) {α : Type} (p : M α) :
    Prop :=
  ∀ w, I w → Prog.Sat (exec env) (fun c w => I w ∧ G c w) p w fun _ w' => I w'

namespace Throughout

lemma ret (r : Except Err α) : Throughout env I G (Prog.ret r : M α) := fun _ h => h

lemma pure (a : α) : Throughout env I G (Pure.pure a : M α) := fun _ h => h

lemma bind {p : M α} {f : α → M β} (hp : Throughout env I G p)
    (hf : ∀ a, Throughout env I G (f a)) : Throughout env I G (p >>= f) :=
  fun w hw => (hp w hw).bind (fun a w' h => hf a w' h) fun _ _ h => h

lemma attempt_bind {p : M α} {f : Except Err α → M β} (hp : Throughout env I G p)
    (hf : ∀ r, Throughout env I G (f r)) : Throughout env I G (p.attempt >>= f) :=
  fun w hw => (hp w hw).attempt_bind fun r w' h => hf r w' h

lemma modality : Prog.Modality fun _ p => Throughout env I G p where
  pure := pure
  bind := bind
  fail _ := ret _
  attempt hp w hw := Prog.Sat.attempt (hp w hw)

lemma ignore {p : M α} (hp : Throughout env I G p) : Throughout env I G p.ignore :=
  modality.ignore hp

lemma forEach {l : List β} {f : β → M Unit} (hf : ∀ x ∈ l, Throughout env I G (f x)) :
    Throughout env I G (Prog.forEach l f) := modality.forEach hf

/-- A program whose calls are in a class that keeps `I`. -/
lemma of_makes {K : Call → Prop} (hK : ∀ c w, K c → I w → G c w ∧ I (exec env c w).2) {p : M α}
    (hp : Makes K p) : Throughout env I G p := fun _ hw =>
  (Prog.Sat.of_only (fun c w hc hw => ⟨⟨hw, (hK c w hc hw).1⟩, (hK c w hc hw).2⟩) hp hw).mono
    fun _ _ h => h.2

lemma final {p : M α} (hp : Throughout env I G p) {w : World} (hw : I w) :
    I (p.final (exec env) w) := (hp w hw).run

end Throughout

/-! ### Plain calls -/

/-- The call writes no node, stores no pending workload and enqueues no creation. -/
def Call.Plain : Call → Prop
  | .put .node _ | .del .node _ => False
  | .put .workload v => v.status ≠ .pending
  | .put .assignment a => a.creates = false
  | _ => True

/-- Every call of the program is plain. -/
abbrev Plain (p : M α) : Prop := Makes Call.Plain p

instance Call.Plain.hasReads : HasReads Call.Plain where
  reads c hc := by cases c <;> simp_all [Call.reads, Call.Plain]

instance Call.Plain.passCalls (k : String) : PassCalls k Call.Plain where
  mark v h := by
    change v.status ≠ .pending
    rw [h]
    nofun
  delete a h := by
    change a.creates = false
    rw [Assignment.creates, h]
    rfl
  write _ _ := trivial

lemma plain_terminateWorkload (v : Workload) : Plain (terminateWorkload v) :=
  makes_terminateWorkload "" v

lemma plain_remediate (id : String) : Plain (remediateUnhealthyNode id) := by
  refine .ask_bind (c := .list .workload "") rfl fun _ => .forEach fun v _ => ?_
  split
  · exact plain_terminateWorkload v
  · trivial

lemma plain_rebalance : Plain (rebalanceWorkloads o) := by
  refine .ask_bind (c := .list .node "") rfl fun _ => ?_
  split
  · trivial
  split
  · trivial
  refine .ask_bind (c := .list .workload "") rfl fun _ => ?_
  split
  · exact plain_terminateWorkload _
  · trivial

lemma plain_deleteDeployment (id : String) : Plain (deleteDeployment id) :=
  .withLock (.bind (.find _ _) fun _ => .now fun _ => .call trivial)

lemma plain_updateDeployment (id : String) (next : DeploymentSpec) :
    Plain (updateDeployment id next) := by
  refine .withLock (.bind (.find _ _) fun dep => .now fun _ =>
    .now fun _ => .now fun _ => .bind ?_ fun _ =>
    .now fun _ => .bind (.call trivial) fun _ => trivial)
  split
  · exact .now fun _ => trivial
  · trivial

lemma plain_rollbackDeployment (id : String) (revision : ℤ) :
    Plain (rollbackDeployment id revision) := by
  refine .withLock (.bind (.find _ _) fun dep => ?_)
  split
  · trivial
  dsimp only
  split
  · trivial
  · exact .now fun _ => .now fun _ =>
      .now fun _ => .now fun _ =>
      .now fun _ => .bind (.call trivial) fun _ => trivial

lemma plain_settleDeployment (id : String) : Plain (settleDeployment id) := by
  refine .attempt_bind (.find _ _) ?_
  rintro (e | dep)
  · trivial
  exact .bind (.deployed _) fun _ =>
    .ite (.bind (.of_reads (keepsCore_settledStatus dep _).reads) fun _ => .ignore (.call trivial))
      trivial

lemma plain_reconcileDeletion (id : String) : Plain (reconcileDeletion id) := by
  refine .withLock (.bind (.find _ _) fun dep => .bind (.deployed _) fun _ =>
    .bind (.forEach fun v _ => ?_) fun _ => ?_)
  · split
    · trivial
    · exact plain_terminateWorkload v
  · split
    · trivial
    dsimp only
    split
    · exact .call trivial
    · exact .call trivial

lemma plain_reconcileAutoscaling : Plain (reconcileAutoscaling o) := by
  refine .ask_bind (c := .list .policy "") rfl fun _ => .now fun _ =>
    .forEach fun p _ => .attempt_bind (.find _ _) ?_
  rintro (e | dep)
  · trivial
  have hlist : Plain (StateStore.listDeploymentMetrics dep.id 200) :=
    .ask_bind rfl fun _ => trivial
  refine .bind hlist fun samples => ?_
  dsimp only
  split
  · trivial
  · exact .bind (.call trivial) fun _ => .bind (.orNow _) fun _ => .call trivial

lemma plain_evaluateWorkloadHealth : Plain evaluateWorkloadHealth := by
  refine .ask_bind (c := .list .workload "") rfl fun _ =>
    .ask_bind (c := .list .deployment "") rfl fun _ => .now fun _ =>
    .forEach fun v _ => ?_
  split
  · trivial
  refine .bind (.upsertWorkload fun _ => nofun) fun _ => ?_
  unfold maybeAutoRollbackForFailures
  split
  · trivial
  exact .bind (.deployed _) fun _ => .ite trivial (.ignore (plain_rollbackDeployment _ _))

lemma plain_reconcileAllServiceEndpoints : Plain reconcileAllServiceEndpoints :=
  makes_reconcileAllServiceEndpoints fun _ _ => trivial

lemma plain_reconcilePVCBindings : Plain reconcilePVCBindings :=
  makes_reconcilePVCBindings (fun _ => trivial) fun _ _ => trivial

lemma plain_storeJob (job : Job) : Plain (StateStore.upsertJob job) :=
  makes_storeJob fun _ _ => trivial

/-! ### The operations -/

/-- The stages of `ReconcileAll` before the health pass. -/
def reconcileStages (o : Config) : M Unit := do
  let deps ← StateStore.listDeployments
  Prog.forEach deps (reconcileListed o)
  (reconcileAutoscaling o).ignore
  evaluateWorkloadHealth.ignore
  reconcileAllServiceEndpoints.ignore
  reconcilePVCBindings.ignore
  (reconcileJobsAndCron o).ignore

lemma reconcileAll_eq : reconcileAll o = reconcileStages o >>= fun _ => updateNodeHealth o := by
  simp only [reconcileAll, reconcileStages, Prog.bind_assoc]

/-- What plain calls and placements keep. -/
structure Kept (env : Env) (o : Config) (I : World → Prop) (G : Call → World → Prop) : Prop where
  plain : ∀ c w, c.Plain → I w → G c w ∧ I (exec env c w).2
  place : ∀ dep, Throughout env I G (createWorkloadForDeployment o dep)

namespace Kept

variable (h : Kept env o I G)
include h

lemma of_plain {p : M α} (hp : Plain p) : Throughout env I G p := .of_makes h.plain hp

lemma withLock {p : M α} (hp : Throughout env I G p) : Throughout env I G (withLock p) :=
  .bind (h.of_plain (.call trivial)) fun _ => .attempt_bind hp fun _ =>
    .bind (h.of_plain (.call trivial)) fun _ => .ret _

lemma reconcileDeployment (id : String) : Throughout env I G (reconcileDeployment o id) := by
  refine h.withLock (.bind (h.of_plain (.find _ _)) fun dep =>
    .bind (h.of_plain (makes_progressDeadline _)) ?_)
  rintro (_ | _)
  · refine .bind (h.of_plain (.deployed _)) fun _ => .bind
      (createReplicas_of Throughout.modality (h.place _) _) ?_
    rintro (_ | e)
    · exact h.of_plain (makes_finishPass rfl _)
    · exact h.of_plain (makes_placementFailed rfl _ _)
  · exact h.of_plain (makes_failRollout rfl)

lemma createDeployment (spec : DeploymentSpec) : Throughout env I G (createDeployment o spec) := by
  unfold Orchestrator.createDeployment
  split
  · exact .ret _
  split
  · exact .ret _
  refine .bind (h.of_plain (makes_admitSpec (fun _ => trivial) _)) fun _ =>
    .bind (h.of_plain (.call trivial)) fun _ => .bind (h.of_plain (.call trivial)) fun _ =>
    .bind (h.of_plain (.bind (.call (HasReads.reads _ rfl)) ?_)) fun _ =>
      .bind (h.reconcileDeployment _) fun _ =>
    .bind (h.of_plain (.of_reads (createdStatus_reads _))) fun _ =>
    .bind (.ignore (h.of_plain (.call trivial))) fun _ => .pure _
  rintro (_ | d)
  · exact .call trivial
  · trivial

lemma reconcileListed (dep : Deployment) : Throughout env I G (reconcileListed o dep) := by
  unfold Orchestrator.reconcileListed
  split
  · exact .ignore (h.of_plain (plain_reconcileDeletion _))
  · exact .ignore (h.reconcileDeployment _)

lemma reconcileJob (now : Time) (job : Job) : Throughout env I G (reconcileJob o now job) :=
  reconcileJob_of Throughout.modality (h.createDeployment _) (fun j _ => h.of_plain (plain_storeJob j))
    (h.of_plain (.deployed _)) (fun k => h.of_plain (plain_deleteDeployment k))
    (h.of_plain (.call trivial))

lemma reconcileJobsAndCron : Throughout env I G (reconcileJobsAndCron o) :=
  reconcileJobsAndCron_of Throughout.modality (fun hp => h.of_plain (hp.weaken HasModest.modest))
    (fun _ _ => h.of_plain (makes_runCronJob _ (fun _ _ => trivial) fun _ _ => trivial))
    fun now job => h.reconcileJob now job

/-- The stages of `ReconcileAll` before the health pass. -/
lemma reconcileStages : Throughout env I G (reconcileStages o) :=
  .bind (h.of_plain (.call trivial)) fun _ => .bind (.forEach fun d _ => h.reconcileListed d) fun _ =>
    .bind (.ignore (h.of_plain plain_reconcileAutoscaling)) fun _ =>
    .bind (.ignore (h.of_plain plain_evaluateWorkloadHealth)) fun _ =>
    .bind (.ignore (h.of_plain plain_reconcileAllServiceEndpoints)) fun _ =>
    .bind (.ignore (h.of_plain plain_reconcilePVCBindings)) fun _ =>
    .ignore h.reconcileJobsAndCron

end Kept

end Orchestrator
