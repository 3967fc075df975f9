/-
# The calls that an operation makes

The stages of a pass over a deployment are gone through once, for any class that has the calls
they make (`PassCalls`, `PlacementCalls`); the classes used are those of the calls that write to
certain tables (`WritesIn`), and of those that let no workload fail (`Gentle`).
-/
import Orchestrator.Logic.Workers

namespace Orchestrator

open Lib

variable {α β γ : Type} {T T' : List Tbl} {t : Tbl} {P P' : Call → Prop}

/-! ### The tables that are written -/

/-- The call writes to tables in `T` at most. -/
def Call.WritesIn (T : List Tbl) (c : Call) : Prop := ∀ t, t ∉ T → c.writes t = false

/-- Every call of the program writes to tables in `T` at most. -/
abbrev WritesIn (T : List Tbl) (p : M α) : Prop := Makes (Call.WritesIn T) p

instance Call.WritesIn.hasReads : HasReads (Call.WritesIn T) :=
  ⟨fun _ hc _ _ => Call.writes_of_reads hc⟩

lemma Call.writesIn_put {v : t.Val} (ht : t ∈ T) : Call.WritesIn T (.put t v) := by
  intro t' ht'
  simp only [Call.writes, decide_eq_false_iff_not]
  rintro rfl
  exact ht' ht

lemma Call.writesIn_del {k : String} (ht : t ∈ T) : Call.WritesIn T (.del t k) := by
  intro t' ht'
  simp only [Call.writes, decide_eq_false_iff_not]
  rintro rfl
  exact ht' ht

namespace WritesIn

lemma spares {p : M α} (h : WritesIn T p) (ht : t ∉ T) : Spares t p :=
  h.weaken fun _ hc => hc t ht

lemma mono {p : M α} (h : WritesIn T p) (hT : T ⊆ T') : WritesIn T' p :=
  h.weaken fun _ hc t ht => hc t fun h => ht (hT h)

/-- The frame rule for all tables that a program does not write to. -/
lemma frame {env : Env} {P : Rules} {p : M α} {w : World}
    {Q : Except Err α → World → Prop} (h : WritesIn T p) (hp : Holds env P p w Q) :
    Holds env P p w fun r w' => Q r w' ∧ ∀ t, t ∉ T → w'.store t = w.store t :=
  hp.frame (I := fun w' => ∀ t, t ∉ T → w'.store t = w.store t)
    (fun _ w' hc hw' t ht => (exec_writes env (hc t ht) w').trans (hw' t ht)) h fun _ _ => rfl

end WritesIn

/-! ### A pass over a deployment -/

/-- A class that has the calls of a pass over the deployment `k`, besides those that place
replicas. -/
class PassCalls (k : String) (P : Call → Prop) : Prop extends HasCommon P where
  mark : ∀ v : Workload, v.status = .terminating → P (.put .workload v)
  delete : ∀ a : Assignment, a.action = .delete → P (.put .assignment a)
  write : ∀ d : Deployment, d.id = k → P (.put .deployment d)

/-- A class that has the calls by which a replica is placed. -/
class PlacementCalls (P : Call → Prop) : Prop extends HasCommon P where
  reserve : ∀ n : Node, P (.put .node n)
  evict : ∀ id : String, P (.del .workload id)
  place : ∀ v : Workload, v.status = .pending → P (.put .workload v)
  create : ∀ a : Assignment, P (.put .assignment a)

section Pass

variable {k : String} {o : Config}

/-- A record with the id `k` is written back. -/
lemma KeepsCore.makes [HasCommon P] {c : DepCore} {p : M Deployment} (hp : KeepsCore c p)
    (hk : c.id = k) {f : Deployment → M α} (hf : ∀ d : Deployment, d.id = k → Makes P (f d)) :
    Makes P (p >>= f) := by
  refine Prog.Only.bind (Prog.Only.weaken (fun _ hc => HasCommon.common _
    (Call.common_of_oracle hc)) hp) ?_ fun _ _ => trivial
  rintro d ⟨_, ⟨⟩, hc⟩
  exact hf d (by rw [← hk, ← hc]; rfl)

section

variable [PassCalls k P]

lemma makes_terminateWorkload (k : String) [PassCalls k P] (v : Workload) :
    Makes P (terminateWorkload v) :=
  .bind (.upsertWorkload fun _ => PassCalls.mark k _ rfl) fun _ =>
    .enqueueAssignment fun _ => PassCalls.delete k _ rfl

lemma makes_terminateAll (k : String) [PassCalls k P] (l : List Workload) :
    Makes P (Prog.forEach l enqueueDeleteForWorkload) :=
  .forEach fun v _ => makes_terminateWorkload k v

lemma makes_scaleDown (k : String) [PassCalls k P] (dep : Deployment) (plan : RolloutPlan)
    (old : List Workload) (total : ℤ) : Makes P (scaleDown dep plan old total) :=
  .bind (.onlyIf (makes_terminateAll k _)) fun _ => .bind (.deployed _) fun _ =>
    .onlyIf (makes_terminateAll k _)

lemma makes_updateDeployment {d : Deployment} (hd : d.id = k) :
    Makes P (StateStore.updateDeployment d) := .call (PassCalls.write d hd)

lemma makes_finishPass {dep : Deployment} (hk : dep.id = k) (plan : RolloutPlan) :
    Makes P (finishPass dep plan) :=
  .bind (.deployed _) fun _ => .bind (.onlyIf (makes_scaleDown k _ _ _ _)) fun _ =>
    .bind (.deployed _) fun _ =>
    (keepsCore_rolloutStatus dep _ _).makes hk fun _ hd => makes_updateDeployment hd

lemma makes_placementFailed {dep : Deployment} (hk : dep.id = k) (phase : RolloutPhase)
    (e : Err) : Makes P (placementFailed dep phase e) :=
  .now fun _ => .now fun _ =>
    .now fun _ => .now fun _ =>
    makes_updateDeployment hk

lemma makes_failRollout {dep : Deployment} (hk : dep.id = k) : Makes P (failRollout dep) := by
  refine .now fun _ => .now fun _ =>
    .now fun _ => ?_
  -- the rollback changes the specification, and keeps the id
  refine Prog.Only.bind (R := fun r => ∀ d, r = .ok d → d.id = k) ?_ ?_ fun _ _ => trivial
  · split
    · unfold rollbackDeploymentLocked
      split
      · rintro _ ⟨⟩
        exact hk
      · refine ⟨HasCommon.common _ rfl, fun _ => ?_⟩
        rintro _ ⟨⟩
        exact hk
    · rintro _ ⟨⟩
      exact hk
  · intro d hd
    exact Makes.now fun _ => makes_updateDeployment (hd d rfl)

end

section

variable [PlacementCalls P]

lemma makes_createWorkload (dep : Deployment) : Makes P (createWorkloadForDeployment o dep) :=
  .bind (makes_chooseNode PlacementCalls.reserve PlacementCalls.evict dep) fun _ => .now fun _ =>
    .ask_bind (c := .rand) rfl fun _ => .now fun _ =>
    .now fun _ =>
    .bind (.upsertWorkload fun _ => PlacementCalls.place _ rfl) fun _ =>
    .bind (.upsertNode fun _ => PlacementCalls.reserve _) fun _ =>
    .bind (makes_resolveSecretFiles dep) fun _ =>
    .enqueueAssignment fun _ => PlacementCalls.create _

lemma makes_reconcileReplicas [PassCalls k P] {dep : Deployment} (hk : dep.id = k) :
    Makes P (reconcileReplicas o dep) := by
  refine .bind (.deployed _) fun _ => .bind (createReplicas_of (Makes.modality P)
    (makes_createWorkload dep) _) ?_
  rintro (_ | e)
  · exact makes_finishPass hk _
  · exact makes_placementFailed hk _ _

lemma makes_reconcileDeployment [HasReads P] [∀ k, PassCalls k P] (id : String) :
    Makes P (reconcileDeployment o id) := by
  refine .withLock (.bind (.find _ _) fun dep => .bind (makes_progressDeadline _) ?_)
  rintro (_ | _)
  · exact makes_reconcileReplicas (k := dep.prepared.id) rfl
  · exact makes_failRollout (k := dep.prepared.id) rfl

end

end Pass

lemma createdStatus_reads (dep : Deployment) : Reads (createdStatus dep) fun _ => True :=
  ⟨rfl, fun _ => ⟨rfl, fun _ => ⟨rfl, fun _ => trivial⟩⟩⟩

lemma makes_createDeployment {o : Config} [HasReads P] [PlacementCalls P] [∀ k, PassCalls k P]
    (h : ∀ ns, P (.put .nameSpace ns)) (spec : DeploymentSpec) :
    Makes P (createDeployment o spec) := by
  unfold createDeployment
  split
  · trivial
  split
  · trivial
  have hwrite : ∀ d : Deployment, P (.put .deployment d) := fun d => PassCalls.write d rfl
  refine .bind (makes_admitSpec h _) fun _ => .now fun _ =>
    .ask_bind (c := .rand) rfl fun _ => .bind (.bind (.call (HasReads.reads _ rfl)) ?_) fun _ =>
    .bind (makes_reconcileDeployment _) fun _ => .bind (.of_reads (createdStatus_reads _)) fun dep =>
    .bind (.ignore (.call (hwrite _))) fun _ => trivial
  rintro (_ | d)
  · exact .call (hwrite _)
  · trivial

/-- The tables that functions on one deployment write to. -/
def placementTables : List Tbl := [.node, .deployment, .workload, .assignment]

/-- The tables that `CreateDeployment` writes to. -/
def creationTables : List Tbl := .nameSpace :: placementTables

instance creationTables_passCalls (k : String) : PassCalls k (Call.WritesIn creationTables) where
  mark _ _ := Call.writesIn_put (by decide)
  delete _ _ := Call.writesIn_put (by decide)
  write _ _ := Call.writesIn_put (by decide)

instance creationTables_placementCalls : PlacementCalls (Call.WritesIn creationTables) where
  reserve _ := Call.writesIn_put (by decide)
  evict _ := Call.writesIn_del (by decide)
  place _ _ := Call.writesIn_put (by decide)
  create _ := Call.writesIn_put (by decide)

lemma ensureNamespaceExists_writesIn (ns : String) :
    WritesIn [.nameSpace] (ensureNamespaceExists ns) :=
  makes_ensureNamespaceExists (fun _ => Call.writesIn_put (by decide)) ns

lemma admitSpec_writesIn (spec : DeploymentSpec) : WritesIn [.nameSpace] (admitSpec spec) :=
  makes_admitSpec (fun _ => Call.writesIn_put (by decide)) spec

lemma createDeployment_writesIn (o : Config) (spec : DeploymentSpec) :
    WritesIn creationTables (createDeployment o spec) :=
  makes_createDeployment (fun _ => Call.writesIn_put (by decide)) spec

lemma deleteDeployment_writesIn (k : String) : WritesIn [.deployment] (deleteDeployment k) :=
  .withLock (.bind (.find _ _) fun _ => .now fun _ =>
    .call (Call.writesIn_put (by simp)))

lemma storeJob_writesIn (job : Job) : WritesIn [.job] (StateStore.upsertJob job) :=
  makes_storeJob fun _ _ => Call.writesIn_put (by decide)

/-- What `UpsertJob` of the store writes. -/
lemma storeJob_returns {env : Env} (job : Job) (w : World) :
    Returns env openRules (StateStore.upsertJob job) w fun _ w' =>
      ∃ j, w'.jobs = w.jobs.put j ∧ j.id = job.id ∧ j.deployment = job.deployment ∧
        j.status = if job.status = .unset then .pending else job.status := by
  have hput : ∀ (j : Job) (w : World),
      World.jobs ⟨w.store.put .job j, w.tick⟩ = w.jobs.put j.viaJSON :=
    fun j w => Store.put_self _ _ _
  unfold StateStore.upsertJob orNow
  split
  · exact ⟨trivial, trivial, trivial, (), rfl, _, hput _ _, rfl, rfl, rfl⟩
  · exact ⟨trivial, trivial, (), rfl, _, hput _ _, rfl, rfl, rfl⟩

lemma upsertJob_writesIn (job : Job) : WritesIn [.job] (upsertJob job) :=
  makes_upsertJob fun _ _ => Call.writesIn_put (by decide)

/-! ### Functions that let no workload fail -/

/-- A workload that the call stores is pending or terminating. -/
def Call.Gentle : Call → Prop
  | .put .workload v => v.status = .pending ∨ v.status = .terminating
  | _ => True

/-- Every workload that the program stores is pending or terminating. -/
abbrev Gentle (p : M α) : Prop := Makes Call.Gentle p

instance Call.Gentle.hasReads : HasReads Call.Gentle where
  reads c hc := by cases c <;> simp_all [Call.reads, Call.Gentle]

instance Call.Gentle.passCalls (k : String) : PassCalls k Call.Gentle where
  mark _ h := .inr h
  delete _ _ := trivial
  write _ _ := trivial

instance Call.Gentle.placementCalls : PlacementCalls Call.Gentle where
  reserve _ := trivial
  evict _ := trivial
  place _ h := .inl h
  create _ := trivial

lemma createDeployment_gentle (o : Config) (spec : DeploymentSpec) :
    Gentle (createDeployment o spec) := makes_createDeployment (fun _ => trivial) spec

/-- A gentle run ends with the failed workloads that were there before, or fewer. -/
lemma Gentle.failed {env : Env} {P : Rules} {p : M α} {w : World}
    {Q : Except Err α → World → Prop} (h : Gentle p) (hp : Holds env P p w Q) :
    Holds env P p w fun r w' => Q r w' ∧
      ∀ v ∈ w'.workloads.rows, v.status = .failed → v ∈ w.workloads.rows := by
  refine hp.frame (I := fun w' => ∀ v ∈ w'.workloads.rows, v.status = .failed →
    v ∈ w.workloads.rows) ?_ h fun v hv _ => hv
  intro c w' hc hw' v hv hf
  rcases exec_mem (t := .workload) nofun hv with hv | ⟨u, rfl, hu⟩
  · exact hw' v hv hf
  · obtain rfl : v = u := hu
    rcases hc with hc | hc <;> rw [hf] at hc <;> cases hc

lemma releaseReservation_writesIn (u : Workload) : WritesIn [.node] (releaseReservation u) :=
  makes_releaseReservation (fun _ => Call.writesIn_put (by decide)) u

lemma settleDeployment_writesIn (id : String) :
    WritesIn [.deployment] (settleDeployment id) := by
  refine .attempt_bind (.find _ _) ?_
  rintro (e | dep)
  · trivial
  refine .ask_bind (c := .list .workload "") rfl fun _ => ?_
  dsimp only
  split
  · exact .bind (.of_reads (keepsCore_settledStatus dep _).reads) fun _ =>
      .ignore (.call (Call.writesIn_put (by decide)))
  · trivial

/-- A report writes to the nodes, the workloads and the deployments. -/
lemma reportWorkloadStatus_writesIn (id : String) (status : WorkloadStatus) (containerID : String) :
    WritesIn [.node, .workload, .deployment] (reportWorkloadStatus id status containerID) := by
  have hstore : ∀ v, WritesIn [.node, .workload, .deployment] (StateStore.upsertWorkload v) :=
    fun v => .now fun _ => .call (Call.writesIn_put (by decide))
  refine .attempt_bind (.find _ _) ?_
  rintro (e | u)
  · cases e <;> trivial
  dsimp only
  split
  · refine .bind ((releaseReservation_writesIn u).mono (by decide)) fun _ => .bind ?_ fun _ =>
      (settleDeployment_writesIn _).mono (by decide)
    exact .call (Call.writesIn_del (by decide))
  · exact hstore _

/-- The tables that the pass over the jobs writes to. -/
def jobTables : List Tbl := .job :: creationTables

lemma reconcileJob_writesIn (o : Config) (now : Time) (job : Job) :
    WritesIn jobTables (reconcileJob o now job) :=
  reconcileJob_of (Makes.modality _) ((createDeployment_writesIn o _).mono (by decide))
    (fun j _ => (storeJob_writesIn j).mono (by decide)) (.deployed _)
    (fun k => (deleteDeployment_writesIn k).mono (by decide))
    (.call (Call.writesIn_del (by decide)))

/-- The assignment asks for a container. -/
def Assignment.creates (a : Assignment) : Bool := a.action = .create || a.action = .unset

/-! ### Listings by namespace -/

/-- What a pass lists of a kind: the records of the default namespace, then those of each
registered one.  A record may occur several times. -/
def World.byNamespace (w : World) (t : Tbl) (pfx : String → String) : List t.Val :=
  w.store.list t (pfx "default") ++
    ((w.store .nameSpace).rows.map fun ns : Namespace => w.store.list t (pfx ns.name)).flatten

lemma World.mem_of_byNamespace {w : World} {pfx : String → String} {v : t.Val}
    (h : v ∈ w.byNamespace t pfx) : v ∈ (w.store t).rows := by
  rcases List.mem_append.mp h with h | h
  · exact Store.mem_list h
  · obtain ⟨l, hl, hv⟩ := List.mem_flatten.mp h
    obtain ⟨ns, -, rfl⟩ := List.mem_map.mp hl
    exact Store.mem_list hv

/-- The jobs of a namespace, as `ListJobs` returns them. -/
def World.jobsOf (w : World) (ns : String) : List Job :=
  if blank ns then w.jobs.rows
  else w.jobs.rows.filter fun j => equalFold (trimSpace j.spec.nameSpace) (trimSpace ns)

section Jobs

variable {env : Env} {P : Rules} {w : World} {Q : Except Err β → World → Prop}

lemma listJobs_holds (ns : String) :
    Holds env P (StateStore.listJobs ns) w fun r w' => r = .ok (w.jobsOf ns) ∧ w' = w := by
  refine ⟨trivial, ?_⟩
  change Holds env P (if blank ns then pure (w.store.list .job "")
    else pure ((w.store.list .job "").filter _)) w _
  rw [Store.list, if_pos rfl]
  unfold World.jobsOf
  split
  · exact ⟨rfl, rfl⟩
  · exact ⟨rfl, rfl⟩

lemma listJobs_bind {ns : String} {f : List Job → M β} (h : Holds env P (f (w.jobsOf ns)) w Q) :
    Holds env P (StateStore.listJobs ns >>= f) w Q := by
  refine (listJobs_holds ns).bind ?_ ?_
  · rintro _ _ ⟨⟨⟩, rfl⟩
    exact h
  · rintro _ _ ⟨⟨⟩, -⟩

lemma listsJobs_bind {l : List Namespace} {f : List (List Job) → M β}
    (h : Holds env P (f (l.map fun ns => w.jobsOf ns.name)) w Q) :
    Holds env P (Prog.mapEach l (fun ns => StateStore.listJobs ns.name) >>= f) w Q := by
  refine (Prog.Sat.mapEach_const l fun ns _ => listJobs_holds ns.name).bind ?_ ?_
  · rintro _ _ ⟨⟨⟩, rfl⟩
    exact h
  · rintro _ _ ⟨⟨⟩, -⟩

end Jobs

end Orchestrator
