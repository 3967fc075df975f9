/-
# Regimes of the control plane

What the functions of the control plane write, given what they read.  The terms (`Terms`) say
which ids of deployments a function may touch, which specifications may be stored, and which
requests a replica may have; `Covers` says that a regime on the calls has these terms: the
records that are looked up meet them, and every record that meets them may be stored.  Each
function is gone through once, for any regime that has the terms it needs.
-/
import Orchestrator.Controller.Manager
import Orchestrator.Lib.Regime
import Orchestrator.Logic.Frames

namespace Orchestrator

open Lib

/-- The terms of a regime. -/
structure Terms where
  /-- The ids of the deployments that are touched. -/
  ids : String → Prop
  /-- The specifications of stored deployments and of their revisions. -/
  spec : DeploymentSpec → Prop
  /-- The request and the priority of stored replicas. -/
  replica : Resource → ℤ → Prop
  /-- The blueprints of stored jobs and cron jobs. -/
  blueprint : String × DeploymentSpec → Prop
  /-- The bounds of stored autoscaler policies. -/
  bounds : Int64 → Int64 → Prop

/-- The deployment may be touched, and its specification and its revisions are as they may
be. -/
structure Terms.Meets (T : Terms) (c : DepCore) : Prop where
  id : T.ids c.id
  spec : T.spec c.spec
  history : ∀ r ∈ c.revisionHistory, T.spec r.spec

/-- The request and the priority of a workload are as they may be. -/
abbrev Terms.Fits (T : Terms) (v : Workload) : Prop := T.replica v.resources v.priority

/-- The regime has the terms, for the calls of a function on one deployment or on the nodes. -/
structure Covers (K : Regime Call.Res) (T : Terms) : Prop where
  common : ∀ c : Call, c.common = true → K.allows c
  lookup : ∀ k, K.allows (.get .deployment k)
  found : ∀ k (d : Deployment), T.ids k → K.answers (.get .deployment k) (some d) → T.Meets d.core
  fetched : ∀ k (v : Workload), K.answers (.get .workload k) (some v) → T.Fits v
  listed : ∀ pfx (l : List Workload), K.answers (.list .workload pfx) l → ∀ v ∈ l, T.Fits v
  normal : ∀ s, T.spec s → T.spec s.normalized
  asked : ∀ s, T.spec s → T.replica s.resources s.priority
  write : ∀ d : Deployment, T.Meets d.core → K.allows (.put .deployment d)
  mark : ∀ v : Workload, T.Fits v → K.allows (.put .workload v)
  evict : ∀ id, K.allows (.del .workload id)
  reserve : ∀ n : Node, K.allows (.put .node n)
  enqueue : ∀ a : Assignment, K.allows (.put .assignment a)

variable {K : Regime Call.Res} {T : Terms} {α β : Type} {Q : β → Prop}

/-- The program keeps the regime. -/
abbrev Obeys (K : Regime Call.Res) (p : M α) : Prop := p.Under K fun _ => True

namespace Obeys

variable {p : M α}

lemma pure (a : α) : Obeys K (Pure.pure a) := trivial

lemma bind {f : α → M β} (hp : Obeys K p) (hf : ∀ a, (f a).Under K Q) :
    (p >>= f).Under K Q := Prog.Under.bind hp fun a _ => hf a

lemma attempt_bind {f : Except Err α → M β} (hp : Obeys K p)
    (hf : ∀ r, (f r).Under K Q) : (p.attempt >>= f).Under K Q :=
  Prog.Under.attempt_bind hp (fun a _ => hf (.ok a)) fun e => hf (.error e)

lemma modality : Prog.Modality fun _ p => Obeys K p where
  pure := pure
  bind := bind
  fail _ := trivial
  attempt hp := hp.attempt.mono fun _ _ => trivial

lemma ignore (hp : Obeys K p) : Obeys K p.ignore := modality.ignore hp

lemma call {c : Call} (hc : K.allows c) : Obeys K (ask c) := ⟨hc, fun _ _ => trivial⟩

lemma of_under {Q : α → Prop} (h : p.Under K Q) : Obeys K p :=
  h.mono fun _ _ => trivial

lemma of_makes (h : Makes K.allows p) : Obeys K p :=
  Prog.Under.of_only h fun _ _ => trivial

end Obeys


/-- A specification that `CreateDeployment` lets through is stored as one that may be stored. -/
def Admits (K : Regime Call.Res) (T : Terms) (spec : DeploymentSpec) : Prop :=
  blank spec.name = false → blank spec.image = false →
    (admitSpec spec.withDefaults).Under K fun _ => T.spec spec.withDefaults.admitted

/-- A call and what is assumed of its answer. -/
lemma under_ask_bind {c : Call} {f : c.Res → M β} (hc : K.allows c)
    (hf : ∀ a, K.answers c a → (f a).Under K Q) : (ask c >>= f).Under K Q :=
  Prog.Under.bind (Prog.Under.issue hc fun _ h => h) hf

/-- A lookup and what is assumed of the record. -/
lemma under_find {t : Tbl} {k : String} (hc : K.allows (.get t k)) :
    (StateStore.find t k).Under K fun v => K.answers (.get t k) (some v) := by
  refine under_ask_bind hc fun found hfound => ?_
  cases found with
  | some v => exact hfound
  | none => trivial

namespace Covers

variable (h : Covers K T)

include h

variable {dep : Deployment} {id : String}

lemma hasCommon : HasCommon K.allows := ⟨h.common⟩

lemma ask_bind {c : Call} (hc : c.common = true) {f : c.Res → M β}
    (hf : ∀ a, (f a).Under K Q) : (ask c >>= f).Under K Q :=
  under_ask_bind (h.common c hc) fun a _ => hf a

lemma now_bind {f : Time → M β} (hf : ∀ t, (f t).Under K Q) : (timeNow >>= f).Under K Q :=
  h.ask_bind (c := .now) rfl hf

lemma makes {p : M α} (hp : ∀ [HasCommon K.allows], Makes K.allows p) : Obeys K p :=
  have := h.hasCommon
  .of_makes hp

lemma withLock {p : M α} (hp : Obeys K p) : Obeys K (Orchestrator.withLock p) :=
  h.ask_bind (c := .lock) rfl fun _ => hp.attempt_bind fun r =>
    h.ask_bind (c := .unlock) rfl fun _ => by cases r <;> trivial

lemma orNow (t : Time) : Obeys K (Orchestrator.orNow t) := h.makes (.orNow t)

lemma upsertNode (n : Node) : Obeys K (StateStore.upsertNode n) :=
  (h.orNow _).bind fun _ => Obeys.call (h.reserve _)

lemma upsertWorkload {v : Workload} (hv : T.Fits v) : Obeys K (StateStore.upsertWorkload v) :=
  h.now_bind fun _ => Obeys.call (h.mark _ hv)

lemma enqueueAssignment (a : Assignment) : Obeys K (StateStore.enqueueAssignment a) := by
  have := h.hasCommon
  exact .of_makes (.enqueueAssignment fun _ => h.enqueue _)

lemma updateDeployment {d : Deployment} (hd : T.Meets d.core) :
    Obeys K (StateStore.updateDeployment d) := Obeys.call (h.write d hd)

lemma listWorkloads : StateStore.listWorkloads.Under K fun l => ∀ v ∈ l, T.Fits v :=
  Prog.Under.issue (h.common _ rfl) (h.listed "")

lemma deployed (id : String) :
    (StateStore.listWorkloadsByDeployment id).Under K fun l => ∀ v ∈ l, T.Fits v :=
  h.listWorkloads.bind fun _ hl v hv => hl v (List.mem_of_mem_filter hv)

lemma getDeployment {k : String} (hk : T.ids k) :
    (StateStore.getDeployment k).Under K fun d => T.Meets d.core :=
  (under_find (h.lookup k)).mono fun d hd => h.found k d hk hd

lemma getNode (id : String) : Obeys K (StateStore.getNode id) :=
  Obeys.of_under (under_find (h.common (.get .node id) rfl))

/-- A record with the core of a deployment is computed, and then used. -/
lemma keepsCore_bind {c : DepCore} {p : M Deployment} (hp : KeepsCore c p)
    {f : Deployment → M β} (hf : ∀ d : Deployment, d.core = c → (f d).Under K Q) :
    (p >>= f).Under K Q := by
  have hp' : p.Under K fun d => d.core = c := by
    refine Prog.Under.of_only (hp.weaken fun c hc => h.common c (Call.common_of_oracle hc)) ?_
    rintro d ⟨_, ⟨⟩, hd⟩
    exact hd
  exact hp'.bind hf

/-! ### A pass over a deployment -/

lemma terminateWorkload {v : Workload} (hv : T.Fits v) : Obeys K (terminateWorkload v) :=
  Obeys.bind (h.upsertWorkload (v := { v with status := .terminating }) hv) fun _ =>
    h.enqueueAssignment _

lemma terminateEach {l : List Workload} (hl : ∀ v ∈ l, T.Fits v) :
    Obeys K (Prog.forEach l enqueueDeleteForWorkload) :=
  Prog.Under.forEach fun v hv => h.terminateWorkload (hl v hv)

lemma scaleDown (dep : Deployment) (plan : RolloutPlan) {old : List Workload} (total : ℤ)
    (hold : ∀ v ∈ old, T.Fits v) : Obeys K (scaleDown dep plan old total) := by
  refine Obeys.bind (Prog.Under.onlyIf fun _ => ?_) fun _ => (h.deployed _).bind fun l hl =>
    Prog.Under.onlyIf fun _ => ?_
  · exact h.terminateEach fun v hv => hold v (mem_pickScaleDownVictims hv).1
  · exact h.terminateEach fun v hv => hl v (List.mem_of_mem_filter (mem_pickScaleDownVictims hv).1)

lemma finishPass (hd : T.Meets dep.core) (plan : RolloutPlan) :
    Obeys K (finishPass dep plan) := by
  refine (h.deployed _).bind fun l hl => Obeys.bind (Prog.Under.onlyIf fun _ => ?_) fun _ =>
    (h.deployed _).bind fun _ _ => h.keepsCore_bind (keepsCore_rolloutStatus dep _ _) ?_
  · refine h.scaleDown _ _ _ fun v hv => hl v ?_
    exact List.mem_of_mem_filter (List.mem_of_mem_filter hv)
  · intro d hc
    exact h.updateDeployment (hc ▸ hd)

lemma placementFailed (hd : T.Meets dep.core) (phase : RolloutPhase)
    (e : Err) : Obeys K (placementFailed dep phase e) :=
  h.now_bind fun _ => h.now_bind fun _ => h.now_bind fun _ => h.now_bind fun _ =>
    h.updateDeployment hd

/-- A revision of the history takes the place of the specification. -/
lemma rollbackTo (hd : T.Meets dep.core) {rev : ℤ}
    {target : DeploymentRevision} (hrev : dep.revision? rev = some target) (now : Time) :
    T.Meets (dep.rollbackTo target now).core := by
  have htarget : T.spec target.spec.normalized :=
    h.normal _ (hd.history target (List.mem_of_find?_eq_some hrev))
  refine ⟨hd.id, htarget, fun r hr => ?_⟩
  rcases List.mem_append.mp hr with hr | hr
  · exact hd.history r hr
  · rw [List.mem_singleton.mp hr]
    exact htarget

lemma rollbackLocked (hd : T.Meets dep.core) (rev : ℤ) (message : String) :
    (rollbackDeploymentLocked dep rev message).Under K fun d => T.Meets d.core := by
  unfold rollbackDeploymentLocked
  split
  · exact hd
  · exact h.now_bind fun now => h.rollbackTo hd ‹_› now

lemma failRollout (hd : T.Meets dep.core) : Obeys K (failRollout dep) := by
  refine h.now_bind fun _ => h.now_bind fun _ => h.now_bind fun _ => ?_
  refine Prog.Under.bind (Q := fun d => T.Meets d.core) ?_ fun d hd' => h.now_bind fun _ =>
    h.updateDeployment hd'
  split
  · refine h.rollbackLocked ?_ _ _
    exact hd
  · exact hd

variable {o : Config}

lemma createWorkload (hd : T.spec dep.spec) :
    Obeys K (createWorkloadForDeployment o dep) := by
  have hchoose : Obeys K (chooseNode o dep) := h.makes (makes_chooseNode h.reserve h.evict dep)
  have hfiles : Obeys K (resolveSecretFilesForDeployment o dep) :=
    h.makes (makes_resolveSecretFiles dep)
  exact hchoose.bind fun _ => h.now_bind fun _ => h.ask_bind (c := .rand) rfl fun _ =>
    h.now_bind fun _ => h.now_bind fun _ => (h.upsertWorkload (h.asked _ hd)).bind fun _ =>
    (h.upsertNode _).bind fun _ => hfiles.bind fun _ => h.enqueueAssignment _

lemma reconcileReplicas (hd : T.Meets dep.core) :
    Obeys K (reconcileReplicas o dep) := by
  refine (h.deployed _).bind fun _ _ => Obeys.bind
    (createReplicas_of Obeys.modality (h.createWorkload hd.spec) _) ?_
  rintro (_ | e)
  · exact h.finishPass hd _
  · exact h.placementFailed hd _ _

lemma prepared (hd : T.Meets dep.core) : T.Meets dep.prepared.core :=
  ⟨hd.id, h.normal _ hd.spec, hd.history⟩

lemma reconcileDeployment (hid : T.ids id) : Obeys K (reconcileDeployment o id) := by
  refine h.withLock ((h.getDeployment hid).bind fun dep hd => ?_)
  refine (h.makes (makes_progressDeadline _)).bind fun late => ?_
  cases late
  · exact h.reconcileReplicas (h.prepared hd)
  · exact h.failRollout (h.prepared hd)

/-! ### The calls of the API on deployments -/

/-- A new deployment is stored if its specification is as it may be, and if the id was free. -/
lemma createDeployment {spec : DeploymentSpec} (hstored : Admits K T spec)
    (hfree : ∀ k, K.answers (.get .deployment k) none → T.ids k) :
    Obeys K (createDeployment o spec) := by
  unfold Orchestrator.createDeployment
  refine Prog.Under.ite (fun _ => trivial) fun hname => Prog.Under.ite (fun _ => trivial)
    fun himage => ?_
  refine (hstored (Bool.eq_false_of_not_eq_true hname)
    (Bool.eq_false_of_not_eq_true himage)).bind fun _ hspec => h.now_bind fun now =>
    h.ask_bind (c := .rand) rfl fun r => ?_
  have hnew : T.ids (deploymentID now r) →
      T.Meets (newDeployment (deploymentID now r) spec.withDefaults.admitted now).core := by
    intro hid
    refine ⟨hid, hspec, fun rev hrev => ?_⟩
    rw [List.mem_singleton.mp hrev]
    exact hspec
  refine Prog.Under.bind (Q := fun _ => T.ids (deploymentID now r)) ?_ fun _ hid =>
    (h.reconcileDeployment hid).bind fun _ =>
    h.keepsCore_bind (keepsCore_createdStatus _) fun d hc =>
    (h.updateDeployment (hc ▸ hnew hid)).ignore.bind fun _ => Obeys.pure d
  refine under_ask_bind (h.lookup _) fun found hfound => ?_
  cases found with
  | some d => trivial
  | none =>
    have hid := hfree _ hfound
    exact Obeys.bind (Obeys.call (h.write _ (hnew hid))) fun _ => hid

lemma deleteDeployment (hid : T.ids id) : Obeys K (deleteDeployment id) :=
  h.withLock ((h.getDeployment hid).bind fun _ hd => h.now_bind fun _ =>
    h.updateDeployment ⟨hd.id, hd.spec, hd.history⟩)

lemma updateSpec {next : DeploymentSpec} (hid : T.ids id)
    (hnext : ∀ old, T.spec old → T.spec (next.inherit old)) :
    Obeys K (Orchestrator.updateDeployment id next) := by
  refine h.withLock ((h.getDeployment hid).bind fun dep hd => h.now_bind fun _ =>
    h.now_bind fun _ => h.now_bind fun _ => ?_)
  have hspec := hnext _ hd.spec
  refine Prog.Under.bind (Q := fun d => T.Meets d.core) ?_ fun d hd' => h.now_bind fun _ =>
    (h.updateDeployment hd').bind fun _ => Obeys.pure _
  split
  · refine h.now_bind fun _ => ⟨hd.id, hspec, fun r hr => ?_⟩
    rcases List.mem_append.mp hr with hr | hr
    · exact hd.history r hr
    · rw [List.mem_singleton.mp hr]
      exact hspec
  · exact ⟨hd.id, hspec, hd.history⟩

lemma rollbackDeployment (hid : T.ids id) (rev : ℤ) :
    Obeys K (rollbackDeployment id rev) := by
  refine h.withLock ((h.getDeployment hid).bind fun dep hd => ?_)
  refine Prog.Under.ite (fun _ => trivial) fun _ => ?_
  dsimp only
  split
  · trivial
  · refine h.now_bind fun now => h.now_bind fun _ => h.now_bind fun _ => h.now_bind fun _ =>
      h.now_bind fun _ => Obeys.bind (h.updateDeployment ?_) fun _ => Obeys.pure _
    exact h.rollbackTo hd ‹_› now

/-! ### The worker protocol -/

lemma settleDeployment (hid : T.ids id) : Obeys K (settleDeployment id) := by
  refine Prog.Under.attempt_bind (h.getDeployment hid) (fun dep hd => ?_) fun _ => Obeys.pure ()
  refine (h.deployed _).bind fun l _ => Prog.Under.ite (fun _ => ?_) fun _ => Obeys.pure ()
  exact h.keepsCore_bind (keepsCore_settledStatus dep l) fun d hc =>
    (h.updateDeployment (hc ▸ hd)).ignore

lemma releaseReservation (v : Workload) : Obeys K (releaseReservation v) :=
  h.makes (makes_releaseReservation h.reserve v)

lemma reportWorkloadStatus {status : WorkloadStatus} (containerID : String)
    (hid : ∀ v : Workload, status = .terminated → K.answers (.get .workload id) (some v) →
      T.ids v.deploymentID) : Obeys K (reportWorkloadStatus id status containerID) := by
  refine Prog.Under.attempt_bind (under_find (h.common (.get .workload id) rfl))
    (fun v hv => ?_) ?_
  · refine Prog.Under.ite (fun hstatus => ?_) fun _ => h.upsertWorkload (h.fetched id v hv)
    exact (h.releaseReservation v).bind fun _ => Obeys.bind (Obeys.call (h.evict _)) fun _ =>
      h.settleDeployment (hid v hstatus hv)
  · rintro (_ | _ | _ | _) <;> trivial

/-! ### Nodes -/

lemma remediate (nodeID : String) : Obeys K (remediateUnhealthyNode nodeID) :=
  h.listWorkloads.bind fun _ hl => Prog.Under.forEach fun v hv =>
    Prog.Under.ite (fun _ => h.terminateWorkload (hl v hv)) fun _ => Obeys.pure ()

lemma rebalance : Obeys K (rebalanceWorkloads o) := by
  refine h.ask_bind (c := .list .node "") rfl fun nodes => ?_
  split
  · exact Obeys.pure ()
  · refine Prog.Under.ite (fun _ => Obeys.pure ()) fun _ => h.listWorkloads.bind fun l hl => ?_
    split
    · exact h.terminateWorkload (hl _ (List.mem_of_find?_eq_some ‹_›))
    · exact Obeys.pure ()

lemma registerNode (node : Node) : Obeys K (registerNode o node) :=
  Prog.Under.ite (fun _ => trivial) fun _ => h.now_bind fun _ => h.now_bind fun _ =>
    (h.upsertNode _).bind fun _ => h.rebalance.ignore

lemma heartbeatNode (nodeID : String) (used : Resource) : Obeys K (heartbeatNode nodeID used) :=
  (h.getNode nodeID).bind fun _ => h.now_bind fun _ => h.now_bind fun _ => h.upsertNode _

lemma drainNode (nodeID : String) : Obeys K (drainNode nodeID) :=
  (h.getNode nodeID).bind fun _ => (h.upsertNode _).bind fun _ => h.remediate nodeID

lemma removeNode (nodeID : String) : Obeys K (removeNode nodeID) :=
  (h.drainNode nodeID).bind fun _ => (h.getNode nodeID).bind fun _ => h.upsertNode _

lemma updateNodeHealth : Obeys K (updateNodeHealth o) :=
  h.ask_bind (c := .list .node "") rfl fun _ => h.now_bind fun _ => Prog.Under.forEach fun _ _ =>
    (h.upsertNode _).bind fun _ => Prog.Under.ite (fun _ => h.remediate _) fun _ => Obeys.pure ()

/-! ### Jobs -/

/-- A job is stored under the id that it comes with, or under one that is made from the time. -/
lemma upsertJob {job : Job} (hput : ∀ j : Job, j.spec.template = job.spec.template →
      j.spec.nameSpace = (if blank job.spec.nameSpace then "default" else job.spec.nameSpace) →
      (if blank job.id then ∃ t, K.answers .now t ∧ j.id = jobID t else j.id = job.id) →
      K.allows (.put .job j)) : Obeys K (upsertJob job) := by
  refine Prog.Under.ite (fun _ => trivial) fun _ => Prog.Under.bind (Q := fun id =>
    if blank job.id then ∃ t, K.answers .now t ∧ id = jobID t else id = job.id) ?_ fun id hid => ?_
  · refine Prog.Under.ite (fun hblank => ?_) fun hblank => ?_
    · simp only [hblank, if_true]
      exact under_ask_bind (h.common .now rfl) fun t ht => ⟨t, ht, rfl⟩
    · simp only [hblank]
      exact rfl
  · refine Obeys.bind ?_ fun _ => h.makes (.lookup (by decide) _)
    exact (h.orNow _).bind fun _ => h.now_bind fun _ => Obeys.call (hput _ rfl rfl hid)

end Covers

/-! ### A controller pass -/

/-- The regime has the terms, for the calls of a controller pass. -/
structure CoversPass (K : Regime Call.Res) (T : Terms) : Prop extends Covers K T where
  everyID : ∀ k, T.ids k
  remove : ∀ k, K.allows (.deleteDeployment k)
  nameSpace : ∀ ns : Namespace, K.allows (.put .nameSpace ns)
  endpoints : ∀ id eps, K.allows (.replaceServiceEndpoints id eps)
  volume : ∀ v : PersistentVolume, K.allows (.put .volume v)
  bind : ∀ c : PersistentVolumeClaim, c.phase = .bound → K.allows (.put .claim c)
  policies : ∀ pfx (l : List AutoscalerPolicy), K.answers (.list .policy pfx) l →
    ∀ p ∈ l, T.bounds p.minReplicas p.maxReplicas
  policy : ∀ p : AutoscalerPolicy, T.bounds p.minReplicas p.maxReplicas → K.allows (.put .policy p)
  scale : ∀ s fl (p : AutoscalerPolicy) usage current, T.spec s →
    T.bounds p.minReplicas p.maxReplicas →
    T.spec { s with replicas := Int64.ofInt (recommendedReplicas fl p usage current) }
  jobs : ∀ pfx (l : List Job), K.answers (.list .job pfx) l → ∀ j ∈ l, T.blueprint j.blueprint
  job : ∀ j : Job, T.blueprint j.blueprint → K.allows (.put .job j)
  removeJob : ∀ k, K.allows (.del .job k)
  cronJobs : ∀ pfx (l : List CronJob), K.answers (.list .cronJob pfx) l →
    ∀ c ∈ l, T.blueprint c.blueprint
  cronJob : ∀ c : CronJob, T.blueprint c.blueprint → K.allows (.put .cronJob c)
  start : ∀ j : Job, T.blueprint j.blueprint → Admits K T j.deploymentSpec

namespace CoversPass

variable (h : CoversPass K T) {o : Config}

include h

variable {job : Job}

lemma reconcileDeletion (id : String) : Obeys K (reconcileDeletion id) := by
  refine h.withLock ((h.getDeployment (h.everyID id)).bind fun dep hd =>
    (h.deployed id).bind fun l hl => Obeys.bind ?_ fun _ => ?_)
  · exact Prog.Under.forEach fun v hv => Prog.Under.ite (fun _ => Obeys.pure ()) fun _ =>
      h.terminateWorkload (hl v hv)
  · refine Prog.Under.ite (fun _ => Obeys.pure ()) fun _ => Prog.Under.ite (fun _ => ?_) fun _ => ?_
    · exact h.updateDeployment ⟨hd.id, hd.spec, hd.history⟩
    · exact Obeys.call (h.remove _)

lemma reconcileListed (dep : Deployment) : Obeys K (reconcileListed o dep) :=
  Prog.Under.ite (fun _ => (h.reconcileDeletion _).ignore) fun _ =>
    (h.reconcileDeployment (h.everyID _)).ignore

lemma storePolicy {p : AutoscalerPolicy} (hp : T.bounds p.minReplicas p.maxReplicas) :
    Obeys K (StateStore.upsertAutoscalerPolicy p) :=
  (h.orNow _).bind fun _ => Obeys.call (h.policy _ hp)

lemma autoscalePolicy (now : Time) {p : AutoscalerPolicy}
    (hp : T.bounds p.minReplicas p.maxReplicas) : Obeys K (autoscalePolicy o now p) := by
  refine Prog.Under.attempt_bind (h.getDeployment (h.everyID _)) (fun dep hd => ?_)
    fun _ => Obeys.pure ()
  refine Obeys.bind ?_ fun samples => Prog.Under.ite (fun _ => Obeys.pure ()) fun _ => ?_
  · exact h.ask_bind (c := .list .metric _) rfl fun _ => Obeys.pure _
  · refine Obeys.bind (h.updateDeployment ?_) fun _ => ?_
    · exact ⟨hd.id, h.scale _ _ p _ _ hd.spec hp, hd.history⟩
    · refine h.storePolicy ?_
      exact hp

lemma reconcileAutoscaling : Obeys K (reconcileAutoscaling o) :=
  under_ask_bind (h.common (.list .policy "") rfl) fun l hl => h.now_bind fun now =>
    Prog.Under.forEach fun p hp => h.autoscalePolicy now (h.policies "" l hl p hp)

lemma maybeAutoRollback (dep : Deployment) : Obeys K (maybeAutoRollbackForFailures dep) :=
  Prog.Under.ite (fun _ => Obeys.pure ()) fun _ => (h.deployed _).bind fun _ _ =>
    Prog.Under.ite (fun _ => Obeys.pure ()) fun _ =>
    (h.rollbackDeployment (h.everyID _) _).ignore

lemma evaluateWorkloadHealth : Obeys K evaluateWorkloadHealth := by
  refine h.listWorkloads.bind fun l hl => h.ask_bind (c := .list .deployment "") rfl fun _ =>
    h.now_bind fun _ => Prog.Under.forEach fun v hv => ?_
  split
  · exact Obeys.pure ()
  · refine Obeys.bind (h.upsertWorkload ?_) fun _ => h.maybeAutoRollback _
    exact hl v hv

lemma storeJob (hj : T.blueprint job.blueprint) :
    Obeys K (StateStore.upsertJob job) :=
  h.makes (makes_storeJob fun j hspec => h.job j (by rwa [Job.blueprint, hspec]))

lemma runCronJob (now : Time) {cj : CronJob} (hcj : T.blueprint cj.blueprint) :
    Obeys K (runCronJob now cj) :=
  h.makes (makes_runCronJob now (fun j ht => h.job j (ht ▸ hcj)) fun c ht => h.cronJob c (ht ▸ hcj))

lemma reconcileJob (now : Time) (hj : T.blueprint job.blueprint) :
    Obeys K (reconcileJob o now job) := by
  refine reconcileJob_of Obeys.modality (h.createDeployment (h.start job hj) fun k _ => h.everyID k)
    ?_ (.of_under (h.deployed _)) (fun k => h.deleteDeployment (h.everyID k)) (Obeys.call (h.removeJob _))
  intro j ht
  exact h.storeJob (ht ▸ hj)

lemma listJobs (ns : String) :
    (StateStore.listJobs ns).Under K fun l => ∀ j ∈ l, T.blueprint j.blueprint :=
  under_ask_bind (h.common (.list .job "") rfl) fun l hl => Prog.Under.ite
    (fun _ => h.jobs "" l hl) fun _ j hj => h.jobs "" l hl j (List.mem_of_mem_filter hj)

lemma listCronJobs (ns : String) :
    (StateStore.listCronJobs ns).Under K fun l => ∀ c ∈ l, T.blueprint c.blueprint :=
  Prog.Under.issue (h.common _ rfl) fun l hl => h.cronJobs _ l hl

omit h in
/-- What holds of the elements of all lists holds of those of the first and of the others. -/
lemma mem_lists {P : β → Prop} {first : List β} {rest : List (List β)} (hfirst : ∀ x ∈ first, P x)
    (hrest : ∀ l ∈ rest, ∀ x ∈ l, P x) : ∀ x ∈ first ++ rest.flatten, P x := by
  intro x hx
  rcases List.mem_append.mp hx with hx | hx
  · exact hfirst x hx
  · obtain ⟨l, hl, hxl⟩ := List.mem_flatten.mp hx
    exact hrest l hl x hxl

lemma reconcileJobsAndCron : Obeys K (reconcileJobsAndCron o) := by
  refine (h.listCronJobs _).bind fun firstCron hfirst =>
    h.ask_bind (c := .list .nameSpace "") rfl fun namespaces =>
    (Prog.Under.mapEach fun _ _ => h.listCronJobs _).bind fun restCron hrest =>
    h.now_bind fun now => Obeys.bind ?_ fun _ => (h.listJobs _).bind fun firstJobs hjobs =>
    (Prog.Under.mapEach fun _ _ => h.listJobs _).bind fun restJobs hrestJobs => ?_
  · exact Prog.Under.forEach fun cj hcj => h.runCronJob now (mem_lists hfirst hrest cj hcj)
  · exact Prog.Under.forEach fun j hj => h.reconcileJob now (mem_lists hjobs hrestJobs j hj)

lemma reconcilePVCBindings : Obeys K reconcilePVCBindings :=
  h.makes (makes_reconcilePVCBindings h.volume h.bind)

lemma reconcileAllServiceEndpoints : Obeys K reconcileAllServiceEndpoints :=
  h.makes (makes_reconcileAllServiceEndpoints h.endpoints)

lemma reconcileAll : Obeys K (reconcileAll o) :=
  h.ask_bind (c := .list .deployment "") rfl fun _ =>
    Obeys.bind (Prog.Under.forEach fun dep _ => h.reconcileListed dep) fun _ =>
    h.reconcileAutoscaling.ignore.bind fun _ => h.evaluateWorkloadHealth.ignore.bind fun _ =>
    h.reconcileAllServiceEndpoints.ignore.bind fun _ => h.reconcilePVCBindings.ignore.bind fun _ =>
    h.reconcileJobsAndCron.ignore.bind fun _ => h.updateNodeHealth

/-! ### Managers -/

lemma reconcileClusterWide : Obeys K (reconcileClusterWide o) :=
  h.reconcileAutoscaling.bind fun _ => h.evaluateWorkloadHealth.bind fun _ =>
    h.reconcileAllServiceEndpoints.bind fun _ => h.reconcilePVCBindings.bind fun _ =>
    h.reconcileJobsAndCron

lemma reconcileIfOwned (i n : ℤ) (dep : Deployment) : Obeys K (reconcileIfOwned o i n dep) := by
  have howned : Obeys K (belongsToShard dep.id i n) :=
    Prog.Under.ite (fun _ => trivial) fun _ => trivial
  exact howned.bind fun _ => Prog.Under.ite (fun _ => h.reconcileListed dep) fun _ => Obeys.pure ()

lemma reconcileShard (i n : ℤ) : Obeys K (reconcileShard o i n) :=
  Prog.Under.ite (fun _ => h.reconcileAll) fun _ =>
    h.ask_bind (c := .list .deployment "") rfl fun _ =>
    Obeys.bind (Prog.Under.forEach fun dep _ => h.reconcileIfOwned i n dep) fun _ =>
    Obeys.bind (Prog.Under.onlyIf fun _ => h.reconcileClusterWide) fun _ => h.updateNodeHealth

lemma tryAcquire (hlease : ∀ v, K.allows (.put .lease v)) (id : String) (duration : ℤ) :
    Obeys K (tryAcquireControllerLeadership id duration) := by
  refine Prog.Under.ite (fun _ => trivial) fun _ => h.now_bind fun now =>
    Obeys.attempt_bind ?_ fun found => Prog.Under.ite (fun _ => ?_) fun _ => Obeys.pure _
  · exact h.ask_bind (c := .get .lease _) rfl fun a => by
      cases a <;> trivial
  · exact Obeys.bind ((h.orNow _).bind fun _ => Obeys.call (hlease _)) fun _ => Obeys.pure _

lemma tick (hlease : ∀ v, K.allows (.put .lease v)) (m : Manager) : Obeys K (m.tick o) := by
  refine (h.tryAcquire hlease _ _).attempt_bind fun r => ?_
  cases r with
  | error e => exact Obeys.pure ()
  | ok a => exact Prog.Under.ite (fun _ => (h.reconcileShard _ _).ignore) fun _ => Obeys.pure ()

end CoversPass

end Orchestrator
