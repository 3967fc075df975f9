/-
# The operations of the API under a regime

The functions of the service that store the records of a namespace, one lemma for each, with what
they may assume of the record that they store.  `CoversApi` collects what a regime has to allow
so that every operation of the API keeps it; what is left to show for the operation at hand is
`Operation.Fits`.
-/
import Orchestrator.Logic.Requests

namespace Orchestrator

open Lib

variable {K : Regime Call.Res} {T : Terms} {s : HTTPServer}

namespace Covers

variable (h : Covers K T)

include h

lemma find {t : Tbl} (ht : t ≠ .deployment) (k : String) : Obeys K (StateStore.find t k) :=
  h.makes (.lookup ht k)

/-- A record is stored with its times filled in. -/
lemma stamped {created : Time} {f : Time → Time → M Unit} (hf : ∀ t₁ t₂, Obeys K (f t₁ t₂)) :
    Obeys K (Orchestrator.orNow created >>= fun t₁ => timeNow >>= fun t₂ => f t₁ t₂) :=
  (h.orNow _).bind fun t₁ => h.now_bind fun t₂ => hf t₁ t₂

lemma upsertPolicy {p : AutoscalerPolicy} (hput : ∀ q : AutoscalerPolicy,
      q.minReplicas = p.withDefaults.minReplicas → q.maxReplicas = p.withDefaults.maxReplicas →
      K.allows (.put .policy q)) : Obeys K (upsertAutoscalerPolicy p) := by
  refine Prog.Under.ite (fun _ => trivial) fun _ =>
    (Obeys.of_under (under_find (h.lookup _))).bind fun _ => Obeys.bind ?_ fun _ =>
    (h.orNow _).bind fun _ => h.now_bind fun _ => Obeys.bind ?_ fun _ => Obeys.pure _
  · exact Prog.Under.ite (fun _ => h.now_bind fun _ => h.ask_bind (c := .rand) rfl fun _ =>
      Obeys.pure _) fun _ => Obeys.pure _
  · exact (h.orNow _).bind fun _ => Obeys.call (hput _ rfl rfl)

lemma ingestMetric (hput : ∀ m : DeploymentMetricSample, K.allows (.put .metric m))
    (sample : DeploymentMetricSample) : Obeys K (ingestDeploymentMetric sample) := by
  have hid : ∀ (c : Prop) [Decidable c] (p : M String) (x : String), Obeys K p →
      Obeys K (if c then p else pure x) :=
    fun c _ p x hp => Prog.Under.ite (fun _ => hp) fun _ => Obeys.pure x
  refine Prog.Under.ite (fun _ => trivial) fun _ =>
    (Obeys.of_under (under_find (h.lookup _))).bind fun _ => (h.orNow _).bind fun _ =>
    Obeys.bind (hid _ _ _ (h.ask_bind (c := .rand) rfl fun _ => Obeys.pure _)) fun _ => ?_
  exact Obeys.bind (hid _ _ _ (h.now_bind fun _ => Obeys.pure _)) fun _ =>
    (h.orNow _).bind fun _ => Obeys.call (hput _)

lemma createNamespace (hns : ∀ ns : Namespace, K.allows (.put .nameSpace ns)) (ns : Namespace) :
    Obeys K (createNamespace ns) := by
  refine Prog.Under.ite (fun _ => trivial) fun _ => h.now_bind fun _ =>
    Obeys.bind (h.ask_bind (c := .get .nameSpace _) rfl fun found => ?_) fun _ => Obeys.pure _
  cases found with
  | some _ => trivial
  | none => exact (h.orNow _).bind fun _ => Obeys.call (hns _)

section Namespaced

variable (hns : ∀ ns : Namespace, K.allows (.put .nameSpace ns))

include hns

lemma ensureNamespace (ns : String) : Obeys K (ensureNamespaceExists ns) :=
  h.makes (makes_ensureNamespaceExists hns ns)

/-- A service is stored under an id that was free. -/
lemma createService (heps : ∀ id eps, K.allows (.replaceServiceEndpoints id eps))
    {spec : ServiceSpec} (hput : ∀ svc : Service,
      svc.spec.nameSpace = orDefault spec.nameSpace → K.answers (.get .service svc.id) none →
      K.allows (.put .service svc)) : Obeys K (createService spec) := by
  refine Prog.Under.ite (fun _ => trivial) fun _ => Prog.Under.ite (fun _ => trivial) fun _ =>
    Prog.Under.ite (fun _ => trivial) fun _ => (h.makes makes_runAdmissionCheck).bind fun _ =>
    (h.ensureNamespace hns _).bind fun _ => h.now_bind fun now =>
    h.ask_bind (c := .rand) rfl fun _ => Obeys.bind ?_ fun _ =>
    (h.makes (makes_reconcileServiceEndpoints heps _)).bind fun _ => Obeys.pure _
  refine under_ask_bind (h.common (.get .service _) rfl) fun found hfound => ?_
  cases found with
  | some _ => trivial
  | none => exact Obeys.call (hput _ rfl hfound)

lemma upsertQuota (hput : ∀ q : NamespaceQuota, K.allows (.put .quota q))
    (quota : NamespaceQuota) : Obeys K (upsertNamespaceQuota quota) :=
  Prog.Under.ite (fun _ => trivial) fun _ => (h.ensureNamespace hns _).bind fun _ =>
    Prog.Under.ite (fun _ => trivial) fun _ =>
    Obeys.bind (h.stamped fun _ _ => Obeys.call (hput _)) fun _ => h.find (by decide) _

lemma upsertSecret {o : Config} {encrypt : StrMap → Except String StrMap} {secret : Secret}
    (hput : ∀ v : Secret, v.nameSpace = orDefault secret.nameSpace → v.name = secret.name →
      K.allows (.put .secret v)) : Obeys K (upsertSecret o encrypt secret) := by
  refine Prog.Under.ite (fun _ => trivial) fun _ => (h.ensureNamespace hns _).bind fun _ => ?_
  dsimp only
  split
  · trivial
  · exact Obeys.bind (h.stamped fun _ _ => Obeys.call (hput _ rfl rfl)) fun _ =>
      (h.find (by decide) _).bind fun _ => Obeys.pure _

lemma upsertNetworkPolicy {policy : NetworkPolicy}
    (hput : ∀ p : NetworkPolicy, p.nameSpace = orDefault policy.nameSpace → p.name = policy.name →
      K.allows (.put .networkPolicy p)) : Obeys K (upsertNetworkPolicy policy) :=
  Prog.Under.ite (fun _ => trivial) fun _ => Prog.Under.ite (fun _ => trivial) fun _ =>
    (h.ensureNamespace hns _).bind fun _ =>
    Obeys.bind (h.stamped fun _ _ => Obeys.call (hput _ rfl rfl)) fun _ => h.find (by decide) _

lemma admitClaim {pvc : PersistentVolumeClaim}
    (hput : ∀ c : PersistentVolumeClaim, c.nameSpace = pvc.home → c.name = pvc.name →
      K.allows (.put .claim c)) : Obeys K (admitClaim pvc) :=
  Prog.Under.ite (fun _ => trivial) fun _ => Prog.Under.ite (fun _ => trivial) fun _ =>
    (h.ensureNamespace hns _).bind fun _ => h.stamped fun _ _ => Obeys.call (hput _ rfl rfl)

lemma upsertClaim {pvc : PersistentVolumeClaim}
    (hput : ∀ c : PersistentVolumeClaim, c.nameSpace = pvc.home → c.name = pvc.name →
      K.allows (.put .claim c)) (hbind : Obeys K reconcilePVCBindings) :
    Obeys K (upsertPersistentVolumeClaim pvc) :=
  (h.admitClaim hns hput).bind fun _ => hbind.bind fun _ => h.find (by decide) _

end Namespaced

lemma upsertVolume (hput : ∀ v : PersistentVolume, K.allows (.put .volume v))
    (v : PersistentVolume) : Obeys K (upsertPersistentVolume v) :=
  Prog.Under.ite (fun _ => trivial) fun _ => Prog.Under.ite (fun _ => trivial) fun _ =>
    Obeys.bind (h.makes (makes_storeVolume hput _)) fun _ => h.find (by decide) _

lemma upsertCronJob {cj : CronJob}
    (hput : ∀ c : CronJob, c.nameSpace = orDefault cj.nameSpace → c.name = cj.name →
      c.template = cj.template → K.allows (.put .cronJob c)) : Obeys K (upsertCronJob cj) :=
  Prog.Under.ite (fun _ => trivial) fun _ => Prog.Under.ite (fun _ => trivial) fun _ =>
    Obeys.bind (h.stamped fun _ _ => Obeys.call (hput _ rfl rfl rfl)) fun _ => h.find (by decide) _

lemma upsertRoleBinding {b : RoleBinding}
    (hput : ∀ c : RoleBinding, c.nameSpace = b.nameSpace → c.name = b.name →
      c.subject = b.subject → c.roles = b.roles → c.inherits = b.inherits →
      K.allows (.put .roleBinding c)) : Obeys K (upsertRoleBinding b) :=
  Prog.Under.ite (fun _ => trivial) fun _ => Prog.Under.ite (fun _ => trivial) fun _ =>
    Prog.Under.ite (fun _ => trivial) fun _ =>
    Obeys.bind (h.stamped fun _ _ => Obeys.call (hput _ rfl rfl rfl rfl rfl)) fun _ =>
    h.find (by decide) _

end Covers

/-! ### All operations -/

/-- The kinds of records that a regime for the whole API has nothing to say about. -/
def Tbl.incidental : Tbl → Bool
  | .service | .quota | .secret | .claim | .networkPolicy | .metric => true
  | .node | .deployment | .workload | .endpoint | .nameSpace | .volume | .job | .cronJob | .policy
  | .assignment | .lease | .roleBinding => false

/-- The regime has the terms, for the calls of every operation of the API. -/
structure CoversApi (K : Regime Call.Res) (T : Terms) : Prop extends CoversPass K T where
  incidental : ∀ (t : Tbl) (v : t.Val), t.incidental = true → K.allows (.put t v)
  poll : ∀ node max, K.allows (.popAssignments node max)
  removePolicy : ∀ k, K.allows (.del .policy k)
  defaults : ∀ p : AutoscalerPolicy, T.bounds p.withDefaults.minReplicas p.withDefaults.maxReplicas

/-- The same without the records of claims. -/
structure CoversOps (K : Regime Call.Res) (T : Terms) : Prop extends CoversPass K T where
  incidental : ∀ (t : Tbl) (v : t.Val), t.incidental = true → t ≠ .claim → K.allows (.put t v)
  poll : ∀ node max, K.allows (.popAssignments node max)
  removePolicy : ∀ k, K.allows (.del .policy k)
  defaults : ∀ p : AutoscalerPolicy, T.bounds p.withDefaults.minReplicas p.withDefaults.maxReplicas

lemma CoversApi.coversOps (h : CoversApi K T) : CoversOps K T :=
  { h with incidental := fun t v ht _ => h.incidental t v ht }

/-- The calls that the operations and the passes make, apart from those that store role bindings
and leases. -/
def Call.working : Call → Bool
  | .put t _ => decide (t ≠ .roleBinding ∧ t ≠ .lease)
  | .del t _ => decide (t = .workload ∨ t = .job ∨ t = .policy)
  | _ => true

/-- No terms at all. -/
def Terms.free : Terms where
  ids _ := True
  spec _ := True
  replica _ _ := True
  blueprint _ := True
  bounds _ _ := True

section Free

variable {P : Call → Prop} (hP : ∀ c : Call, c.working = true → P c)

include hP

lemma admits_free (spec : DeploymentSpec) : Admits ⟨fun _ _ => True, P⟩ Terms.free spec :=
  have : HasCommon P := ⟨fun c hc => hP c (by cases c <;> first | rfl | cases hc)⟩
  fun _ _ => Obeys.of_makes (makes_admitSpec (fun _ => hP _ rfl) _)

/-- A regime that assumes nothing and allows these calls covers the whole API. -/
lemma coversApi_free : CoversApi ⟨fun _ _ => True, P⟩ Terms.free where
  common c hc := hP c (by cases c <;> first | rfl | cases hc)
  lookup _ := hP _ rfl
  found _ _ _ _ := ⟨trivial, trivial, fun _ _ => trivial⟩
  fetched _ _ _ := trivial
  listed _ _ _ _ _ := trivial
  normal _ _ := trivial
  asked _ _ := trivial
  write _ _ := hP _ rfl
  mark _ _ := hP _ rfl
  evict _ := hP _ rfl
  reserve _ := hP _ rfl
  enqueue _ := hP _ rfl
  everyID _ := trivial
  remove _ := hP _ rfl
  nameSpace _ := hP _ rfl
  endpoints _ _ := hP _ rfl
  volume _ := hP _ rfl
  bind _ _ := hP _ rfl
  policies _ _ _ _ _ := trivial
  policy _ _ := hP _ rfl
  scale _ _ _ _ _ _ _ := trivial
  jobs _ _ _ _ _ := trivial
  job _ _ := hP _ rfl
  removeJob _ := hP _ rfl
  cronJobs _ _ _ _ _ := trivial
  cronJob _ _ := hP _ rfl
  start _ _ := admits_free hP _
  incidental t v ht := hP _ (by cases t <;> first | rfl | cases ht)
  poll _ _ := hP _ rfl
  removePolicy _ := hP _ rfl
  defaults _ := trivial

end Free

/-- What is left to show for an operation. -/
def Operation.Fits (K : Regime Call.Res) (T : Terms) : Operation → Prop
  | createDeployment spec => Admits K T spec
  | updateDeployment _ next => ∀ old, T.spec old → T.spec (next.inherit old)
  | upsertJob job => T.blueprint job.blueprint
  | upsertCronJob cj => T.blueprint cj.blueprint
  | upsertRoleBinding b => Obeys K (Orchestrator.upsertRoleBinding b)
  | _ => True

lemma CoversPass.recoverCluster {o : Config} (h : CoversPass K T) : Obeys K (recoverCluster o) :=
  h.reconcilePVCBindings.bind fun _ => h.reconcileJobsAndCron.bind fun _ => h.reconcileAll

/-- Every operation of the API keeps a regime that covers it, also if claims are not covered and it
does not store one. -/
lemma CoversOps.operation (h : CoversOps K T) (op : Operation) (hop : op.Fits K T)
    (hclaim : ∀ c, op = .upsertClaim c → Obeys K (upsertPersistentVolumeClaim c)) :
    Obeys K (op.program s) := by
  have hall := h.everyID
  cases op with
  | registerNode node => exact (h.registerNode node).ignore
  | drainNode id => exact (h.drainNode id).ignore
  | removeNode id => exact (h.removeNode id).ignore
  | heartbeat id used => exact (h.heartbeatNode id used).ignore
  | poll nodeID max => exact (Obeys.call (h.poll _ _)).ignore
  | report id status containerID =>
    exact (h.reportWorkloadStatus containerID fun v _ _ => hall _).ignore
  | createDeployment spec => exact (h.createDeployment hop fun k _ => hall k).ignore
  | updateDeployment id next => exact (h.updateSpec (hall id) hop).ignore
  | rollbackDeployment id rev => exact (h.rollbackDeployment (hall id) rev).ignore
  | deleteDeployment id => exact (h.deleteDeployment (hall id)).ignore
  | upsertPolicy p =>
    refine (h.upsertPolicy fun q hmin hmax => h.policy q ?_).ignore
    rw [hmin, hmax]
    exact h.defaults p
  | deletePolicy id => exact (Obeys.call (h.removePolicy id)).ignore
  | ingestMetric sample =>
    exact (h.ingestMetric (fun _ => h.incidental .metric _ rfl (by decide)) sample).ignore
  | createService spec =>
    exact (h.createService h.nameSpace h.endpoints fun _ _ _ =>
      h.incidental .service _ rfl (by decide)).ignore
  | createNamespace ns => exact (h.createNamespace h.nameSpace ns).ignore
  | upsertQuota q =>
    exact (h.upsertQuota h.nameSpace (fun _ => h.incidental .quota _ rfl (by decide)) q).ignore
  | upsertSecret v =>
    exact (h.upsertSecret h.nameSpace fun _ _ _ => h.incidental .secret _ rfl (by decide)).ignore
  | upsertVolume v => exact (h.upsertVolume h.volume v).ignore
  | upsertClaim c => exact (hclaim c rfl).ignore
  | upsertNetworkPolicy p =>
    exact (h.upsertNetworkPolicy h.nameSpace fun _ _ _ =>
      h.incidental .networkPolicy _ rfl (by decide)).ignore
  | upsertJob j => exact (h.makes (makes_upsertJob fun j ht => h.job j (ht ▸ hop))).ignore
  | upsertCronJob c =>
    refine (h.upsertCronJob fun q hns _ htemplate => h.cronJob q ?_).ignore
    have hq : q.blueprint = c.blueprint := by
      rw [CronJob.blueprint, hns, htemplate]
      unfold orDefault
      by_cases hblank : blank c.nameSpace = true <;> simp [CronJob.blueprint, hblank]
    rw [hq]
    exact hop
  | upsertRoleBinding b => exact Obeys.ignore hop
  | recover => exact h.recoverCluster.ignore

lemma CoversApi.operation (h : CoversApi K T) (op : Operation) (hop : op.Fits K T) :
    Obeys K (op.program s) :=
  h.coversOps.operation op hop fun _ _ => h.upsertClaim h.nameSpace
    (fun _ _ _ => h.incidental .claim _ rfl) h.reconcilePVCBindings

end Orchestrator
