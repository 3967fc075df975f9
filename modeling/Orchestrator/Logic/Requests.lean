/-
# What a request asks for

A request that reaches its handler either only reads, or carries out one operation of the
service.  `Route.operation` says which one: the handler of the route has decoded and validated
the payload by then.  `obeys_handle` is the bridge to the handlers: a regime that lets a request
read, and that is kept by the operation it asks for, is kept by the handler.
-/
import Orchestrator.Api.Handlers
import Orchestrator.Logic.Regimes

namespace Orchestrator

open Lib

/-! ### Operations -/

/-- The operations of the API that may write to the store. -/
inductive Operation
  | registerNode (node : Node)
  | drainNode (id : String)
  | removeNode (id : String)
  | heartbeat (id : String) (used : Resource)
  | poll (nodeID : String) (max : ℤ)
  | report (id : String) (status : WorkloadStatus) (containerID : String)
  | createDeployment (spec : DeploymentSpec)
  | updateDeployment (id : String) (spec : DeploymentSpec)
  | rollbackDeployment (id : String) (revision : ℤ)
  | deleteDeployment (id : String)
  | upsertPolicy (policy : AutoscalerPolicy)
  | deletePolicy (id : String)
  | ingestMetric (sample : DeploymentMetricSample)
  | createService (spec : ServiceSpec)
  | createNamespace (ns : Namespace)
  | upsertQuota (quota : NamespaceQuota)
  | upsertSecret (secret : Secret)
  | upsertVolume (volume : PersistentVolume)
  | upsertClaim (claim : PersistentVolumeClaim)
  | upsertNetworkPolicy (policy : NetworkPolicy)
  | upsertJob (job : Job)
  | upsertCronJob (cronJob : CronJob)
  | upsertRoleBinding (binding : RoleBinding)
  | recover

/-- The function of the service, with its result dropped. -/
def Operation.program (s : HTTPServer) : Operation → M Unit
  | registerNode node => (Orchestrator.registerNode s.orch node).ignore
  | drainNode id => (Orchestrator.drainNode id).ignore
  | removeNode id => (Orchestrator.removeNode id).ignore
  | heartbeat id used => (heartbeatNode id used).ignore
  | poll nodeID max => (pollAssignments nodeID max).ignore
  | report id status containerID => (reportWorkloadStatus id status containerID).ignore
  | createDeployment spec => (Orchestrator.createDeployment s.orch spec).ignore
  | updateDeployment id spec => (Orchestrator.updateDeployment id spec).ignore
  | rollbackDeployment id revision => (Orchestrator.rollbackDeployment id revision).ignore
  | deleteDeployment id => (Orchestrator.deleteDeployment id).ignore
  | upsertPolicy policy => (upsertAutoscalerPolicy policy).ignore
  | deletePolicy id => (StateStore.deleteAutoscalerPolicy id).ignore
  | ingestMetric sample => (ingestDeploymentMetric sample).ignore
  | createService spec => (Orchestrator.createService spec).ignore
  | createNamespace ns => (Orchestrator.createNamespace ns).ignore
  | upsertQuota quota => (upsertNamespaceQuota quota).ignore
  | upsertSecret secret => (Orchestrator.upsertSecret s.orch s.encryptSecretData secret).ignore
  | upsertVolume volume => (upsertPersistentVolume volume).ignore
  | upsertClaim claim => (upsertPersistentVolumeClaim claim).ignore
  | upsertNetworkPolicy policy => (Orchestrator.upsertNetworkPolicy policy).ignore
  | upsertJob job => (Orchestrator.upsertJob job).ignore
  | upsertCronJob cronJob => (Orchestrator.upsertCronJob cronJob).ignore
  | upsertRoleBinding binding => (Orchestrator.upsertRoleBinding binding).ignore
  | recover => (recoverCluster s.orch).ignore

/-- A payload that is decoded and passes its validation. -/
def accepted {α : Type} (payload : Except String α) (check : α → Option String) : Option α :=
  payload.toOption.filter fun a => (check a).isNone

/-- A payload that is only decoded. -/
def decoded {α : Type} (payload : Except String α) : Option α := accepted payload fun _ => none

/-- An operation that a route has for one method. -/
def Request.on (r : Request) (method : Method) (op : Option Operation) : Option Operation :=
  if r.method = method then op else none

/-- The operation on a deployment that is named in the path. -/
def Request.onDeployment (r : Request) (id : String) (rest : List String) : Option Operation :=
  match r.method with
  | .post => if rest = ["rollback"] then some (.rollbackDeployment id r.body.revision) else none
  | .put =>
    if rest = [] then
      (accepted r.body.deploymentSpec validateDeploymentSpec).map (.updateDeployment id)
    else none
  | .delete => if rest = [] then some (.deleteDeployment id) else none
  | .get | .other _ => none

/-- The operation that the handler of a route carries out for a request. -/
def Route.operation (r : Request) : Route → Option Operation
  | .registerNode => r.on .post ((accepted r.body.node validateNode).map .registerNode)
  | .nodeSubroutes => r.on .post <|
    match r.parts "/v1/nodes/" with
    | [id, sub] =>
      if sub = "drain" then some (.drainNode id)
      else if sub = "remove" then some (.removeNode id)
      else if sub = "heartbeat" then (decoded r.body.used).map (.heartbeat id)
      else none
    | _ => none
  | .workerSubroutes => r.on .get <|
    match r.parts "/v1/workers/" with
    | [id, sub] => if sub = "assignments" then some (.poll id (pollMax r)) else none
    | _ => none
  | .workloadSubroutes => r.on .post <|
    match r.parts "/v1/workloads/" with
    | [id, sub] =>
      if sub = "status" then (decoded r.body.status).map fun x => .report id x.1 x.2 else none
    | _ => none
  | .deployments => r.on .post <|
    (accepted r.body.deploymentSpec validateDeploymentSpec).map .createDeployment
  | .deploymentByID =>
    match r.parts "/v1/deployments/" with
    | id :: rest => if blank id then none else r.onDeployment id rest
    | [] => none
  | .autoscalers => r.on .post <|
    (accepted r.body.policy validateAutoscalerPolicy).map .upsertPolicy
  | .autoscalerByID => r.on .delete <|
    match r.parts "/v1/autoscalers/" with
    | [id] => if blank id then none else some (.deletePolicy id)
    | _ => none
  | .deploymentMetrics => r.on .post <|
    (accepted r.body.metric validateDeploymentMetricSample).map .ingestMetric
  | .services => r.on .post <|
    (accepted r.body.serviceSpec validateServiceSpec).map .createService
  | .namespaces => r.on .post <|
    (accepted r.body.nameSpace fun ns => required ns.name "namespace name is required").map
      .createNamespace
  | .quotas => r.on .post <|
    (accepted r.body.quota fun q => required q.nameSpace "namespace is required").map .upsertQuota
  | .secrets => r.on .post <|
    (accepted r.body.secret fun s => required s.name "secret name is required").map .upsertSecret
  | .persistentVolumes => r.on .post ((decoded r.body.volume).map .upsertVolume)
  | .persistentVolumeClaims => r.on .post ((decoded r.body.claim).map .upsertClaim)
  | .networkPolicies => r.on .post ((decoded r.body.networkPolicy).map .upsertNetworkPolicy)
  | .jobs => r.on .post ((decoded r.body.job).map .upsertJob)
  | .cronJobs => r.on .post ((decoded r.body.cronJob).map .upsertCronJob)
  | .roleBindings => r.on .post ((decoded r.body.binding).map .upsertRoleBinding)
  | .recoveryRun => r.on .post (some .recover)
  | .healthz | .rendering | .cluster | .serviceSubroutes | .dnsResolve | .dnsSidecarResolve
  | .networkServiceSubroutes => none

/-- The operation that a request asks for, once it has passed the middleware. -/
def Request.operation (r : Request) : Option Operation :=
  if r.canonical then (route r.path).bind (Route.operation r) else none

variable {K : Regime Call.Res} {α : Type} {s : HTTPServer} {m : Memory} {r : Request}
  {payload : Except String α} {p : M α} {method : Method} {k : α → M Response}

/-- The specification of a deployment that the operation brings has passed validation. -/
def Operation.Validated : Operation → Prop
  | createDeployment spec | updateDeployment _ spec => validateDeploymentSpec spec = none
  | _ => True

lemma check_of_accepted {check : α → Option String} {a : α}
    (h : accepted payload check = some a) : check a = none := by
  have := (Option.filter_eq_some_iff.mp h).2
  simpa using this

lemma validated_onDeployment {id : String} {rest : List String} {op : Operation}
    (h : r.onDeployment id rest = some op) : op.Validated := by
  unfold Request.onDeployment at h
  split at h
  · split_ifs at h
    cases h
    trivial
  · split_ifs at h
    obtain ⟨spec, hspec, rfl⟩ := Option.map_eq_some_iff.mp h
    exact check_of_accepted hspec
  · split_ifs at h
    cases h
    trivial
  · cases h
  · cases h

/-- The handlers validate the specifications of deployments. -/
lemma validated_of_operation {op : Operation} (hop : r.operation = some op) : op.Validated := by
  unfold Request.operation at hop
  split_ifs at hop
  obtain ⟨rt, -, hrt⟩ := Option.bind_eq_some_iff.mp hop
  have hon : ∀ {method : Method} {o : Option Operation}, r.on method o = some op → o = some op := by
    intro method o h
    unfold Request.on at h
    split_ifs at h
    exact h
  cases rt with
  | deployments =>
    obtain ⟨spec, hspec, rfl⟩ := Option.map_eq_some_iff.mp (hon hrt)
    exact check_of_accepted hspec
  | deploymentByID =>
    simp only [Route.operation] at hrt
    split at hrt
    · split_ifs at hrt
      exact validated_onDeployment hrt
    · cases hrt
  | nodeSubroutes | workerSubroutes | workloadSubroutes | autoscalerByID =>
    have h := hon hrt
    split at h
    · split_ifs at h <;> first | (cases h; trivial) |
        (obtain ⟨_, _, rfl⟩ := Option.map_eq_some_iff.mp h; trivial)
    · cases h
  | recoveryRun =>
    cases hon hrt
    trivial
  | healthz | rendering | cluster | serviceSubroutes | dnsResolve | dnsSidecarResolve
  | networkServiceSubroutes => cases hrt
  | _ =>
    obtain ⟨_, _, rfl⟩ := Option.map_eq_some_iff.mp (hon hrt)
    trivial

/-! ### Programs that only look at the store -/

/-- The calls that look at the store. -/
def Call.looks : Call → Bool
  | .get _ _ | .list _ _ => true
  | .now | .rand | .admission | .external | .lock | .unlock | .put _ _ | .del _ _
  | .deleteDeployment _ | .popAssignments _ _ | .replaceServiceEndpoints _ _ => false

/-- The program only looks at the store. -/
abbrev Looks (p : M α) : Prop := Makes (fun c => c.looks = true) p

lemma Call.reads_of_looks {c : Call} (h : c.looks = true) : c.reads = true := by
  cases c <;> first | rfl | exact h

lemma exec_of_looks (env env' : Env) {c : Call} (hc : c.looks = true) {w w' : World}
    (h : w.store = w'.store) : exec env c w = ((exec env' c w').1, w) := by
  cases c with
  | get t k | list t pfx => simp only [exec, h]
  | _ => cases hc

/-- Such a program leaves the world as it is, and its result depends on the store only. -/
lemma Looks.run (hp : Looks p) (env env' : Env) {w w' : World}
    (h : w.store = w'.store) : p.run (exec env) w = (p.result (exec env') w', w) := by
  induction p with
  | ret r => rfl
  | call c k ih =>
    have hc := exec_of_looks env env' hp.1 h
    have hc' := exec_of_looks env' env' hp.1 (rfl : w'.store = w'.store)
    change Prog.run (exec env) (k (exec env c w).1) (exec env c w).2 =
      ((Prog.run (exec env') (k (exec env' c w').1) (exec env' c w').2).1, w)
    rw [hc, hc']
    exact ih _ (hp.2 _)

lemma looks_find (t : Tbl) (k : String) : Looks (StateStore.find t k) := by
  refine Makes.bind (Makes.call (c := .get t k) rfl) fun found => ?_
  cases found <;> trivial

lemma looks_list (t : Tbl) (pfx : String) : Looks (ask (.list t pfx)) := Makes.call rfl

lemma looks_findServiceByName (name : String) : Looks (findServiceByName name) := by
  refine (looks_list .service "").bind fun services => ?_
  cases services.find? (Service.called name) <;> trivial

lemma looks_selectServiceEndpoint (b : Balancer) (serviceID strategy : String) :
    Looks (selectServiceEndpoint b serviceID strategy) := by
  refine (looks_find .service serviceID).attempt_bind fun r => ?_
  cases r with
  | error e => trivial
  | ok svc => exact (looks_list _ _).bind fun _ => (looks_list _ _).bind fun _ => trivial

lemma looks_routeServiceTraffic (b : Balancer) (name strategy : String) :
    Looks (routeServiceTraffic b name strategy) := by
  refine (looks_findServiceByName name).attempt_bind fun r => ?_
  cases r with
  | error e => trivial
  | ok svc =>
    refine (looks_selectServiceEndpoint b svc.id strategy).bind ?_
    rintro ⟨_ | target, b⟩ <;> trivial

lemma on_map {r : Request} {x : Option α} {a : α} {f : α → Operation}
    (hm : r.method = method) (ha : x = some a) : r.on method (x.map f) = some (f a) := by
  rw [Request.on, if_pos hm, ha]
  rfl

/-! ### The parts of a handler -/

lemma Obeys.of_ignore (h : Obeys K p.ignore) : Obeys K p := by
  induction p with
  | ret r => cases r <;> trivial
  | call c k ih => exact ⟨h.1, fun a ha => ih a (h.2 a ha)⟩

lemma obeys_answer (hp : Obeys K p) (ok : α → Response) (failed : Err → Response) :
    Obeys K (answer p ok failed) :=
  hp.attempt_bind fun r => by cases r <;> trivial

lemma obeys_decoding
    (hk : ∀ a, payload = .ok a → Obeys K (k a)) : Obeys K (decoding payload k) := by
  cases payload with
  | error e => trivial
  | ok a => exact hk a rfl

lemma obeys_validating {failure : Option String} {message : String} {k : M Response}
    (hk : failure = none → Obeys K k) : Obeys K (validating failure message k) := by
  cases failure with
  | some e => trivial
  | none => exact hk rfl

lemma obeys_onlyMethod {details : String} {k : M Response}
    (hk : r.method = method → Obeys K k) : Obeys K (onlyMethod r method details k) :=
  Prog.Under.ite hk fun _ => Obeys.pure _

lemma obeys_collection {post get : M Response} (hpost : r.method = .post → Obeys K post)
    (hget : Obeys K get) : Obeys K (collection r post get) := by
  unfold collection
  split
  · exact hpost ‹_›
  · exact hget
  · exact Obeys.pure _

lemma obeys_keeping {p : M Response} (hp : Obeys K p) : Obeys K (keeping m p) :=
  hp.bind fun _ => Obeys.pure _

/-- A payload that is accepted is carried out by an operation. -/
lemma obeys_accepted {check : α → Option String} {message : String}
    (hk : ∀ a, accepted payload check = some a → Obeys K (k a)) :
    Obeys K (decoding payload fun a => validating (check a) message (k a)) :=
  obeys_decoding fun a ha => obeys_validating fun hc => hk a (by
    rw [accepted, ha]
    simp [Except.toOption, hc])

lemma obeys_decoded
    (hk : ∀ a, decoded payload = some a → Obeys K (k a)) : Obeys K (decoding payload k) :=
  obeys_decoding fun a ha => hk a (by rw [decoded, accepted, ha]; rfl)

section Handlers

-- from here on the rules are used, and a handler is not evaluated
attribute [local irreducible] Prog.Under

/-! ### Handlers that carry out an operation -/

variable {rt : Route}

/-- The operation that the request asks for keeps the regime. -/
def Route.Kept (K : Regime Call.Res) (s : HTTPServer) (r : Request) (rt : Route) : Prop :=
  ∀ op, rt.operation r = some op → Obeys K (op.program s)

/-- The operation is carried out and its result is sent. -/
lemma Route.Kept.obeys {p : M α} (h : rt.Kept K s r) (op : Operation)
    (hop : rt.operation r = some op) (hp : op.program s = p.ignore) {ok : α → Response}
    {failed : Err → Response} : Obeys K (answer p ok failed) :=
  obeys_answer (Obeys.of_ignore (hp ▸ h op hop)) _ _

attribute [local simp] Route.operation

lemma obeys_handleNodeSubroutes (h : Route.Kept K s r .nodeSubroutes) :
    Obeys K (handleNodeSubroutes r) := by
  unfold handleNodeSubroutes
  split
  · rename_i id sub hparts
    refine Prog.Under.ite ?_ fun hd => Prog.Under.ite ?_ fun hr => Prog.Under.ite ?_ fun _ =>
      Obeys.pure _
    · rintro rfl
      exact obeys_onlyMethod fun hm =>
        h.obeys (.drainNode id) (by simp [Route.operation, Request.on, hm, hparts]) rfl
    · rintro rfl
      exact obeys_onlyMethod fun hm =>
        h.obeys (.removeNode id) (by simp [Route.operation, Request.on, hm, hparts]) rfl
    · rintro rfl
      exact obeys_onlyMethod fun hm => obeys_decoded fun used hu =>
        h.obeys (.heartbeat id used) (by simp [Route.operation, Request.on, hm, hparts, hu]) rfl
  · exact Obeys.pure _

lemma obeys_handleWorkloadSubroutes (h : Route.Kept K s r .workloadSubroutes) :
    Obeys K (handleWorkloadSubroutes r) := by
  unfold handleWorkloadSubroutes
  split
  · rename_i id hparts
    exact obeys_onlyMethod fun hm => obeys_decoded fun x hx =>
      h.obeys (.report id x.1 x.2) (by simp [Route.operation, Request.on, hm, hparts, hx]) rfl
  · exact Obeys.pure _

lemma obeys_handleDeploymentByID (h : Route.Kept K s r .deploymentByID) :
    Obeys K (handleDeploymentByID r) := by
  unfold handleDeploymentByID
  split
  · exact Obeys.pure _
  rename_i id rest hparts
  refine Prog.Under.ite (fun _ => Obeys.pure _) fun hid => Prog.Under.ite ?_ fun hback =>
    Prog.Under.ite (fun _ => Obeys.pure _) fun hrest => ?_
  · rintro rfl
    exact obeys_onlyMethod fun hm => h.obeys (.rollbackDeployment id r.body.revision)
      (by simp [Route.operation, Request.onDeployment, hm, hparts, hid]) rfl
  obtain rfl : rest = [] := not_not.mp hrest
  split
  · rename_i hm
    exact h.obeys (.deleteDeployment id)
      (by simp [Route.operation, Request.onDeployment, hm, hparts, hid]) rfl
  · rename_i hm
    exact obeys_accepted fun spec hspec => h.obeys (.updateDeployment id spec)
      (by simp [Route.operation, Request.onDeployment, hm, hparts, hid, hspec]) rfl
  · exact Obeys.pure _

lemma obeys_handleAutoscalerByID (h : Route.Kept K s r .autoscalerByID) :
    Obeys K (handleAutoscalerByID r) := by
  unfold handleAutoscalerByID
  split
  · rename_i id hparts
    exact Prog.Under.ite (fun _ => Obeys.pure _) fun hid => obeys_onlyMethod fun hm =>
      h.obeys (.deletePolicy id) (by simp [Route.operation, Request.on, hm, hparts, hid]) rfl
  · exact Obeys.pure _

/-! The routes that create on `POST` and list on `GET`. -/

lemma obeys_posting {β γ : Type} {check : α → Option String} {message : String} {run : α → M β}
    {ok : β → Response} {failed failedGet : Err → Response} {list : M γ} {okGet : γ → Response}
    {f : α → Operation} (h : rt.Kept K s r)
    (hrt : rt.operation r = r.on .post ((accepted payload check).map f))
    (hrun : ∀ a, (f a).program s = (run a).ignore) (hlist : Obeys K list) :
    Obeys K (keeping m (collection r (decoding payload fun a => validating (check a) message
      (answer (run a) ok failed)) (answer list okGet failedGet))) :=
  obeys_keeping (obeys_collection (fun hm => obeys_accepted fun a ha =>
    h.obeys (f a) (hrt.trans (on_map hm ha)) (hrun a)) (obeys_answer hlist _ _))

lemma obeys_storing {β γ : Type} {run : α → M β} {ok : β → Response}
    {failed failedGet : Err → Response} {list : M γ} {okGet : γ → Response} {f : α → Operation}
    (h : rt.Kept K s r) (hrt : rt.operation r = r.on .post ((decoded payload).map f))
    (hrun : ∀ a, (f a).program s = (run a).ignore) (hlist : Obeys K list) :
    Obeys K (keeping m (collection r (decoding payload fun a => answer (run a) ok failed)
      (answer list okGet failedGet))) :=
  obeys_keeping (obeys_collection (fun hm => obeys_decoded fun a ha =>
    h.obeys (f a) (hrt.trans (on_map hm ha)) (hrun a)) (obeys_answer hlist _ _))

/-! ### Handlers that read -/

variable [HasReads K.allows]

lemma obeys_looks {p : M α} (hp : Looks p) : Obeys K p :=
  .of_makes (hp.weaken fun _ hc => HasReads.reads _ (Call.reads_of_looks hc))

lemma obeys_now : Obeys K timeNow := Obeys.call (HasReads.reads .now rfl)

lemma obeys_list (t : Tbl) (pfx : String) : Obeys K (ask (.list t pfx)) :=
  obeys_looks (looks_list t pfx)

lemma obeys_handleWorkerSubroutes (h : Route.Kept K s r .workerSubroutes) :
    Obeys K (handleWorkerSubroutes r) := by
  unfold handleWorkerSubroutes
  split
  · rename_i id sub hparts
    refine obeys_onlyMethod fun hm => Prog.Under.ite ?_ fun _ => Prog.Under.ite ?_ fun _ =>
      Obeys.pure _
    · rintro rfl
      exact h.obeys (.poll id (pollMax r)) (by simp [Route.operation, Request.on, hm, hparts]) rfl
    · intro _
      exact obeys_answer ((obeys_list .workload "").bind fun _ => Obeys.pure _) _ _
  · exact Obeys.pure _

lemma obeys_handleServiceSubroutes : Obeys K (handleServiceSubroutes m r) := by
  have hendpoints : ∀ id, Obeys K (listServiceEndpoints id) := fun id =>
    (obeys_looks (looks_find _ _)).bind fun _ => obeys_list _ _
  unfold handleServiceSubroutes
  split
  · refine Prog.Under.ite (fun _ => ?_) fun _ => Prog.Under.ite (fun _ => ?_) fun _ => Obeys.pure _
    · exact Obeys.bind (obeys_onlyMethod fun _ => obeys_answer (hendpoints _) _ _) fun _ =>
        Obeys.pure _
    · refine Prog.Under.ite (fun _ => ?_) fun _ => Obeys.pure _
      refine (obeys_looks (looks_selectServiceEndpoint _ _ _)).bind fun x => ?_
      rcases x with ⟨_ | ep, b⟩ <;> exact Obeys.pure _
  · exact Obeys.pure _

lemma obeys_handleDNS (sidecar : Bool) : Obeys K (handleDNS r sidecar) := by
  unfold handleDNS
  refine obeys_onlyMethod fun _ => ?_
  generalize trimSpace (r.param "name") = name
  refine Prog.Under.ite (fun _ => Obeys.pure _) fun _ => obeys_answer ?_ _ _
  exact (obeys_looks (looks_findServiceByName name)).bind fun _ =>
    (obeys_list _ _).bind fun _ => Obeys.pure _

lemma obeys_routing (name : String) :
    Obeys K (routeServiceTraffic m.balance name (trimSpace (r.param "strategy"))) :=
  obeys_looks (looks_routeServiceTraffic _ _ _)

lemma obeys_admitTraffic (routed : Routed) : Obeys K (admitTraffic r routed) :=
  (obeys_list _ _).bind fun _ => Obeys.pure _

lemma obeys_handleConnect (name : String) : Obeys K (handleConnect m r name) := by
  refine (obeys_routing name).bind fun x => ?_
  rcases x with ⟨_ | routed, b⟩
  · exact Obeys.pure _
  · refine (obeys_admitTraffic routed).bind fun x => ?_
    exact Prog.Under.ite (fun _ => Obeys.pure _) fun _ => Obeys.pure _

lemma obeys_recordCircuitFailure (m : Memory) (name : String) (threshold openSec : ℤ)
    (reason : String) : Obeys K (recordCircuitFailure m name threshold openSec reason) :=
  Prog.Under.ite (fun _ => obeys_now.bind fun _ => Obeys.pure _) fun _ => Obeys.pure _

lemma obeys_proxyTo (m : Memory) (name : String) (ep : ServiceEndpoint)
    (retries threshold openSec : ℤ) :
    Obeys K (proxyTo s m name ep retries threshold openSec) := by
  unfold proxyTo
  split
  · exact (obeys_recordCircuitFailure _ _ _ _ _).bind fun _ => Obeys.pure _
  · refine Obeys.bind (Prog.Under.ite (fun _ => ?_) fun _ => Obeys.pure _) fun _ => Obeys.pure _
    exact obeys_recordCircuitFailure _ _ _ _ _

lemma obeys_handleProxy (name : String) : Obeys K (handleProxy s m r name) := by
  unfold handleProxy
  -- the numbers that the query asks for do not matter
  generalize parsePositiveIntOrDefault (r.param "retries") 1 = retries
  generalize parsePositiveIntOrDefault (r.param "cbThreshold") 3 = threshold
  generalize parsePositiveIntOrDefault (r.param "cbOpenSec") 15 = openSec
  refine obeys_now.bind fun _ => Prog.Under.ite (fun _ => Obeys.pure _) fun _ => ?_
  refine (obeys_routing name).bind fun x => ?_
  rcases x with ⟨e | routed, b⟩
  · refine Prog.Under.ite (fun _ => Obeys.pure _) fun _ => ?_
    exact (obeys_recordCircuitFailure _ _ _ _ _).bind fun _ => Obeys.pure _
  · refine (obeys_admitTraffic routed).bind fun x => ?_
    exact Prog.Under.ite (fun _ => obeys_proxyTo _ _ _ _ _ _) fun _ => Obeys.pure _

lemma obeys_handleNetworkServiceSubroutes : Obeys K (handleNetworkServiceSubroutes s m r) := by
  unfold handleNetworkServiceSubroutes
  split
  · exact Prog.Under.ite (fun _ => Obeys.pure _) fun _ =>
      Prog.Under.ite (fun _ => obeys_handleConnect _) fun _ =>
      Prog.Under.ite (fun _ => obeys_handleProxy _) fun _ => Obeys.pure _
  · exact Obeys.pure _

lemma obeys_snapshot : Obeys K StateStore.snapshot :=
  (obeys_list .node "").bind fun _ => (obeys_list .deployment "").bind fun _ =>
    (obeys_list .workload "").bind fun _ => Obeys.pure _

/-- A handler keeps a regime that lets it read, if the operation it carries out does. -/
lemma obeys_handle (h : rt.Kept K s r) : Obeys K (rt.handle s m r) := by
  cases rt with
  | healthz => exact obeys_keeping (Obeys.pure _)
  | rendering => exact obeys_keeping (obeys_onlyMethod fun _ => Obeys.pure _)
  | registerNode =>
    exact obeys_keeping (obeys_onlyMethod fun hm => obeys_accepted fun node hnode =>
      h.obeys (.registerNode node) (on_map hm hnode) rfl)
  | nodeSubroutes => exact obeys_keeping (obeys_handleNodeSubroutes h)
  | workerSubroutes => exact obeys_keeping (obeys_handleWorkerSubroutes h)
  | workloadSubroutes => exact obeys_keeping (obeys_handleWorkloadSubroutes h)
  | deploymentByID => exact obeys_keeping (obeys_handleDeploymentByID h)
  | autoscalerByID => exact obeys_keeping (obeys_handleAutoscalerByID h)
  | deploymentMetrics =>
    exact obeys_keeping (obeys_onlyMethod fun hm => obeys_accepted fun sample hsample =>
      h.obeys (.ingestMetric sample) (on_map hm hsample) rfl)
  | recoveryRun =>
    exact obeys_keeping (obeys_onlyMethod fun hm => h.obeys .recover (if_pos hm) rfl)
  | dnsResolve => exact obeys_keeping (obeys_handleDNS false)
  | dnsSidecarResolve => exact obeys_keeping (obeys_handleDNS true)
  | serviceSubroutes => exact obeys_handleServiceSubroutes
  | networkServiceSubroutes => exact obeys_handleNetworkServiceSubroutes
  | cluster => exact obeys_keeping (obeys_onlyMethod fun _ => obeys_answer obeys_snapshot _ _)
  | deployments => exact obeys_posting h rfl (fun _ => rfl) (obeys_list .deployment "")
  | autoscalers => exact obeys_posting h rfl (fun _ => rfl) (obeys_list .policy "")
  | services => exact obeys_posting h rfl (fun _ => rfl) (obeys_list .service "")
  | namespaces => exact obeys_posting h rfl (fun _ => rfl) (obeys_list .nameSpace "")
  | quotas => exact obeys_posting h rfl (fun _ => rfl) (obeys_list .quota "")
  | secrets =>
    exact obeys_posting h rfl (fun _ => rfl) ((obeys_list .secret _).bind fun _ => Obeys.pure _)
  | persistentVolumes => exact obeys_storing h rfl (fun _ => rfl) (obeys_list .volume "")
  | persistentVolumeClaims => exact obeys_storing h rfl (fun _ => rfl) (obeys_list .claim _)
  | networkPolicies => exact obeys_storing h rfl (fun _ => rfl) (obeys_list .networkPolicy _)
  | jobs => exact obeys_storing h rfl (fun _ => rfl) (.of_makes (makes_listJobs _))
  | cronJobs => exact obeys_storing h rfl (fun _ => rfl) (obeys_list .cronJob _)
  | roleBindings => exact obeys_storing h rfl (fun _ => rfl) (obeys_list .roleBinding _)

/-- The mux, for a request whose operation keeps the regime. -/
lemma obeys_dispatch (h : ∀ op, r.operation = some op → Obeys K (op.program s)) :
    Obeys K (dispatch s m r) := by
  unfold dispatch
  refine Prog.Under.ite (fun _ => Obeys.pure _) fun hcanon => ?_
  split
  · exact Obeys.pure _
  · rename_i rt hroute
    refine obeys_handle fun op hop => h op ?_
    rw [Request.operation, if_pos (Bool.eq_true_of_not_eq_false hcanon), hroute]
    exact hop

end Handlers

/-! ### The middleware -/

/-- The paths that need no token carry out no operation. -/
lemma operation_of_exempt (h : exemptPath r.path = true) : r.operation = none := by
  have hpath : r.path = "/healthz" ∨ r.path = "/metrics" := by simpa [exemptPath] using h
  have hroute : route r.path = some .healthz ∨ route r.path = some .rendering := by
    rcases hpath with hpath | hpath
    · rw [hpath]
      decide
    · rw [hpath]
      decide
  unfold Request.operation
  split
  · rcases hroute with hroute | hroute <;> rw [hroute] <;> rfl
  · rfl

lemma looks_effectiveRoles (subject ns : String) : Looks (effectiveRolesForSubject subject ns) :=
  Makes.bind ((looks_list .roleBinding _).bind fun _ => Makes.ite trivial
    ((looks_list .roleBinding _).bind fun _ => trivial)) fun _ => trivial

lemma looks_authenticate : Looks (authenticate s r) := by
  unfold authenticate
  split
  · trivial
  · refine Makes.ite trivial ((looks_effectiveRoles _ _).bind fun roles => ?_)
    rcases roles with _ | _ | _ <;> trivial

/-- The server, for a request whose operation keeps the regime. -/
lemma obeys_serve [HasReads K.allows] (h : ∀ op, r.versioned.operation = some op →
    Obeys K (op.program s)) : Obeys K (serve s m r) := by
  have hauth : Obeys K (authenticate s r.versioned) := obeys_looks looks_authenticate
  unfold serve
  dsimp only
  generalize hv : r.versioned = rv at h hauth ⊢
  refine Prog.Under.ite (fun _ => Obeys.pure _) fun _ => Prog.Under.ite
    (fun _ => obeys_dispatch h) fun _ => hauth.bind fun p => ?_
  cases p with
  | error resp => exact Obeys.pure _
  | ok p => exact Prog.Under.ite (fun _ => obeys_dispatch h) fun _ => Obeys.pure _

/-- The principal of a request in a world, if it has one. -/
def principalOf (env : Env) (s : HTTPServer) (r : Request) (w : World) : Option Principal :=
  match (authenticate s r).result (exec env) w with
  | .ok (.ok p) => some p
  | _ => none

/-- The request is let through to its handler. -/
def Authorized (env : Env) (s : HTTPServer) (r : Request) (w : World) : Prop :=
  knownVersion (trimSpace r.versioned.apiVersion) = true ∧
    (exemptPath r.versioned.path = true ∨
      ∃ p, principalOf env s r.versioned w = some p ∧
        isAuthorized p r.versioned.method r.versioned.path = true)

/-- A request that is let through ends in the state in which its handler ends, and another one
changes nothing. -/
lemma serve_final (env : Env) (w : World) :
    (Authorized env s r w ∧
      (serve s m r).final (exec env) w = (dispatch s m r.versioned).final (exec env) w) ∨
    (¬ Authorized env s r w ∧ (serve s m r).final (exec env) w = w) := by
  have hauth := (looks_authenticate (s := s) (r := r.versioned)).run env env (rfl : w.store = w.store)
  unfold serve
  dsimp only
  by_cases hversion : knownVersion (trimSpace r.versioned.apiVersion) = true
  · rw [if_neg (by simp [hversion])]
    by_cases hexempt : exemptPath r.versioned.path = true
    · rw [if_pos hexempt]
      exact .inl ⟨⟨hversion, .inl hexempt⟩, rfl⟩
    · rw [if_neg hexempt]
      unfold Prog.final
      rw [Prog.run_bind, hauth]
      unfold Authorized principalOf
      rcases hres : (authenticate s r.versioned).result (exec env) w with e | resp | p
      · exact .inr ⟨by simp [hexempt], rfl⟩
      · exact .inr ⟨by simp [hexempt], rfl⟩
      · by_cases hok : isAuthorized p r.versioned.method r.versioned.path = true
        · exact .inl ⟨⟨hversion, .inr ⟨p, rfl, hok⟩⟩, by dsimp only; rw [if_pos hok]⟩
        · exact .inr ⟨by simp [hexempt, hok], by dsimp only; rw [if_neg hok]; rfl⟩
  · rw [if_pos (by simp [hversion])]
    exact .inr ⟨fun h => hversion h.1, rfl⟩

/-! ### The table of roles -/

lemma requiredRoles_cases (method : Method) (path : String) :
    (method = .get ∧ requiredRoles method path = readers) ∨
      requiredRoles method path = writers ∨ requiredRoles method path = admins := by
  -- each line of the table is one of three kinds, and those for readers have the method `GET`
  let P : List String → Prop := fun roles =>
    (method = .get ∧ roles = readers) ∨ roles = writers ∨ roles = admins
  have reading : ∀ {c : Prop} [Decidable (method = .get ∧ c)] {rest : List String}, P rest →
      P (if method = .get ∧ c then readers else rest) := by
    intro c _ rest hrest
    split
    · exact .inl ⟨And.left ‹_›, rfl⟩
    · exact hrest
  have writing : ∀ {c : Prop} [Decidable c] {rest : List String}, P rest →
      P (if c then writers else rest) := by
    intro c _ rest hrest
    split
    · exact .inr (.inl rfl)
    · exact hrest
  have ruling : ∀ {c : Prop} [Decidable c] {rest : List String}, P rest →
      P (if c then admins else rest) := by
    intro c _ rest hrest
    split
    · exact .inr (.inr rfl)
    · exact hrest
  have last : P admins := .inr (.inr rfl)
  exact reading <| reading <| reading <| writing <| writing <| ruling <| reading <| writing <|
    ruling <| writing <| reading <| writing <| ruling <| writing <| writing <| reading <|
    writing <| ruling last

lemma isAuthorized_iff (p : Principal) {path : String} {roles : List String}
    (h : requiredRoles method path = roles) (hne : roles ≠ []) :
    isAuthorized p method path = true ↔ ∃ role ∈ p.roles, normalizeRole role ∈ roles := by
  have hne' : roles.isEmpty = false := by simpa using hne
  unfold isAuthorized
  simp only [h, hne', Bool.false_or, List.any_eq_true, decide_eq_true_eq]
  constructor
  · rintro ⟨rr, hrr, role, hrole, rfl⟩
    exact ⟨role, hrole, hrr⟩
  · rintro ⟨role, hrole, hrr⟩
    exact ⟨_, hrr, role, hrole, rfl⟩

/-! ### A server at work -/

lemma ServerState.step_world (env : Env) (s : HTTPServer) (r : Request) (σ : ServerState) :
    (σ.step env s r).world = (serve s σ.memory r).final (exec env) σ.world := rfl

end Orchestrator
