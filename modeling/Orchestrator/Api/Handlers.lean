/-
# The HTTP server

The handlers of `internal/api/httpserver.go`, the routes, and the middleware that finds the roles
of a request and checks them.  What the server keeps in memory (the balancer and the circuit
breakers) is passed on from request to request.  Audit and trace records are not modelled, and
of the answers that only render data (metrics, trends, events) only the status is.
-/
import Orchestrator.Api.Http

namespace Orchestrator

open Lib

/-- What the server is configured with. -/
structure HTTPServer where
  orch : Config
  /-- `Verifier.VerifyBearer`. -/
  verifyBearer : String → Except String Principal
  /-- `encryptSecretData`. -/
  encryptSecretData : StrMap → Except String StrMap
  /-- What an attempt to reach an endpoint gives: a status, or an error. -/
  upstream : ServiceEndpoint → ℕ → Except String ℕ

/-- `breakerState`. -/
structure BreakerState where
  failures : ℤ := 0
  openUntil : Time := Time.zero
  lastReason : String := ""

/-- What the server keeps in memory. -/
structure Memory where
  balance : Balancer := {}
  breakers : String → BreakerState := fun _ => {}

/-- The breaker of a service is replaced. -/
def Memory.setBreaker (m : Memory) (name : String) (b : BreakerState) : Memory :=
  { m with breakers := Function.update m.breakers name b }

/-! ### Nodes, workers and workloads -/

variable (s : HTTPServer) (m : Memory) (r : Request)

def handleRegisterNode : M Response :=
  onlyMethod r .post "use POST" <|
    decoding r.body.node fun node =>
    validating (validateNode node) "Node validation failed" <|
    answer (registerNode s.orch node) (fun _ => .json 201 .ok)
      (badRequest "register_failed" "Failed to register node")

def handleNodeSubroutes : M Response :=
  match r.parts "/v1/nodes/" with
  | [id, sub] =>
    if sub = "drain" then
      onlyMethod r .post "use POST" <|
        answer (drainNode id) (fun _ => .json 200 .ok) (badRequest "drain_failed" "Node drain failed")
    else if sub = "remove" then
      onlyMethod r .post "use POST" <|
        answer (removeNode id) (fun _ => .json 200 .ok)
          (badRequest "remove_failed" "Node remove failed")
    else if sub = "heartbeat" then
      onlyMethod r .post "use POST" <|
        decoding r.body.used fun used =>
        answer (heartbeatNode id used) (fun _ => .json 200 .ok) fun e =>
          if e.isNotFound then .error 404 "node_not_found" "Node not found" id
          else badRequest "heartbeat_failed" "Heartbeat failed" e
    else pure (routeNotFound "unknown node subroute")
  | _ => pure (routeNotFound "unknown node subroute")

/-- The bound on the number of assignments that a poll asks for. -/
def pollMax : ℤ :=
  match atoi (r.param "max") with
  | some v => if v > 0 then v else 10
  | none => 10

def handleWorkerSubroutes : M Response :=
  match r.parts "/v1/workers/" with
  | [id, sub] =>
    onlyMethod r .get "use GET" <|
      if sub = "assignments" then
        answer (pollAssignments id (pollMax r)) (fun items => .json 200 (.assignments items))
          (serverError "poll_failed" "Failed to poll assignments")
      else if sub = "workloads" then
        answer (listNodeWorkloads id) (fun items => .json 200 (.workloads items))
          (serverError "workloads_failed" "Failed to list desired node workloads")
      else pure (routeNotFound "unknown worker subroute")
  | _ => pure (routeNotFound "unknown worker subroute")

def handleWorkloadSubroutes : M Response :=
  match r.parts "/v1/workloads/" with
  | [id, "status"] =>
    onlyMethod r .post "use POST" <|
      decoding r.body.status fun (status, containerID) =>
      answer (reportWorkloadStatus id status containerID) (fun _ => .json 200 .ok)
        (badRequest "status_update_failed" "Workload status update failed")
  | _ => pure (routeNotFound "unknown workload subroute")

def handleCluster : M Response :=
  onlyMethod r .get "use GET" <|
    answer StateStore.snapshot (fun state => .json 200 (.cluster state))
      (serverError "cluster_failed" "Failed to read cluster state")

/-- The handlers that render data: metrics, trends and events. -/
def handleRendering : M Response := onlyMethod r .get "use GET" (pure (.text 200))

/-! ### Deployments and autoscalers -/

def handleDeployments : M Response :=
  collection r
    (decoding r.body.deploymentSpec fun spec =>
      validating (validateDeploymentSpec spec) "Deployment spec validation failed" <|
      answer (createDeployment s.orch spec) (fun dep => .json 201 (.deployment dep))
        (badRequest "create_failed" "Create deployment failed"))
    (answer StateStore.listDeployments (fun deps => .json 200 (.deployments deps))
      (serverError "list_failed" "List deployments failed"))

def handleDeploymentByID : M Response :=
  match r.parts "/v1/deployments/" with
  | [] => pure (routeNotFound "deployment id is empty")
  | id :: rest =>
    if blank id then pure (routeNotFound "deployment id is empty")
    else if rest = ["rollback"] then
      onlyMethod r .post "use POST" <|
        answer (rollbackDeployment id r.body.revision) (fun dep => .json 200 (.deployment dep))
          (badRequest "rollback_failed" "Rollback deployment failed")
    else if rest ≠ [] then pure (routeNotFound "unknown deployment subroute")
    else
      match r.method with
      | .delete =>
        answer (deleteDeployment id) (fun _ => .json 200 .ok)
          (badRequest "delete_failed" "Delete deployment failed")
      | .put =>
        decoding r.body.deploymentSpec fun spec =>
        validating (validateDeploymentSpec spec) "Deployment spec validation failed" <|
        answer (updateDeployment id spec) (fun dep => .json 200 (.deployment dep))
          (badRequest "update_failed" "Update deployment failed")
      | _ => pure (methodNotAllowed "use DELETE, PUT, or POST /rollback")

def handleAutoscalers : M Response :=
  collection r
    (decoding r.body.policy fun policy =>
      validating (validateAutoscalerPolicy policy) "Autoscaler policy validation failed" <|
      answer (upsertAutoscalerPolicy policy) (fun p => .json 201 (.policy p))
        (badRequest "autoscaler_upsert_failed" "Failed to upsert autoscaler policy"))
    (answer StateStore.listAutoscalerPolicies (fun items => .json 200 (.policies items))
      (serverError "autoscaler_list_failed" "Failed to list autoscaler policies"))

def handleAutoscalerByID : M Response :=
  match r.parts "/v1/autoscalers/" with
  | [id] =>
    if blank id then pure (routeNotFound "autoscaler id is required")
    else
      onlyMethod r .delete "use DELETE" <|
        answer (StateStore.deleteAutoscalerPolicy id) (fun _ => .json 200 .ok)
          (badRequest "autoscaler_delete_failed" "Failed to delete autoscaler policy")
  | _ => pure (routeNotFound "autoscaler id is required")

def handleDeploymentMetrics : M Response :=
  onlyMethod r .post "use POST" <|
    decoding r.body.metric fun metric =>
    validating (validateDeploymentMetricSample metric) "Deployment metric validation failed" <|
    answer (ingestDeploymentMetric metric) (fun _ => .json 202 .ok)
      (badRequest "metric_ingest_failed" "Failed to ingest deployment metric")

/-! ### Records of a namespace -/

/-- The text of a missing field, if the field is blank. -/
def required (field message : String) : Option String := if blank field then some message else none

def handleServices : M Response :=
  collection r
    (decoding r.body.serviceSpec fun spec =>
      validating (validateServiceSpec spec) "Service spec validation failed" <|
      answer (createService spec) (fun svc => .json 201 (.service svc))
        (badRequest "create_service_failed" "Create service failed"))
    (answer StateStore.listServices (fun items => .json 200 (.services items))
      (serverError "list_services_failed" "List services failed"))

def handleNamespaces : M Response :=
  collection r
    (decoding r.body.nameSpace fun ns =>
      validating (required ns.name "namespace name is required") "Namespace validation failed" <|
      answer (createNamespace ns) (fun ns => .json 201 (.nameSpace ns))
        (badRequest "namespace_create_failed" "Create namespace failed"))
    (answer StateStore.listNamespaces (fun items => .json 200 (.namespaces items))
      (serverError "namespace_list_failed" "List namespaces failed"))

def handleQuotas : M Response :=
  collection r
    (decoding r.body.quota fun quota =>
      validating (required quota.nameSpace "namespace is required") "Quota validation failed" <|
      answer (upsertNamespaceQuota quota) (fun q => .json 201 (.quota q))
        (badRequest "quota_upsert_failed" "Upsert quota failed"))
    (answer StateStore.listNamespaceQuotas (fun items => .json 200 (.quotas items))
      (serverError "quota_list_failed" "List quotas failed"))

def handleSecrets : M Response :=
  collection r
    (decoding r.body.secret fun secret =>
      validating (required secret.name "secret name is required") "Secret validation failed" <|
      answer (upsertSecret s.orch s.encryptSecretData secret) (fun sec => .json 201 (.secret sec))
        (badRequest "secret_upsert_failed" "Upsert secret failed"))
    (answer (listSecrets s.orch (trimSpace (r.param "namespace")))
      (fun items => .json 200 (.secrets items))
      (serverError "secret_list_failed" "List secrets failed"))

def handlePersistentVolumes : M Response :=
  collection r
    (decoding r.body.volume fun volume =>
      answer (upsertPersistentVolume volume) (fun pv => .json 201 (.volume pv))
        (badRequest "pv_upsert_failed" "Upsert persistent volume failed"))
    (answer StateStore.listPersistentVolumes (fun items => .json 200 (.volumes items))
      (serverError "pv_list_failed" "List persistent volumes failed"))

def handlePersistentVolumeClaims : M Response :=
  collection r
    (decoding r.body.claim fun claim =>
      answer (upsertPersistentVolumeClaim claim) (fun pvc => .json 201 (.claim pvc))
        (badRequest "pvc_upsert_failed" "Upsert persistent volume claim failed"))
    (answer (StateStore.listPersistentVolumeClaims (orDefault (trimSpace (r.param "namespace"))))
      (fun items => .json 200 (.claims items))
      (serverError "pvc_list_failed" "List persistent volume claims failed"))

def handleNetworkPolicies : M Response :=
  collection r
    (decoding r.body.networkPolicy fun policy =>
      answer (upsertNetworkPolicy policy) (fun p => .json 201 (.networkPolicy p))
        (badRequest "network_policy_upsert_failed" "Upsert network policy failed"))
    (answer (StateStore.listNetworkPolicies (orDefault (trimSpace (r.param "namespace"))))
      (fun items => .json 200 (.networkPolicies items))
      (serverError "network_policy_list_failed" "List network policies failed"))

def handleJobs : M Response :=
  collection r
    (decoding r.body.job fun job =>
      answer (upsertJob job) (fun j => .json 201 (.job j))
        (badRequest "job_upsert_failed" "Upsert job failed"))
    (answer (StateStore.listJobs (orDefault (trimSpace (r.param "namespace"))))
      (fun items => .json 200 (.jobs items)) (serverError "job_list_failed" "List jobs failed"))

def handleCronJobs : M Response :=
  collection r
    (decoding r.body.cronJob fun cronJob =>
      answer (upsertCronJob cronJob) (fun cj => .json 201 (.cronJob cj))
        (badRequest "cronjob_upsert_failed" "Upsert cronjob failed"))
    (answer (StateStore.listCronJobs (orDefault (trimSpace (r.param "namespace"))))
      (fun items => .json 200 (.cronJobs items))
      (serverError "cronjob_list_failed" "List cronjobs failed"))

def handleRoleBindings : M Response :=
  collection r
    (decoding r.body.binding fun binding =>
      answer (upsertRoleBinding binding) (fun b => .json 201 (.binding b))
        (badRequest "role_binding_upsert_failed" "Upsert role binding failed"))
    (answer (StateStore.listRoleBindings (trimSpace (r.param "namespace")))
      (fun items => .json 200 (.bindings items))
      (serverError "role_binding_list_failed" "List role bindings failed"))

def handleRecoveryRun : M Response :=
  onlyMethod r .post "use POST" <|
    answer (recoverCluster s.orch) (fun _ => .json 200 .ok)
      (serverError "recovery_failed" "Cluster recovery run failed")

/-! ### Service traffic -/

/-- The answer to an error of a call that names a service. -/
def serviceError (name : String) (other : Err → Response) (e : Err) : Response :=
  if e.isNotFound then .error 404 "service_not_found" "Service not found" name else other e

def handleServiceSubroutes : M (Response × Memory) :=
  match r.parts "/v1/services/" with
  | [serviceID, sub] =>
    if sub = "endpoints" then do
      let resp ← onlyMethod r .get "use GET" <|
        answer (listServiceEndpoints serviceID) (fun items => .json 200 (.endpoints items))
          (serviceError serviceID
            (serverError "list_endpoints_failed" "List service endpoints failed"))
      pure (resp, m)
    else if sub = "proxy-target" then
      if r.method = .get then do
        match ← selectServiceEndpoint m.balance serviceID (trimSpace (r.param "strategy")) with
        | (.error e, b) =>
          pure (serviceError serviceID
            (badRequest "select_target_failed" "Failed to select service endpoint") e,
            { m with balance := b })
        | (.ok ep, b) =>
          pure (.json 200 (.endpoint ep), { m with balance := b.release ep.id })
      else pure (methodNotAllowed "use GET", m)
    else pure (routeNotFound "unknown service subroute", m)
  | _ => pure (routeNotFound "unknown service subroute", m)

/-- The handlers of both DNS routes. -/
def handleDNS (sidecar : Bool) : M Response :=
  onlyMethod r .get "use GET" <|
    let name := trimSpace (r.param "name")
    if name = "" then pure (.error 400 "invalid_query" "Invalid query" "name is required")
    else
      answer (resolveServiceDNS name)
        (fun (dnsName, endpoints, ttl) =>
          .json 200 (.resolved dnsName endpoints (if sidecar then some ttl else none)))
        (serviceError name (serverError "resolve_failed" "Service resolve failed"))

def handleDNSResolve : M Response := handleDNS r false

def handleDNSSidecarResolve : M Response := handleDNS r true

/-- The check of the network policies for a routed request. -/
def admitTraffic (routed : Routed) : M (Bool × String) :=
  isNetworkAccessAllowed (trimSpace (r.param "sourceNamespace"))
    (parseLabelQuery (r.param "sourceLabels")) routed.service routed.endpoint.port

/-- The answer to traffic that the policies refuse. -/
def policyDenied (reason : String) : Response :=
  .error 403 "network_policy_denied" "Network policy denied traffic" reason

/-- The branch `connect`. -/
def handleConnect (name : String) : M (Response × Memory) := do
  match ← routeServiceTraffic m.balance name (trimSpace (r.param "strategy")) with
  | (.error e, b) =>
    pure (serviceError name (badRequest "connect_failed" "Service connect failed") e,
      { m with balance := b })
  | (.ok routed, b) =>
    let (allowed, reason) ← admitTraffic r routed
    let m := { m with balance := b.release routed.endpoint.id }
    if allowed then pure (.json 200 (.connected routed), m) else pure (policyDenied reason, m)

/-- `recordCircuitFailure`. -/
def recordCircuitFailure (name : String) (threshold openSec : ℤ) (reason : String) : M Memory := do
  let b := m.breakers name
  if b.failures + 1 ≥ threshold then do
    let now ← timeNow
    pure (m.setBreaker name
      { failures := 0, openUntil := now + wrap64 (openSec * 1000000000), lastReason := reason })
  else pure (m.setBreaker name { b with failures := b.failures + 1, lastReason := reason })

/-- The attempts at an endpoint: up to `retries` more after the first, until one is answered
with a status below 500. -/
def tryUpstream (up : ℕ → Except String ℕ) : ℕ → ℕ → Except String ℕ
  | k, 0 => up k
  | k, retries + 1 =>
    match up k with
    | .ok status => if status < 500 then .ok status else tryUpstream up (k + 1) retries
    | .error _ => tryUpstream up (k + 1) retries

/-- The request is passed on to the endpoint. -/
def proxyTo (name : String) (ep : ServiceEndpoint) (retries threshold openSec : ℤ) :
    M (Response × Memory) :=
  match tryUpstream (s.upstream ep) 0 retries.toNat with
  | .error e => do
    let m ← recordCircuitFailure m name threshold openSec e
    pure (.error 502 "proxy_upstream_failed" "Upstream request failed" e, m)
  | .ok status => do
    let m ← (if status ≥ 500 then recordCircuitFailure m name threshold openSec "upstream 5xx"
      else pure (m.setBreaker name {}))
    pure (.proxied status, m)

/-- The branch `proxy`. -/
def handleProxy (name : String) : M (Response × Memory) := do
  let retries := parsePositiveIntOrDefault (r.param "retries") 1
  let threshold := parsePositiveIntOrDefault (r.param "cbThreshold") 3
  let openSec := parsePositiveIntOrDefault (r.param "cbOpenSec") 15
  let now ← timeNow
  if now < (m.breakers name).openUntil then
    pure (.error 503 "circuit_open" "Circuit breaker open" (m.breakers name).lastReason, m)
  else
    match ← routeServiceTraffic m.balance name (trimSpace (r.param "strategy")) with
    | (.error e, b) =>
      let m := { m with balance := b }
      if e.isNotFound then
        pure (.error 404 "service_not_found" "Service not found" name, m)
      else do
        let m ← recordCircuitFailure m name threshold openSec e.text
        pure (badRequest "proxy_failed" "Service proxy failed" e, m)
    | (.ok routed, b) =>
      let (allowed, reason) ← admitTraffic r routed
      let m := { m with balance := b.release routed.endpoint.id }
      if allowed then proxyTo s m name routed.endpoint retries threshold openSec
      else pure (policyDenied reason, m)

def handleNetworkServiceSubroutes : M (Response × Memory) :=
  match r.parts "/v1/network/services/" with
  | name :: sub :: _ =>
    if r.method ≠ .get then pure (methodNotAllowed "use GET", m)
    else if sub = "connect" then handleConnect m r name
    else if sub = "proxy" then handleProxy s m r name
    else pure (routeNotFound "unknown network service route", m)
  | _ => pure (routeNotFound "unknown network service route", m)

/-! ### Routes -/

/-- The handlers. -/
inductive Route
  | healthz
  | rendering
  | registerNode
  | nodeSubroutes
  | deployments
  | deploymentByID
  | autoscalers
  | autoscalerByID
  | deploymentMetrics
  | cluster
  | workerSubroutes
  | workloadSubroutes
  | services
  | serviceSubroutes
  | namespaces
  | quotas
  | secrets
  | persistentVolumes
  | persistentVolumeClaims
  | networkPolicies
  | jobs
  | cronJobs
  | roleBindings
  | recoveryRun
  | dnsResolve
  | dnsSidecarResolve
  | networkServiceSubroutes
deriving DecidableEq, Repr

/-- The patterns without a trailing slash, which match one path. -/
def exactRoutes : List (String × Route) :=
  [("/healthz", .healthz), ("/metrics", .rendering), ("/v1/nodes/register", .registerNode),
    ("/v1/deployments", .deployments), ("/v1/autoscalers", .autoscalers),
    ("/v1/metrics/deployments", .deploymentMetrics), ("/v1/metrics/prometheus", .rendering),
    ("/v1/health/nodes/trends", .rendering), ("/v1/cluster", .cluster),
    ("/v1/services", .services), ("/v1/namespaces", .namespaces), ("/v1/quotas", .quotas),
    ("/v1/secrets", .secrets), ("/v1/persistent-volumes", .persistentVolumes),
    ("/v1/persistent-volume-claims", .persistentVolumeClaims),
    ("/v1/network-policies", .networkPolicies), ("/v1/jobs", .jobs), ("/v1/cronjobs", .cronJobs),
    ("/v1/rbac/rolebindings", .roleBindings), ("/v1/recovery/run", .recoveryRun),
    ("/v1/dns/resolve", .dnsResolve), ("/v1/dns/sidecar/resolve", .dnsSidecarResolve),
    ("/v1/events", .rendering), ("/v1/events/stream", .rendering)]

/-- The patterns with a trailing slash, which match every path below them. -/
def subtreeRoutes : List (String × Route) :=
  [("/v1/nodes/", .nodeSubroutes), ("/v1/deployments/", .deploymentByID),
    ("/v1/autoscalers/", .autoscalerByID), ("/v1/workers/", .workerSubroutes),
    ("/v1/workloads/", .workloadSubroutes), ("/v1/services/", .serviceSubroutes),
    ("/v1/network/services/", .networkServiceSubroutes)]

/-- The handler of a path. -/
def route (path : String) : Option Route :=
  match exactRoutes.find? fun p => p.1 = path with
  | some p => some p.2
  | none => (subtreeRoutes.find? fun p => hasPrefix path p.1).map Prod.snd

/-- A handler that leaves the memory as it is. -/
def keeping (m : Memory) (p : M Response) : M (Response × Memory) := do
  let resp ← p
  pure (resp, m)

/-- The handlers by route. -/
def Route.handle : Route → M (Response × Memory)
  | healthz => keeping m (pure (.text 200))
  | rendering => keeping m (handleRendering r)
  | registerNode => keeping m (handleRegisterNode s r)
  | nodeSubroutes => keeping m (handleNodeSubroutes r)
  | deployments => keeping m (handleDeployments s r)
  | deploymentByID => keeping m (handleDeploymentByID r)
  | autoscalers => keeping m (handleAutoscalers r)
  | autoscalerByID => keeping m (handleAutoscalerByID r)
  | deploymentMetrics => keeping m (handleDeploymentMetrics r)
  | cluster => keeping m (handleCluster r)
  | workerSubroutes => keeping m (handleWorkerSubroutes r)
  | workloadSubroutes => keeping m (handleWorkloadSubroutes r)
  | services => keeping m (handleServices r)
  | namespaces => keeping m (handleNamespaces r)
  | quotas => keeping m (handleQuotas r)
  | secrets => keeping m (handleSecrets s r)
  | persistentVolumes => keeping m (handlePersistentVolumes r)
  | persistentVolumeClaims => keeping m (handlePersistentVolumeClaims r)
  | networkPolicies => keeping m (handleNetworkPolicies r)
  | jobs => keeping m (handleJobs r)
  | cronJobs => keeping m (handleCronJobs r)
  | roleBindings => keeping m (handleRoleBindings r)
  | recoveryRun => keeping m (handleRecoveryRun s r)
  | dnsResolve => keeping m (handleDNSResolve r)
  | dnsSidecarResolve => keeping m (handleDNSSidecarResolve r)
  | serviceSubroutes => handleServiceSubroutes m r
  | networkServiceSubroutes => handleNetworkServiceSubroutes s m r

/-- `http.ServeMux`. -/
def dispatch : M (Response × Memory) :=
  if r.canonical = false then pure (.unrouted, m)
  else
    match route r.path with
    | none => pure (.unrouted, m)
    | some rt => rt.handle s m r

/-! ### Middleware -/

/-- The rewriting of `versionMiddleware`. -/
def versionedPath (path : String) : String :=
  if hasPrefix path "/api/v1/" then trimPrefix path "/api"
  else if path = "/api/v1" then "/v1" else path

/-- The version that a request asks for is known. -/
def knownVersion (v : String) : Bool := v = "" || v = "v1" || v = "1"

/-- The paths that need no token. -/
def exemptPath (path : String) : Bool := path = "/healthz" || path = "/metrics"

/-- `authMiddleware`: the principal of a request, with the roles that are bound to it.  A visit
of the bindings that does not end takes the process down. -/
def authenticate : M (Except Response Principal) :=
  match s.verifyBearer r.authorization with
  | .error e => pure (.error (.error 401 "unauthorized" "Authorization failed" e))
  | .ok p =>
    if blank p.subject then pure (.ok p)
    else do
      match ← effectiveRolesForSubject p.subject (requestNamespace r) with
      | none => Prog.fail (.message "stack overflow")
      | some [] => pure (.ok p)
      | some bound => pure (.ok { p with roles := mergeRoles p.roles bound })

/-- The request as the handlers see it. -/
def Request.versioned (r : Request) : Request := { r with path := versionedPath r.path }

/-- The server: the middleware, then the handler. -/
def serve : M (Response × Memory) :=
  let r := r.versioned
  if !knownVersion (trimSpace r.apiVersion) then
    pure (.error 400 "unsupported_api_version" "Unsupported API version"
      "supported version: v1", m)
  else if exemptPath r.path then dispatch s m r
  else do
    match ← authenticate s r with
    | .error resp => pure (resp, m)
    | .ok p =>
      if isAuthorized p r.method r.path then dispatch s m r
      else
        pure (.error 403 "forbidden" "Insufficient role for endpoint" "required role mismatch", m)

/-! ### A server at work -/

/-- A server between two requests. -/
structure ServerState where
  world : World
  memory : Memory := {}

/-- The server answers a request. -/
def ServerState.step (env : Env) (s : HTTPServer) (r : Request) (σ : ServerState) : ServerState :=
  let answer := (serve s σ.memory r).run (exec env) σ.world
  { world := answer.2
    memory := match answer.1 with
      | .ok (_, m) => m
      | .error _ => σ.memory }

end Orchestrator
