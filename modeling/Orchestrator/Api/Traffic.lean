/-
# Service traffic, call by call

The handlers for service traffic once more, as programs whose calls are those to the store and to
what the server keeps in memory.  `Balancer.Select`, `Balancer.Release` and the functions on the
circuit breakers hold a mutex from beginning to end, so each of them is one call.  Cut at their
calls, requests can be interleaved; run from start to end, they are the handlers of
`Api/Handlers.lean` (`trafficHandler_run`).

`defer s.orch.ReleaseServiceEndpoint(…)` is the last call of a request that has an endpoint.
-/
import Orchestrator.Api.Handlers

namespace Orchestrator

open Lib

/-! ### Calls -/

inductive TrafficCall
  | store (c : Call)
  /-- `Balancer.Select`. -/
  | select (serviceID strategy : String) (endpoints : List ServiceEndpoint)
  /-- `Balancer.Release`. -/
  | release (endpointID : String)
  /-- The breaker of a service is looked up. -/
  | breaker (name : String)
  /-- `recordCircuitFailure`. -/
  | recordFailure (name : String) (threshold openSec : ℤ) (reason : String)
  /-- `recordCircuitSuccess`. -/
  | recordSuccess (name : String)
  /-- An attempt to reach an endpoint. -/
  | upstream (ep : ServiceEndpoint) (attempt : ℕ)

def TrafficCall.Res : TrafficCall → Type
  | store c => c.Res
  | select _ _ _ => Except Err ServiceEndpoint
  | release _ => Unit
  | breaker _ => BreakerState
  | recordFailure _ _ _ _ => Unit
  | recordSuccess _ => Unit
  | upstream _ _ => Except String ℕ

namespace ServerState

/-- The balancer is replaced. -/
def setBalance (x : ServerState) (b : Balancer) : ServerState :=
  { x with memory := { x.memory with balance := b } }

/-- The memory is changed by a function that reads the clock. -/
def remember (env : Env) (x : ServerState) (f : Memory → M Memory) : ServerState :=
  match (f x.memory).run (exec env) x.world with
  | (.ok m, w) => ⟨w, m⟩
  | (.error _, w) => { x with world := w }

end ServerState

def execTraffic (env : Env) (s : HTTPServer) :
    (c : TrafficCall) → ServerState → c.Res × ServerState
  | .store c, x => ((exec env c x.world).1, { x with world := (exec env c x.world).2 })
  | .select serviceID strategy endpoints, x =>
    let selected := x.memory.balance.select serviceID strategy endpoints
    (selected.1, x.setBalance selected.2)
  | .release endpointID, x => ((), x.setBalance (x.memory.balance.release endpointID))
  | .breaker name, x => (x.memory.breakers name, x)
  | .recordFailure name threshold openSec reason, x =>
    ((), x.remember env fun m => recordCircuitFailure m name threshold openSec reason)
  | .recordSuccess name, x => ((), { x with memory := x.memory.setBreaker name {} })
  | .upstream ep attempt, x => (s.upstream ep attempt, x)

/-- Programs that make these calls. -/
abbrev Traffic := Prog TrafficCall.Res Err

/-- A program on the store. -/
def onStore {α : Type} : M α → Traffic α
  | .ret r => .ret r
  | .call c k => .call (.store c) fun a => onStore (k a)

namespace Traffic

def select (serviceID strategy : String) (endpoints : List ServiceEndpoint) :
    Traffic (Except Err ServiceEndpoint) :=
  Prog.issue (TrafficCall.select serviceID strategy endpoints)

def release (endpointID : String) : Traffic Unit := Prog.issue (TrafficCall.release endpointID)

def breaker (name : String) : Traffic BreakerState := Prog.issue (TrafficCall.breaker name)

def recordFailure (name : String) (threshold openSec : ℤ) (reason : String) : Traffic Unit :=
  Prog.issue (TrafficCall.recordFailure name threshold openSec reason)

def recordSuccess (name : String) : Traffic Unit := Prog.issue (TrafficCall.recordSuccess name)

def upstream (ep : ServiceEndpoint) (attempt : ℕ) : Traffic (Except String ℕ) :=
  Prog.issue (TrafficCall.upstream ep attempt)

/-! ### Handlers -/

/-- `SelectServiceEndpoint`. -/
def selectServiceEndpoint (serviceID strategy : String) : Traffic (Except Err ServiceEndpoint) := do
  match ← onStore (StateStore.getService serviceID).attempt with
  | .error e => pure (.error e)
  | .ok _ =>
    let endpoints ← onStore (StateStore.listServiceEndpoints serviceID)
    let nodes ← onStore StateStore.listNodes
    let filtered := endpoints.filter fun ep =>
      nodes.any fun n => decide (n.id = ep.nodeID ∧ n.status = .ready)
    select serviceID strategy filtered

/-- `RouteServiceTraffic`. -/
def routeServiceTraffic (serviceName strategy : String) : Traffic (Except Err Routed) := do
  match ← onStore (findServiceByName serviceName).attempt with
  | .error e => pure (.error e)
  | .ok svc =>
    match ← selectServiceEndpoint svc.id strategy with
    | .error e => pure (.error e)
    | .ok target => pure (routeTo svc target)

variable (r : Request)

def handleServiceSubroutes : Traffic Response :=
  match r.parts "/v1/services/" with
  | [serviceID, sub] =>
    if sub = "endpoints" then
      onStore <| onlyMethod r .get "use GET" <|
        answer (listServiceEndpoints serviceID) (fun items => .json 200 (.endpoints items))
          (serviceError serviceID
            (serverError "list_endpoints_failed" "List service endpoints failed"))
    else if sub = "proxy-target" then
      if r.method = .get then do
        match ← selectServiceEndpoint serviceID (trimSpace (r.param "strategy")) with
        | .error e =>
          pure (serviceError serviceID
            (badRequest "select_target_failed" "Failed to select service endpoint") e)
        | .ok ep =>
          release ep.id
          pure (.json 200 (.endpoint ep))
      else pure (methodNotAllowed "use GET")
    else pure (routeNotFound "unknown service subroute")
  | _ => pure (routeNotFound "unknown service subroute")

/-- The branch `connect`. -/
def handleConnect (name : String) : Traffic Response := do
  match ← routeServiceTraffic name (trimSpace (r.param "strategy")) with
  | .error e => pure (serviceError name (badRequest "connect_failed" "Service connect failed") e)
  | .ok routed =>
    let (allowed, reason) ← onStore (admitTraffic r routed)
    release routed.endpoint.id
    if allowed then pure (.json 200 (.connected routed)) else pure (policyDenied reason)

/-- The attempts at an endpoint. -/
def tryUpstream (ep : ServiceEndpoint) : ℕ → ℕ → Traffic (Except String ℕ)
  | k, 0 => upstream ep k
  | k, retries + 1 => do
    match ← upstream ep k with
    | .ok status => if status < 500 then pure (.ok status) else tryUpstream ep (k + 1) retries
    | .error _ => tryUpstream ep (k + 1) retries

/-- The request is passed on to the endpoint. -/
def proxyTo (name : String) (ep : ServiceEndpoint) (retries threshold openSec : ℤ) :
    Traffic Response := do
  match ← tryUpstream ep 0 retries.toNat with
  | .error e =>
    recordFailure name threshold openSec e
    pure (.error 502 "proxy_upstream_failed" "Upstream request failed" e)
  | .ok status =>
    if status ≥ 500 then recordFailure name threshold openSec "upstream 5xx"
      else recordSuccess name
    pure (.proxied status)

/-- The branch `proxy`. -/
def handleProxy (name : String) : Traffic Response := do
  let retries := parsePositiveIntOrDefault (r.param "retries") 1
  let threshold := parsePositiveIntOrDefault (r.param "cbThreshold") 3
  let openSec := parsePositiveIntOrDefault (r.param "cbOpenSec") 15
  let now ← onStore timeNow
  let b ← breaker name
  if now < b.openUntil then
    pure (.error 503 "circuit_open" "Circuit breaker open" b.lastReason)
  else
    match ← routeServiceTraffic name (trimSpace (r.param "strategy")) with
    | .error e =>
      if e.isNotFound then pure (.error 404 "service_not_found" "Service not found" name)
      else do
        recordFailure name threshold openSec e.text
        pure (badRequest "proxy_failed" "Service proxy failed" e)
    | .ok routed =>
      let (allowed, reason) ← onStore (admitTraffic r routed)
      let resp ← (if allowed then proxyTo name routed.endpoint retries threshold openSec
        else pure (policyDenied reason))
      release routed.endpoint.id
      pure resp

def handleNetworkServiceSubroutes : Traffic Response :=
  match r.parts "/v1/network/services/" with
  | name :: sub :: _ =>
    if r.method ≠ .get then pure (methodNotAllowed "use GET")
    else if sub = "connect" then handleConnect r name
    else if sub = "proxy" then handleProxy r name
    else pure (routeNotFound "unknown network service route")
  | _ => pure (routeNotFound "unknown network service route")

end Traffic

end Orchestrator
