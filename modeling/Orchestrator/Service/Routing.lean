/-
# Routing of service traffic

How a request for a service finds an endpoint: the lookup of the service by its name, the
choice of an endpoint by the balancer (`internal/loadbalancer/balancer.go`), and the check of
the network policies.  The balancer keeps its counters in memory; they are passed on from call
to call.
-/
import Orchestrator.Service.Controller

namespace Orchestrator

open Lib

/-! ### The balancer -/

/-- The counters of the balancer. -/
structure Balancer where
  rrIndex : String → ℕ := fun _ => 0
  inflight : String → ℤ := fun _ => 0

namespace Balancer

/-- The choice is counted as a connection. -/
def count (b : Balancer) (ep : ServiceEndpoint) : Balancer :=
  { b with inflight := Function.update b.inflight ep.id (b.inflight ep.id + 1) }

/-- The endpoint with the fewest connections, the first one among equals. -/
def leastConnections (b : Balancer) (first : ServiceEndpoint) (rest : List ServiceEndpoint) :
    ServiceEndpoint :=
  rest.foldl (fun best ep => if b.inflight ep.id < b.inflight best.id then ep else best) first

/-- `Select`. -/
def select (b : Balancer) (serviceID strategy : String) (endpoints : List ServiceEndpoint) :
    Except Err ServiceEndpoint × Balancer :=
  match sortStable (fun a b => decide (a.id < b.id)) (endpoints.filter ServiceEndpoint.ready) with
  | [] => (.error (.message "no ready endpoints"), b)
  | first :: rest =>
    if strategy = "" ∨ strategy = "round-robin" then
      let ready := first :: rest
      let idx := b.rrIndex serviceID % ready.length
      let b := { b with rrIndex := Function.update b.rrIndex serviceID ((idx + 1) % ready.length) }
      let selected := ready.getD idx first
      (.ok selected, b.count selected)
    else if strategy = "least-connections" then
      let selected := b.leastConnections first rest
      (.ok selected, b.count selected)
    else (.error (.message "unsupported balancing strategy"), b)

/-- `Release`. -/
def release (b : Balancer) (endpointID : String) : Balancer :=
  if b.inflight endpointID > 0 then
    { b with inflight := Function.update b.inflight endpointID (b.inflight endpointID - 1) }
  else b

end Balancer

/-! ### Services by name -/

/-- The comparison of `findServiceByName` and `ResolveServiceDNS`. -/
def Service.called (name : String) (svc : Service) : Bool :=
  equalFold (trimSpace svc.spec.name) (trimSpace name)

def findServiceByName (name : String) : M Service := do
  let services ← StateStore.listServices
  match services.find? (Service.called name) with
  | some svc => pure svc
  | none => Prog.fail .notFound

/-- `ListServiceEndpoints`. -/
def listServiceEndpoints (serviceID : String) : M (List ServiceEndpoint) := do
  let _ ← StateStore.getService serviceID
  StateStore.listServiceEndpoints serviceID

/-- `ResolveServiceDNS`: the name, the endpoints and the time to live. -/
def resolveServiceDNS (name : String) : M (String × List ServiceEndpoint × ℤ) := do
  let svc ← findServiceByName name
  let endpoints ← StateStore.listServiceEndpoints svc.id
  pure (svc.spec.name ++ ".default.svc.cluster.local", endpoints,
    if svc.dnsRecordTTLSeconds ≤ 0 then 30 else svc.dnsRecordTTLSeconds)

/-- `SelectServiceEndpoint`: the endpoints on ready nodes are offered to the balancer. -/
def selectServiceEndpoint (b : Balancer) (serviceID strategy : String) :
    M (Except Err ServiceEndpoint × Balancer) := do
  match ← (StateStore.getService serviceID).attempt with
  | .error e => pure (.error e, b)
  | .ok _ =>
    let endpoints ← StateStore.listServiceEndpoints serviceID
    let nodes ← StateStore.listNodes
    let filtered := endpoints.filter fun ep =>
      nodes.any fun n => decide (n.id = ep.nodeID ∧ n.status = .ready)
    pure (b.select serviceID strategy filtered)

/-- Where `RouteServiceTraffic` sends a request. -/
structure Routed where
  service : Service
  endpoint : ServiceEndpoint
  host : String
  port : ℤ
deriving DecidableEq

/-- The address of a service that has an endpoint. -/
def routeTo (svc : Service) (target : ServiceEndpoint) : Except Err Routed :=
  match svc.spec.ports with
  | [] => .error (.message "service has no ports")
  | servicePort :: _ =>
    if svc.spec.type = .nodePort then
      if servicePort.nodePort = 0 then .error (.message "nodeport service missing nodePort")
      else .ok ⟨svc, target, target.address, servicePort.nodePort⟩
    else .ok ⟨svc, target, svc.clusterIP, servicePort.port⟩

/-- `RouteServiceTraffic`.  The chosen endpoint stays counted when the routing fails after the
choice. -/
def routeServiceTraffic (b : Balancer) (serviceName strategy : String) :
    M (Except Err Routed × Balancer) := do
  match ← (findServiceByName serviceName).attempt with
  | .error e => pure (.error e, b)
  | .ok svc =>
    match ← selectServiceEndpoint b svc.id strategy with
    | (.error e, b) => pure (.error e, b)
    | (.ok target, b) => pure (routeTo svc target, b)

/-! ### Network policies -/

/-- The policies that are applied to a service: those whose pod selector the service's own
selector matches. -/
def applicablePolicies (svc : Service) (policies : List NetworkPolicy) : List NetworkPolicy :=
  policies.filter fun p => labelsMatchSelector svc.spec.selector p.podSelector

/-- A peer of a rule that stands for the source. -/
def NetworkPolicy.peerMatches (p : NetworkPolicy) (sourceNamespace : String)
    (sourceLabels : StrMap) (peer : NetworkPolicyPeer) : Bool :=
  (blank peer.nameSpace || equalFold peer.nameSpace sourceNamespace) &&
  (peer.labels.rows.isEmpty || labelsMatchSelector sourceLabels peer.labels) &&
  (blank p.group || sourceLabels.lookup "group" = p.group)

/-- The reason for which an ingress rule lets the source in, if it does. -/
def NetworkPolicy.ruleVerdict (p : NetworkPolicy) (sourceNamespace : String)
    (sourceLabels : StrMap) (port : ℤ) (rule : NetworkPolicyRule) : Option String :=
  if rule.port > 0 ∧ rule.port ≠ port then none
  else if rule.sources = [] then some "allow_empty_from"
  else if rule.sources.any (p.peerMatches sourceNamespace sourceLabels) then
    some "allow_matched_rule"
  else none

/-- The decision on the policies of a namespace. -/
def networkVerdict (sourceNamespace : String) (sourceLabels : StrMap) (svc : Service) (port : ℤ)
    (policies : List NetworkPolicy) : Bool × String :=
  let applicable := applicablePolicies svc policies
  if applicable = [] then (true, "no_applicable_policy")
  else
    match applicable.findSome? fun p =>
        p.ingress.findSome? (p.ruleVerdict sourceNamespace sourceLabels port) with
    | some reason => (true, reason)
    | none => (false, "denied_by_network_policy")

def isNetworkAccessAllowed (sourceNamespace : String) (sourceLabels : StrMap) (svc : Service)
    (port : ℤ) : M (Bool × String) := do
  let sourceNamespace := if blank sourceNamespace then "default" else sourceNamespace
  let policies ← StateStore.listNetworkPolicies svc.spec.nameSpace
  pure (networkVerdict sourceNamespace sourceLabels svc port policies)

end Orchestrator
