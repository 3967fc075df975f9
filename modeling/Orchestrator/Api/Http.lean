/-
# HTTP requests

The requests and answers of `internal/api/httpserver.go`, and the table of the roles that a
request needs.  A request carries what the server reads of it; the body is given by what its
decoding as each type of payload yields.
-/
import Orchestrator.Api.Validation
import Orchestrator.Service.Routing
import Orchestrator.Service.Tenancy

namespace Orchestrator

open Lib

/-! ### Requests -/

/-- The method of a request. -/
inductive Method
  | get
  | post
  | put
  | delete
  | other (s : String)
deriving DecidableEq, Repr

/-- What `json.NewDecoder(r.Body).Decode` gives for the payload of each handler: a value, or the
text of an error. -/
structure Body where
  node : Except String Node := .error "EOF"
  used : Except String Resource := .error "EOF"
  deploymentSpec : Except String DeploymentSpec := .error "EOF"
  /-- The target of a rollback; an error is ignored and leaves zero. -/
  revision : ℤ := 0
  policy : Except String AutoscalerPolicy := .error "EOF"
  metric : Except String DeploymentMetricSample := .error "EOF"
  /-- The status and the container id of a report. -/
  status : Except String (WorkloadStatus × String) := .error "EOF"
  serviceSpec : Except String ServiceSpec := .error "EOF"
  nameSpace : Except String Namespace := .error "EOF"
  quota : Except String NamespaceQuota := .error "EOF"
  secret : Except String Secret := .error "EOF"
  volume : Except String PersistentVolume := .error "EOF"
  claim : Except String PersistentVolumeClaim := .error "EOF"
  networkPolicy : Except String NetworkPolicy := .error "EOF"
  job : Except String Job := .error "EOF"
  cronJob : Except String CronJob := .error "EOF"
  binding : Except String RoleBinding := .error "EOF"

/-- A request. -/
structure Request where
  method : Method
  /-- `r.URL.Path`. -/
  path : String
  /-- The parameters of the query, in order. -/
  query : List (String × String) := []
  /-- The header `X-API-Version`. -/
  apiVersion : String := ""
  /-- The header `X-Namespace`. -/
  namespaceHeader : String := ""
  /-- The header `Authorization`. -/
  authorization : String := ""
  /-- Whether the escaped path is in the canonical form that `http.ServeMux` serves; if not, the
  mux answers itself, with a redirect or a 404. -/
  canonical : Bool := true
  body : Body := {}

namespace Request

/-- `r.URL.Query().Get(k)`. -/
def param (r : Request) (k : String) : String :=
  ((r.query.find? fun p => p.1 = k).map Prod.snd).getD ""

/-- `strings.Split(strings.TrimPrefix(r.URL.Path, pfx), "/")`. -/
def parts (r : Request) (pfx : String) : List String :=
  ((trimPrefix r.path pfx).toList.splitOn '/').map String.ofList

end Request

/-- `strings.Contains`. -/
def containsText (s sub : String) : Bool := s.toList.tails.any fun t => sub.toList.isPrefixOf t

/-- `strconv.Atoi`. -/
def atoi (s : String) : Option ℤ :=
  let (negative, digits) := match s.toList with
    | '-' :: ds => (true, ds)
    | '+' :: ds => (false, ds)
    | ds => (false, ds)
  if digits.isEmpty || !digits.all Char.isDigit then none
  else
    let n : ℤ := digits.foldl (fun acc c => 10 * acc + (c.toNat - 48)) 0
    let v := if negative then -n else n
    if -2 ^ 63 ≤ v ∧ v < 2 ^ 63 then some v else none

/-- `parsePositiveIntOrDefault`. -/
def parsePositiveIntOrDefault (raw : String) (fallback : ℤ) : ℤ :=
  match atoi (trimSpace raw) with
  | some v => if v ≤ 0 then fallback else v
  | none => fallback

/-- One `key=value` segment of a label query. -/
def parseLabel (seg : String) : Option (String × String) :=
  let cs := (trimSpace seg).toList
  if cs.contains '=' then
    let k := trimSpace (String.ofList (cs.takeWhile (· ≠ '=')))
    let v := trimSpace (String.ofList ((cs.dropWhile (· ≠ '=')).drop 1))
    if k ≠ "" ∧ v ≠ "" then some (k, v) else none
  else none

/-- `parseLabelQuery`. -/
def parseLabelQuery (raw : String) : StrMap :=
  Table.ofList ((((trimSpace raw).toList.splitOn ',').map String.ofList).filterMap parseLabel)

/-! ### Answers -/

/-- The payload of an answer. -/
inductive Reply
  | ok
  | deployment (d : Deployment)
  | deployments (l : List Deployment)
  | policy (p : AutoscalerPolicy)
  | policies (l : List AutoscalerPolicy)
  | cluster (s : ClusterState)
  | assignments (l : List Assignment)
  | workloads (l : List Workload)
  | service (s : Service)
  | services (l : List Service)
  | endpoint (e : ServiceEndpoint)
  | endpoints (l : List ServiceEndpoint)
  | nameSpace (n : Namespace)
  | namespaces (l : List Namespace)
  | quota (q : NamespaceQuota)
  | quotas (l : List NamespaceQuota)
  | secret (s : Secret)
  | secrets (l : List Secret)
  | volume (v : PersistentVolume)
  | volumes (l : List PersistentVolume)
  | claim (c : PersistentVolumeClaim)
  | claims (l : List PersistentVolumeClaim)
  | networkPolicy (p : NetworkPolicy)
  | networkPolicies (l : List NetworkPolicy)
  | job (j : Job)
  | jobs (l : List Job)
  | cronJob (c : CronJob)
  | cronJobs (l : List CronJob)
  | binding (b : RoleBinding)
  | bindings (l : List RoleBinding)
  /-- A resolved name; the sidecar is told the time to live too. -/
  | resolved (name : String) (endpoints : List ServiceEndpoint) (ttl : Option ℤ)
  | connected (r : Routed)

/-- What the server answers. -/
inductive Response
  /-- `writeAPIError`. -/
  | error (status : ℕ) (code message details : String)
  /-- `writeJSON`. -/
  | json (status : ℕ) (reply : Reply)
  /-- A text or a stream. -/
  | text (status : ℕ)
  /-- The mux has no handler for the path in this form. -/
  | unrouted
  /-- The answer of the endpoint that a request was passed on to. -/
  | proxied (status : ℕ)

/-- The answer to a method that a route does not have. -/
def methodNotAllowed (details : String) : Response :=
  .error 405 "method_not_allowed" "Method not allowed" details

/-- The answer to an unknown route. -/
def routeNotFound (details : String) : Response := .error 404 "not_found" "Route not found" details

/-- `errors.Is(err, store.ErrNotFound)`. -/
def Err.isNotFound : Err → Bool
  | .notFound => true
  | .wrap _ e => e.isNotFound
  | .noSchedulableNode | .message _ => false

/-- Call the service and answer with its result or its error. -/
def answer {α : Type} (p : M α) (ok : α → Response) (failed : Err → Response) : M Response := do
  match ← p.attempt with
  | .ok a => pure (ok a)
  | .error e => pure (failed e)

/-- An error of the service as a `400`. -/
def badRequest (code message : String) (e : Err) : Response := .error 400 code message e.text

/-- An error of the service as a `500`. -/
def serverError (code message : String) (e : Err) : Response := .error 500 code message e.text

/-- Decode the payload, or refuse the request. -/
def decoding {α : Type} (payload : Except String α) (k : α → M Response) : M Response :=
  match payload with
  | .error e => pure (.error 400 "invalid_payload" "Invalid payload" e)
  | .ok a => k a

/-- Refuse a payload that fails validation. -/
def validating (failure : Option String) (message : String) (k : M Response) : M Response :=
  match failure with
  | some e => pure (.error 400 "validation_failed" message e)
  | none => k

/-- A route that has one method. -/
def onlyMethod (r : Request) (m : Method) (details : String) (k : M Response) : M Response :=
  if r.method = m then k else pure (methodNotAllowed details)

/-- A route that creates on `POST` and lists on `GET`. -/
def collection (r : Request) (post get : M Response) : M Response :=
  match r.method with
  | .post => post
  | .get => get
  | _ => pure (methodNotAllowed "use GET or POST")

/-! ### Roles -/

/-- `auth.Principal`. -/
structure Principal where
  subject : String
  roles : List String
deriving DecidableEq, Repr

def requestNamespace (r : Request) : String :=
  let ns := trimSpace (r.param "namespace")
  if ns ≠ "" then ns
  else
    let ns := trimSpace r.namespaceHeader
    if ns ≠ "" then ns else "default"

/-- The roles of both lists, the first spelling of each. -/
def mergeRoles (existing incoming : List String) : List String :=
  (existing ++ incoming).foldl (fun out r =>
    if normalizeRole r = "" ∨ out.any fun q => normalizeRole q = normalizeRole r then out
    else out ++ [r]) []

/-- The roles that may read, those that may write, and those that may do the rest. -/
def readers : List String := ["viewer", "operator", "admin"]

def writers : List String := ["operator", "admin"]

def admins : List String := ["admin"]

def requiredRoles (method : Method) (path : String) : List String :=
  if method = .get ∧ (path = "/v1/cluster" ∨ path = "/v1/deployments" ∨
      hasPrefix path "/v1/workers/" ∨ hasPrefix path "/v1/services" ∨
      hasPrefix path "/v1/dns/" ∨ hasPrefix path "/v1/network/services/") then readers
  else if method = .get ∧ (path = "/v1/namespaces" ∨ path = "/v1/quotas" ∨
      path = "/v1/secrets") then readers
  else if method = .get ∧ (path = "/v1/persistent-volumes" ∨
      path = "/v1/persistent-volume-claims" ∨ path = "/v1/network-policies" ∨
      path = "/v1/jobs" ∨ path = "/v1/cronjobs" ∨ path = "/v1/rbac/rolebindings") then readers
  else if method = .post ∧ (path = "/v1/namespaces" ∨ path = "/v1/quotas" ∨
      path = "/v1/secrets") then writers
  else if method = .post ∧ (path = "/v1/persistent-volumes" ∨
      path = "/v1/persistent-volume-claims" ∨ path = "/v1/network-policies" ∨
      path = "/v1/jobs" ∨ path = "/v1/cronjobs" ∨ path = "/v1/rbac/rolebindings") then writers
  else if method = .post ∧ path = "/v1/recovery/run" then admins
  else if method = .get ∧ (path = "/v1/metrics/prometheus" ∨
      path = "/v1/health/nodes/trends") then readers
  else if method = .post ∧ hasSuffix path "/drain" then writers
  else if method = .post ∧ hasSuffix path "/remove" then admins
  else if method = .post ∧ path = "/v1/services" then writers
  else if method = .get ∧ path = "/v1/autoscalers" then readers
  else if method = .post ∧ (path = "/v1/autoscalers" ∨ path = "/v1/metrics/deployments") then
    writers
  else if method = .delete ∧ hasPrefix path "/v1/autoscalers/" then admins
  else if method = .put ∧ hasPrefix path "/v1/deployments/" then writers
  else if method = .post ∧ hasSuffix path "/rollback" then writers
  else if method = .get ∧ (path = "/v1/events" ∨ path = "/v1/events/stream") then readers
  else if method = .post ∧ (path = "/v1/deployments" ∨ path = "/v1/nodes/register" ∨
      containsText path "/heartbeat" ∨ containsText path "/status") then writers
  else if method = .delete ∧ hasPrefix path "/v1/deployments/" then admins
  else admins

def isAuthorized (p : Principal) (method : Method) (path : String) : Bool :=
  let required := requiredRoles method path
  required.isEmpty || required.any fun rr => p.roles.any fun r => normalizeRole r = rr

end Orchestrator
