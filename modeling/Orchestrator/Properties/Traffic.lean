/-
# Network policies and the workloads they select

A network policy selects workloads by their labels, but `IsNetworkAccessAllowed` never looks at
the workload that a request is routed to: it compares the policy's selector with the selector of
the service.  A policy whose selector is matched by the labels of the deployment, and not by the
service's own selector, is not applied, and if no other policy is, every source is let in.
-/
import Orchestrator.Logic.Requests
import Orchestrator.System

namespace Orchestrator

open Lib

variable {env : Env}

/-! ### The decision -/

variable (s : HTTPServer) (m : Memory) (r : Request) (name : String)

/-- The namespace that a request comes from. -/
def sourceNamespace : String := orDefault (trimSpace (r.param "sourceNamespace"))

/-- The labels that a request comes with. -/
def sourceLabels : StrMap := parseLabelQuery (r.param "sourceLabels")

/-- The policies of the namespace of a service. -/
def policiesOf (st : Store) (svc : Service) : List NetworkPolicy :=
  st.list .networkPolicy (keyNetworkPolicyPrefix svc.spec.nameSpace)

/-- What `IsNetworkAccessAllowed` answers for a routed request. -/
def trafficVerdict (st : Store) (routed : Routed) : Bool × String :=
  networkVerdict (sourceNamespace r) (sourceLabels r) routed.service routed.endpoint.port
    (policiesOf st routed.service)

lemma admitTraffic_run (routed : Routed) (w : World) :
    (admitTraffic r routed).run (exec env) w = (.ok (trafficVerdict r w.store routed), w) := rfl

/-- Some applicable policy has an ingress rule that lets the request in. -/
def LetIn (st : Store) (routed : Routed) : Prop :=
  ∃ p ∈ applicablePolicies routed.service (policiesOf st routed.service), ∃ rule ∈ p.ingress,
    (p.ruleVerdict (sourceNamespace r) (sourceLabels r) routed.endpoint.port rule).isSome

lemma mem_policiesOf {st : Store} {svc : Service} {p : NetworkPolicy}
    (hp : p ∈ (st .networkPolicy).rows) (hns : p.nameSpace = svc.spec.nameSpace) :
    p ∈ policiesOf st svc := by
  unfold policiesOf Store.list
  split_ifs
  · exact hp
  · refine List.mem_filter.mpr ⟨hp, hasPrefix_iff.mpr ⟨p.name, ?_⟩⟩
    rw [← hns]
    rfl

variable {r}

/-- If a policy is applied, the decision is not the one for no policy, and a request is let in by
a rule only. -/
lemma trafficVerdict_of_applicable {st : Store} {routed : Routed} {p : NetworkPolicy}
    (hp : p ∈ applicablePolicies routed.service (policiesOf st routed.service)) :
    (trafficVerdict r st routed).2 ≠ "no_applicable_policy" ∧
      ((trafficVerdict r st routed).1 = true → LetIn r st routed) := by
  have hne : applicablePolicies routed.service (policiesOf st routed.service) ≠ [] :=
    List.ne_nil_of_mem hp
  unfold trafficVerdict networkVerdict
  dsimp only
  rw [if_neg hne]
  split
  · rename_i reason hsome
    obtain ⟨q, hq, hrules⟩ := List.exists_of_findSome?_eq_some hsome
    obtain ⟨rule, hrule, hverdict⟩ := List.exists_of_findSome?_eq_some hrules
    refine ⟨?_, fun _ => ⟨q, hq, rule, hrule, by rw [hverdict]; rfl⟩⟩
    unfold NetworkPolicy.ruleVerdict at hverdict
    split_ifs at hverdict <;> cases hverdict <;> decide
  · exact ⟨by decide, fun h => absurd h Bool.false_ne_true⟩

/-! ### Connect and proxy requests -/

/-- The request was let through to the endpoint. -/
def Response.passed : Response → Bool
  | .json _ (.connected _) => true
  | .proxied _ => true
  -- the endpoint was tried and did not answer
  | .error 502 _ _ _ => true
  | _ => false

variable {s m name} {w : World} {routed : Routed} {b : Balancer}

/-- The routing of a request for a service. -/
abbrev Routes (env : Env) (m : Memory) (r : Request) (name : String) (w : World) (routed : Routed)
    (b : Balancer) : Prop :=
  (routeServiceTraffic m.balance name (trimSpace (r.param "strategy"))).result (exec env) w =
    .ok (.ok routed, b)

lemma Routes.run (hroute : Routes env m r name w routed b) {w' : World}
    (hstore : w'.store = w.store) :
    (routeServiceTraffic m.balance name (trimSpace (r.param "strategy"))).run (exec env) w' =
      (.ok (.ok routed, b), w') := by
  rw [(looks_routeServiceTraffic _ _ _).run env env hstore, hroute]

lemma policyDenied_not_passed (reason : String) : (policyDenied reason).passed = false := rfl

/-- A `connect` request that is granted is one that the policies allow. -/
lemma connect_passed (hroute : Routes env m r name w routed b) {resp : Response} {m' : Memory}
    (h : (handleConnect m r name).result (exec env) w = .ok (resp, m'))
    (hpass : resp.passed = true) : (trafficVerdict r w.store routed).1 = true := by
  by_contra hdenied
  unfold handleConnect Prog.result at h
  rw [Prog.run_bind_ok _ (hroute.run rfl)] at h
  rw [Prog.run_bind_ok _ (admitTraffic_run r routed w)] at h
  dsimp only at h
  rw [if_neg hdenied] at h
  obtain ⟨rfl, -⟩ := Prod.mk.inj (Except.ok.inj h)
  rw [policyDenied_not_passed] at hpass
  cases hpass

/-- A `proxy` request that is passed on is one that the policies allow. -/
lemma proxy_passed (hroute : Routes env m r name w routed b) {resp : Response} {m' : Memory}
    (h : (handleProxy s m r name).result (exec env) w = .ok (resp, m'))
    (hpass : resp.passed = true) : (trafficVerdict r w.store routed).1 = true := by
  by_contra hdenied
  unfold handleProxy Prog.result at h
  rw [Prog.run_bind_ok _ (show timeNow.run (exec env) w = _ from rfl)] at h
  dsimp only at h
  split_ifs at h
  · obtain ⟨rfl, -⟩ := Prod.mk.inj (Except.ok.inj h)
    cases hpass
  · have hrun := hroute.run (show (exec env .now w).2.store = w.store from rfl)
    rw [Prog.run_bind_ok _ hrun] at h
    rw [Prog.run_bind_ok _ (admitTraffic_run r routed _)] at h
    have hdenied' : ¬(trafficVerdict r (exec env .now w).2.store routed).1 = true := hdenied
    rw [if_neg hdenied'] at h
    obtain ⟨rfl, -⟩ := Prod.mk.inj (Except.ok.inj h)
    rw [policyDenied_not_passed] at hpass
    cases hpass

/-! ### The policies of the selected workloads -/

/-- The endpoint belongs to a workload of a deployment in the service's namespace whose labels
the policy selects. -/
def SelectedBy (st : Store) (routed : Routed) (p : NetworkPolicy) : Prop :=
  ∃ v ∈ (st .workload).rows, ∃ d ∈ (st .deployment).rows,
    Workload.id v = routed.endpoint.workloadID ∧ Workload.deploymentID v = Deployment.id d ∧
    trimSpace (Deployment.spec d).nameSpace = trimSpace routed.service.spec.nameSpace ∧
    labelsMatchSelector ((Deployment.spec d).labels.getD Table.empty) p.podSelector = true

instance decidableSelectedBy (st : Store) (routed : Routed) (p : NetworkPolicy) :
    Decidable (SelectedBy st routed p) :=
  inferInstanceAs (Decidable (∃ v ∈ (st .workload).rows, ∃ d ∈ (st .deployment).rows, _))

/-- The policy protects the endpoint that a request is routed to: it is applied, and requests are
let through only by a rule of an applied policy. -/
structure Protects (env : Env) (s : HTTPServer) (m : Memory) (r : Request) (name : String)
    (w : World) (routed : Routed) (p : NetworkPolicy) : Prop where
  applied : p ∈ applicablePolicies routed.service (policiesOf w.store routed.service)
  decided : (trafficVerdict r w.store routed).2 ≠ "no_applicable_policy"
  connect : ∀ resp m', (handleConnect m r name).result (exec env) w = .ok (resp, m') →
    resp.passed = true → LetIn r w.store routed
  proxy : ∀ resp m', (handleProxy s m r name).result (exec env) w = .ok (resp, m') →
    resp.passed = true → LetIn r w.store routed

/-- **A policy protects the workloads it selects exactly if the service's own selector has the
labels that the policy selects by.** -/
theorem policy_protects_iff (env : Env) (s : HTTPServer) (m : Memory) (r : Request) (name : String)
    (w : World) (routed : Routed) (b : Balancer) (p : NetworkPolicy)
    (hroute : Routes env m r name w routed b) (hp : p ∈ (w.store .networkPolicy).rows)
    (hns : p.nameSpace = routed.service.spec.nameSpace) (hsel : SelectedBy w.store routed p) :
    Protects env s m r name w routed p ↔
      ∀ kv ∈ p.podSelector.rows, routed.service.spec.selector.lookup kv.1 = kv.2 := by
  obtain ⟨v, -, d, -, -, -, -, hlabels⟩ := hsel
  have hnonempty := (labelsMatchSelector_iff.mp hlabels).1
  constructor
  · rintro ⟨happlied, -, -, -⟩
    exact (labelsMatchSelector_iff.mp (List.mem_filter.mp happlied).2).2
  · intro hall
    have happlied : p ∈ applicablePolicies routed.service (policiesOf w.store routed.service) :=
      List.mem_filter.mpr ⟨mem_policiesOf hp hns, labelsMatchSelector_iff.mpr ⟨hnonempty, hall⟩⟩
    obtain ⟨hdecided, hletIn⟩ := trafficVerdict_of_applicable (r := r) happlied
    exact ⟨happlied, hdecided, fun _ _ h hpass => hletIn (connect_passed hroute h hpass),
      fun _ _ h hpass => hletIn (proxy_passed hroute h hpass)⟩

/-! ### A database behind a service -/

/-- A database whose deployment is labelled as data. -/
def databaseSpec : DeploymentSpec :=
  { nameSpace := "default", name := "db", image := "img",
    labels := some (Table.ofList [("app", "db"), ("tier", "data")]) }

/-- A service in front of it. -/
def databaseService (selector : List (String × String)) : Service :=
  { id := "s1"
    spec := { nameSpace := "default", name := "db", selector := Table.ofList selector,
              ports := [{ port := 80, targetPort := 5432, protocol := .tcp }] } }

/-- A policy without rules for what is labelled as data. -/
def closedPolicy : NetworkPolicy :=
  { nameSpace := "default", name := "closed", podSelector := Table.ofList [("tier", "data")] }

/-- The store with the database, the service and the policy. -/
def guardedStore (selector : List (String × String)) : Store :=
  ((((Store.empty.put .node { id := "n1" }).put .deployment { id := "d1", spec := databaseSpec }).put
    .workload { id := "w1", deploymentID := "d1", nodeID := "n1", status := .running }).put
    .service (databaseService selector)).put .networkPolicy closedPolicy

/-- The world after the endpoints of the service have been made. -/
def guardedWorld (selector : List (String × String)) : World :=
  (reconcileServiceEndpoints "s1").final (exec steadyEnv) { store := guardedStore selector, tick := 0 }

/-- The endpoint of the database. -/
def databaseEndpoint : ServiceEndpoint :=
  { id := "s1-w1-5432", serviceID := "s1", workloadID := "w1", nodeID := "n1", address := "n1"
    port := 5432, protocol := .tcp, ready := true, updatedAt := steadyEnv.clock 0 }

/-- A request for it from anywhere. -/
def databaseRequest : Request := { method := .get, path := "/v1/network/services/db/connect" }

/-- Where a request is routed, if it is. -/
def routedOf : Except Err (Except Err Routed × Balancer) → Option Routed
  | .ok (.ok routed, _) => some routed
  | _ => none

lemma exists_routes {x : Except Err (Except Err Routed × Balancer)}
    (h : routedOf x = some routed) : ∃ b, x = .ok (.ok routed, b) := by
  unfold routedOf at h
  split at h
  · rename_i b
    cases h
    exact ⟨b, rfl⟩
  · cases h

/-- A service that selects by both labels: the policy is applied. -/
def bothLabels : List (String × String) := [("app", "db"), ("tier", "data")]

/-- Where the request goes. -/
def databaseRouted (selector : List (String × String)) : Routed :=
  ⟨databaseService selector, databaseEndpoint, "", 80⟩

theorem policy_protects_iff_both :
    ∃ b, Routes steadyEnv {} databaseRequest "db" (guardedWorld bothLabels)
        (databaseRouted bothLabels) b ∧
      (∀ s, Protects steadyEnv s {} databaseRequest "db" (guardedWorld bothLabels)
          (databaseRouted bothLabels) closedPolicy) := by
  obtain ⟨b, hb⟩ : ∃ b, Routes steadyEnv {} databaseRequest "db" (guardedWorld bothLabels)
      (databaseRouted bothLabels) b :=
    exists_routes (show routedOf ((routeServiceTraffic {} "db" "").result (exec steadyEnv)
      (guardedWorld bothLabels)) = _ by decide +kernel)
  refine ⟨b, hb, fun s => ?_⟩
  exact (policy_protects_iff steadyEnv s {} databaseRequest "db" (guardedWorld bothLabels)
    (databaseRouted bothLabels) b closedPolicy hb (by decide +kernel) rfl (by decide +kernel)).mpr
    (by decide +kernel)

/-- A service that selects by the other label only: a request is let through to the database that
the policy closes, because no policy is applied. -/
theorem selected_workload_unprotected :
    (∃ b, Routes steadyEnv {} databaseRequest "db" (guardedWorld [("app", "db")])
        (databaseRouted [("app", "db")]) b) ∧
      closedPolicy ∈ ((guardedWorld [("app", "db")]).store .networkPolicy).rows ∧
      SelectedBy (guardedWorld [("app", "db")]).store (databaseRouted [("app", "db")])
        closedPolicy ∧
      closedPolicy.ingress = [] ∧
      trafficVerdict databaseRequest (guardedWorld [("app", "db")]).store
        (databaseRouted [("app", "db")]) = (true, "no_applicable_policy") ∧
      ((handleConnect {} databaseRequest "db").result (exec steadyEnv)
        (guardedWorld [("app", "db")])).toOption.any (fun x => x.1.passed) = true := by
  refine ⟨?_, by decide +kernel, by decide +kernel, rfl, by decide +kernel, by decide +kernel⟩
  exact exists_routes (show routedOf ((routeServiceTraffic {} "db" "").result (exec steadyEnv)
    (guardedWorld [("app", "db")])) = _ by decide +kernel)

end Orchestrator
