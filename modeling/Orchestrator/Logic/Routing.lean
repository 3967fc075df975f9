/-
# How a service is found

The lookups of `RouteServiceTraffic` and `ResolveServiceDNS` on a store: the service is the first
one in the order of the ids that is called by the name, in whatever namespace it is, and the
endpoints are those under the key prefix of its id.
-/
import Orchestrator.Logic.Effects
import Orchestrator.Service.Routing

namespace Orchestrator

open Lib

variable {env : Env} {st : Store} {name : String} {svc : Service}

/-- The service that a name stands for. -/
def serviceNamed (st : Store) (name : String) : Option Service :=
  (st .service).rows.find? (Service.called name)

/-- The endpoints that are listed for the id of a service. -/
def endpointsOf (st : Store) (id : String) : List ServiceEndpoint :=
  st.list .endpoint (keyServiceEndpointPrefix id)

/-- The endpoints of a service that are offered to the balancer: those on ready nodes. -/
def offeredFor (st : Store) (id : String) : List ServiceEndpoint :=
  (endpointsOf st id).filter fun ep =>
    (st .node).rows.any fun n => decide (Node.id n = ep.nodeID ∧ Node.status n = .ready)

lemma mem_of_serviceNamed (h : serviceNamed st name = some svc) :
    svc ∈ (st .service).rows ∧ svc.called name = true :=
  ⟨List.mem_of_find?_eq_some h, List.find?_some h⟩

lemma findServiceByName_run (name : String) (w : World) :
    (findServiceByName name).run (exec env) w =
      ((serviceNamed w.store name).elim (.error .notFound) .ok, w) := by
  have hlist : StateStore.listServices.run (exec env) w = (.ok (w.store .service).rows, w) := rfl
  rw [findServiceByName, Prog.run_bind_ok _ hlist, serviceNamed]
  cases (w.store .service).rows.find? (Service.called name) <;> rfl

/-- What `ResolveServiceDNS` says of a service. -/
def dnsRecord (st : Store) (svc : Service) : String × List ServiceEndpoint × ℤ :=
  (svc.spec.name ++ ".default.svc.cluster.local", endpointsOf st svc.id,
    if svc.dnsRecordTTLSeconds ≤ 0 then 30 else svc.dnsRecordTTLSeconds)

lemma resolveServiceDNS_run (name : String) (w : World) :
    (resolveServiceDNS name).run (exec env) w =
      ((serviceNamed w.store name).elim (.error .notFound) fun svc => .ok (dnsRecord w.store svc),
        w) := by
  rw [resolveServiceDNS, Prog.run_bind, findServiceByName_run]
  cases serviceNamed w.store name <;> rfl

/-- A stored service is found by its id, and the balancer chooses among what is offered. -/
lemma run_selectServiceEndpoint (env : Env) (b : Balancer) (strategy : String) {w : World}
    (hsvc : svc ∈ (w.store .service).rows) :
    (selectServiceEndpoint b svc.id strategy).run (exec env) w =
      (.ok (b.select svc.id strategy (offeredFor w.store svc.id)), w) := by
  have hget : (w.store .service).get svc.id = some svc := Table.get_of_mem hsvc
  have hfound : (StateStore.getService svc.id).attempt.run (exec env) w = (.ok (.ok svc), w) := by
    rw [Prog.run_attempt, StateStore.getService, find_run, hget]
    rfl
  rw [selectServiceEndpoint, Prog.run_bind_ok _ hfound]
  rfl

end Orchestrator
