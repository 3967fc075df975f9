/-
# The port of a routed request

`RouteServiceTraffic` lets the balancer choose among the endpoints of all ports of a service, and
answers with the first port of the service, whatever endpoint was chosen.  The two belong to the
same port in every state of the balancer exactly if each endpoint that it can choose is one of a
port which is reached in the same way as the first.
-/
import Orchestrator.Logic.Routing
import Orchestrator.Properties.Balancing
import Orchestrator.Properties.Traffic

namespace Orchestrator

open Lib

variable {env : Env} {svc : Service} {target : ServiceEndpoint} {routed : Routed}

/-- The port by which a service is reached through one of its ports. -/
def Service.advertised (svc : Service) (p : ServicePort) : ℤ :=
  if svc.spec.type = .nodePort then p.nodePort else p.port

/-- The endpoint and the advertised port belong to one port of the service. -/
def Service.Pairs (svc : Service) (e : ServiceEndpoint) (q : ℤ) : Prop :=
  ∃ p ∈ svc.spec.ports, e.port = p.targetPort ∧ e.protocol = p.protocol ∧ q = svc.advertised p

instance (svc : Service) (e : ServiceEndpoint) (q : ℤ) : Decidable (svc.Pairs e q) :=
  inferInstanceAs (Decidable (∃ p ∈ svc.spec.ports, _))

/-- The port that a request for the service is sent to, if the service can be reached. -/
def Service.firstPort (svc : Service) : Option ServicePort :=
  svc.spec.ports.head?.filter fun p => !(svc.spec.type = .nodePort && p.nodePort = 0)

lemma routeTo_ok (hroute : routeTo svc target = .ok routed) :
    ∃ p ∈ svc.firstPort, routed.service = svc ∧ routed.endpoint = target ∧
      routed.port = svc.advertised p := by
  unfold routeTo at hroute
  split at hroute
  · cases hroute
  · rename_i p ps hports
    split_ifs at hroute with hnode hzero
    · obtain rfl := Except.ok.inj hroute
      exact ⟨p, by simp [Service.firstPort, hports, hzero], rfl, rfl, (if_pos hnode).symm⟩
    · obtain rfl := Except.ok.inj hroute
      exact ⟨p, by simp [Service.firstPort, hports, hnode], rfl, rfl, (if_neg hnode).symm⟩

lemma exists_routeTo {p : ServicePort} (hp : p ∈ svc.firstPort) (target : ServiceEndpoint) :
    ∃ routed, routeTo svc target = .ok routed ∧ routed.service = svc ∧ routed.endpoint = target ∧
      routed.port = svc.advertised p := by
  obtain ⟨hhead, hnode⟩ := Option.filter_eq_some_iff.mp hp
  obtain ⟨ps, hports⟩ := List.head?_eq_some_iff.mp hhead
  unfold routeTo
  rw [hports]
  dsimp only
  split_ifs with htype hzero
  · simp [htype, hzero] at hnode
  · exact ⟨_, rfl, rfl, rfl, (if_pos htype).symm⟩
  · exact ⟨_, rfl, rfl, rfl, (if_neg htype).symm⟩

/-- What it takes for a request to be routed. -/
lemma routeServiceTraffic_ok_iff {b b' : Balancer} {name strategy : String} {w : World} :
    (routeServiceTraffic b name strategy).result (exec env) w = .ok (.ok routed, b') ↔
      ∃ svc target, serviceNamed w.store name = some svc ∧
        b.select svc.id strategy (offeredFor w.store svc.id) = (.ok target, b') ∧
        routeTo svc target = .ok routed := by
  rw [routeServiceTraffic, Prog.result, Prog.run_bind, Prog.run_attempt, findServiceByName_run]
  cases hsvc : serviceNamed w.store name with
  | none => simp
  | some svc =>
    have hselect := run_selectServiceEndpoint env b strategy (mem_of_serviceNamed hsvc).1
    dsimp only [Option.elim]
    rw [Prog.run_bind_ok _ hselect]
    rcases hchosen : b.select svc.id strategy (offeredFor w.store svc.id) with ⟨_ | target, b₁⟩
    · simp [hchosen]
    · simp [hchosen, and_comm]

/-- **The port that a request is routed to is that of its endpoint**, in every state of the
balancer, exactly if every endpoint that can be chosen is one of a port which is advertised like
the first. -/
theorem routed_port_iff (env : Env) (w : World) (name : String) :
    (∀ b strategy routed b', (routeServiceTraffic b name strategy).result (exec env) w =
      .ok (.ok routed, b') → routed.service.Pairs routed.endpoint routed.port) ↔
    ∀ svc ∈ serviceNamed w.store name, ∀ p ∈ svc.firstPort, ∀ e ∈ offeredFor w.store svc.id,
      e.ready = true → svc.Pairs e (svc.advertised p) := by
  constructor
  · intro hpairs svc hsvc p hp e he hready
    obtain ⟨b, b', hselect⟩ := exists_select svc.id he hready
    obtain ⟨routed, hroute, rfl, rfl, hport⟩ := exists_routeTo hp e
    rw [← hport]
    exact hpairs b "" routed b' (routeServiceTraffic_ok_iff.mpr ⟨_, _, hsvc, hselect, hroute⟩)
  · intro hpairs b strategy routed b' hrouted
    obtain ⟨svc, target, hsvc, hselect, hroute⟩ := routeServiceTraffic_ok_iff.mp hrouted
    obtain ⟨p, hp, rfl, rfl, hport⟩ := routeTo_ok hroute
    obtain ⟨hoffered, hready⟩ := mem_of_select (congrArg Prod.fst hselect)
    rw [hport]
    exact hpairs _ hsvc p hp _ hoffered hready

/-- A database with a second port for its metrics. -/
def meteredService : Service :=
  { id := "s1"
    spec := { nameSpace := "default", name := "db", selector := Table.ofList [("app", "db")],
              ports := [{ port := 80, targetPort := 5432, protocol := .tcp },
                { port := 90, targetPort := 9100, protocol := .tcp }] } }

/-- The world after the endpoints of the service have been made. -/
def meteredWorld : World :=
  (reconcileServiceEndpoints "s1").final (exec steadyEnv)
    { store := (guardedStore [("app", "db")]).put .service meteredService, tick := 0 }

/-- The second request for the service is sent to the endpoint of the metrics, and told the port of
the database. -/
theorem second_request_mispaired :
    let first := (routeServiceTraffic {} "db" "").result (exec steadyEnv) meteredWorld
    let second := (routeServiceTraffic ((first.map Prod.snd).toOption.getD {}) "db" "").result
      (exec steadyEnv) meteredWorld
    ∃ routed ∈ routedOf second, routed.endpoint.port = 9100 ∧ routed.port = 80 ∧
      ¬ routed.service.Pairs routed.endpoint routed.port := by
  decide +kernel

end Orchestrator
