/-
# In-flight counts

The balancer counts the requests that have selected an endpoint.  A request for service traffic
selects at most once, and its last call then releases the endpoint.  Only an error of
`RouteServiceTraffic` after the selection would leave the count behind, and a service that was
validated has what is needed to be routed to.

So the counts are exact in every state of a system in which any number of such requests run, call
by call, together with the requests that create services, while everything but the services may
change at any time.
-/
import Orchestrator.Lib.Holders
import Orchestrator.Lib.Sessions
import Orchestrator.Logic.Frames
import Orchestrator.Logic.Traffic
import Orchestrator.System

namespace Orchestrator

open Lib

variable {env : Env} {s : HTTPServer}

/-! ### Services that are created over HTTP -/

/-- The service is one that `POST /v1/services` stores: its specification was validated. -/
def Service.Posted (svc : Service) : Prop :=
  ∃ spec : ServiceSpec, validateServiceSpec spec = none ∧ svc.spec = { spec with
    type := if spec.type = .unset then .clusterIP else spec.type
    nameSpace := orDefault spec.nameSpace }

/-- Validation sees to a port, and to a node port if one is needed. -/
lemma validateServiceSpec_ports {spec : ServiceSpec} (h : validateServiceSpec spec = none) :
    spec.ports ≠ [] ∧ (spec.type = .nodePort → ∀ p ∈ spec.ports, p.nodePort ≠ 0) := by
  have hall := firstFailure_eq_none_iff.mp h
  have hports := hall (spec.ports.isEmpty, "service ports are required") (by simp)
  have hnode := hall (spec.type = .nodePort && spec.ports.any fun p => p.nodePort = 0,
    "nodePort is required for NodePort services") (by simp)
  refine ⟨?_, ?_⟩
  · rintro hnil
    simp [hnil] at hports
  · intro htype p hp hzero
    simp only [htype, decide_true, Bool.true_and, List.any_eq_false] at hnode
    exact hnode p hp (decide_eq_true hzero)

/-- **The errors after a selection do not occur.** -/
lemma Service.Posted.routeTo {svc : Service} (h : svc.Posted) (target : ServiceEndpoint) :
    ∃ routed, routeTo svc target = .ok routed ∧ routed.endpoint = target := by
  obtain ⟨spec, hvalid, hspec⟩ := h
  obtain ⟨hports, hnode⟩ := validateServiceSpec_ports hvalid
  have hports' : svc.spec.ports = spec.ports := by rw [hspec]
  have htype : svc.spec.type = .nodePort → spec.type = .nodePort := by
    rw [hspec]
    dsimp only
    split
    · rintro ⟨⟩
    · exact fun h => h
  unfold Orchestrator.routeTo
  rw [hports']
  cases hp : spec.ports with
  | nil => exact absurd hp hports
  | cons port rest =>
    dsimp only
    by_cases hkind : svc.spec.type = .nodePort
    · have hne : port.nodePort ≠ 0 := hnode (htype hkind) port (by simp [hp])
      rw [if_pos hkind, if_neg hne]
      exact ⟨_, rfl, rfl⟩
    · rw [if_neg hkind]
      exact ⟨_, rfl, rfl⟩

/-- A call that stores no service but one that was validated. -/
def Call.Posts (c : Call) : Prop :=
  c.writes .service = false ∨ ∃ svc : Service, c = .put .service svc ∧ svc.Posted

instance : HasReads Call.Posts := ⟨fun _ hc => Or.inl (Call.writes_of_reads hc)⟩

lemma makes_createService {spec : ServiceSpec} (h : validateServiceSpec spec = none) :
    Makes Call.Posts (createService spec) := by
  unfold createService
  split
  · trivial
  split
  · trivial
  split
  · trivial
  refine .bind makes_runAdmissionCheck fun _ =>
    .bind (makes_ensureNamespaceExists (fun _ => Or.inl rfl) _) fun _ =>
    .ask_bind (c := .now) rfl fun now => .ask_bind (c := .rand) rfl fun r =>
    .bind (.ask_bind (c := .get .service _) rfl ?_) fun _ =>
    .bind (makes_reconcileServiceEndpoints (fun _ _ => Or.inl rfl) _) fun _ => trivial
  rintro (_ | old)
  · exact .call (Or.inr ⟨_, rfl, spec, h, rfl⟩)
  · trivial

/-! ### The system -/

/-- The requests: `/v1/services`, `/v1/services/…` and `/v1/network/services/…`. -/
inductive TrafficOp
  | services (r : Request)
  | serviceSubroutes (r : Request)
  | networkServiceSubroutes (r : Request)

def TrafficOp.program : TrafficOp → Traffic Response
  | services r => onStore (handleServices r)
  | serviceSubroutes r => Traffic.handleServiceSubroutes r
  | networkServiceSubroutes r => Traffic.handleNetworkServiceSubroutes r

/-- The endpoint that a request holds: from the selection on, until it is released. -/
def TrafficCall.note : (c : TrafficCall) → c.Res → Option String → Option String
  | .select _ _ _, .ok ep, _ => some ep.id
  | .release _, _, _ => none
  | _, _, l => l

/-- Any number of requests over one server.  What is outside of them can change all tables but that
of the services, and time passes. -/
def trafficServer (env : Env) (s : World → HTTPServer) :
    Behaviour TrafficCall.Res Err Response TrafficOp (Option String) ServerState Store where
  program _ op := op.program
  exec _ c x := execTraffic env (s x.world) c x
  note := TrafficCall.note
  finish _ _ l := l
  outside st x :=
    { x with world :=
      { x.world with
        store := st.set .service (x.world.store .service)
        tick := x.world.tick + 1 } }

/-! ### One request -/

/-- The services that are listed were validated. -/
def Call.AllPosted : (c : Call) → c.Res → Prop
  | .list .service _, services => ∀ svc ∈ (services : List Service), svc.Posted
  | _, _ => True

/-- A request selects when it holds no endpoint, and releases the one that it holds; services are
stored, and so found, only if they were validated. -/
def trafficProtocol : Protocol TrafficCall.Res (Option String) where
  note := TrafficCall.note
  allows
    | _, .store c => c.Posts
    | l, .select _ _ _ => l = none
    | l, .release id => l = some id
    | _, _ => True
  answers
    | _, .store c, a => c.AllPosted a
    | _, _, _ => True

/-- How the selection of an endpoint ends. -/
def Chosen {α : Type} (id : α → String) : Except Err (Except Err α) → Option String → Prop
  | .ok (.ok a), l => l = some (id a)
  | _, l => l = none

variable {α β : Type} {l : Option String}

lemma follows_onStore {p : M α} {R : Except Err α → Prop} (hp : p.Only Call.Posts R) :
    trafficProtocol.Follows (onStore p) l fun r l' => R r ∧ l' = l := by
  induction p with
  | ret r => exact ⟨hp, rfl⟩
  | call c k ih => exact ⟨hp.1, fun a _ => ih a (hp.2 a)⟩

/-- A part of a request that works on the store, and then the rest of it. -/
lemma follows_onStore_bind {p : M α} (hp : Makes Call.Posts p) {f : α → Traffic β}
    {Q : Except Err β → Option String → Prop} (hf : ∀ a, trafficProtocol.Follows (f a) l Q)
    (herr : ∀ e, Q (.error e) l) : trafficProtocol.Follows (onStore p >>= f) l Q := by
  refine (follows_onStore hp).bind ?_ ?_
  · rintro a _ ⟨-, rfl⟩
    exact hf a
  · rintro e _ ⟨-, rfl⟩
    exact herr e

/-- A service that is found was validated. -/
lemma follows_findServiceByName (name : String) :
    trafficProtocol.Follows (onStore (findServiceByName name).attempt) l fun r l' =>
      l' = l ∧ ∀ svc, r = .ok (.ok svc) → svc.Posted := by
  refine ⟨Or.inl rfl, fun services hposted => ?_⟩
  change List Service at services
  change trafficProtocol.Follows (onStore (Prog.attempt (pure services >>= _))) l _
  rw [Prog.pure_bind']
  cases h : services.find? (Service.called name) with
  | none => exact ⟨rfl, nofun⟩
  | some svc =>
    refine ⟨rfl, ?_⟩
    rintro _ ⟨⟩
    exact hposted svc (List.mem_of_find?_eq_some h)

lemma follows_select (serviceID strategy : String) (endpoints : List ServiceEndpoint) :
    trafficProtocol.Follows (Traffic.select serviceID strategy endpoints) none
      (Chosen ServiceEndpoint.id) := by
  refine ⟨rfl, ?_⟩
  rintro (_ | ep) - <;> rfl

lemma follows_selectServiceEndpoint (serviceID strategy : String) :
    trafficProtocol.Follows (Traffic.selectServiceEndpoint serviceID strategy) none
      (Chosen ServiceEndpoint.id) := by
  have hget : Makes Call.Posts (StateStore.getService serviceID).attempt :=
    Prog.Only.attempt (Makes.find .service serviceID)
  refine follows_onStore_bind hget ?_ fun _ => rfl
  rintro (_ | svc)
  · rfl
  · exact follows_onStore_bind (Makes.call (Or.inl rfl)) (fun endpoints =>
      follows_onStore_bind (Makes.call (Or.inl rfl)) (fun nodes => follows_select _ _ _)
        fun _ => rfl) fun _ => rfl

/-- **A selected endpoint is passed on to the handler**, which releases it. -/
lemma follows_routeServiceTraffic (name strategy : String) :
    trafficProtocol.Follows (Traffic.routeServiceTraffic name strategy) none
      (Chosen fun routed => routed.endpoint.id) := by
  refine (follows_findServiceByName name).bind ?_ ?_
  · rintro (_ | svc) _ ⟨rfl, hposted⟩
    · rfl
    · refine (follows_selectServiceEndpoint svc.id strategy).bind ?_ fun _ _ h => h
      rintro (_ | target) _ h
      · exact h
      · obtain ⟨routed, hroute, rfl⟩ := (hposted svc rfl).routeTo target
        have hend : Chosen (fun routed : Routed => routed.endpoint.id)
            (.ok (routeTo svc routed.endpoint)) (some routed.endpoint.id) := by
          rw [hroute]
          rfl
        rw [h]
        exact hend
  · rintro e _ ⟨rfl, -⟩
    rfl

/-- At the end of a request no endpoint is held. -/
abbrev EndsFree (p : Traffic α) (l : Option String) : Prop :=
  trafficProtocol.Follows p l fun _ l => l = none

lemma endsFree_release (id : String) (resp : Response) :
    EndsFree (Traffic.release id >>= fun _ => pure resp) (some id) :=
  ⟨rfl, fun _ _ => rfl⟩

lemma endsFree_onStore {p : M α} (hp : Makes Call.Posts p) : EndsFree (onStore p) none :=
  (follows_onStore hp).mono fun _ _ h => h.2

lemma makes_answer {p : M α} {f : α → Response} {g : Err → Response} (hp : Makes Call.Posts p) :
    Makes Call.Posts (answer p f g) := by
  refine .attempt_bind hp ?_
  rintro (_ | a) <;> trivial

lemma endsFree_handleServices (r : Request) : EndsFree (onStore (handleServices r)) none := by
  refine endsFree_onStore ?_
  unfold handleServices collection
  split
  · cases r.body.serviceSpec with
    | error e => trivial
    | ok spec =>
      change Makes Call.Posts (validating (validateServiceSpec spec) _ _)
      cases hvalid : validateServiceSpec spec with
      | some e => trivial
      | none => exact makes_answer (makes_createService hvalid)
  · exact makes_answer (.call (Or.inl rfl))
  · trivial

lemma endsFree_handleServiceSubroutes (r : Request) :
    EndsFree (Traffic.handleServiceSubroutes r) none := by
  unfold Traffic.handleServiceSubroutes
  split
  · split
    · exact endsFree_onStore (.ite
        (makes_answer (.bind (.find _ _) fun _ => .call (Or.inl rfl))) trivial)
    split
    · split
      · refine (follows_selectServiceEndpoint _ _).bind ?_ fun _ _ h => h
        rintro (_ | ep) _ h
        · exact h
        · rw [show _ = some ep.id from h]
          exact endsFree_release _ _
      · rfl
    · rfl
  · rfl

/-- The policies are read, and the rest of the request follows. -/
lemma endsFree_admitTraffic {r : Request} {routed : Routed} {f : Bool × String → Traffic Response}
    (hf : ∀ a, EndsFree (f a) l) : EndsFree (onStore (admitTraffic r routed) >>= f) l :=
  ⟨Or.inl rfl, fun _ _ => hf _⟩

lemma endsFree_handleConnect (r : Request) (name : String) :
    EndsFree (Traffic.handleConnect r name) none := by
  refine (follows_routeServiceTraffic _ _).bind ?_ fun _ _ h => h
  rintro (_ | routed) _ h
  · exact h
  rw [show _ = some routed.endpoint.id from h]
  refine endsFree_admitTraffic ?_
  rintro ⟨_ | _, reason⟩
  · exact endsFree_release _ _
  · exact endsFree_release _ _

/-- The attempts at an endpoint and the breakers leave the endpoint with the request. -/
abbrev KeepsEndpoint (p : Traffic α) (l : Option String) : Prop :=
  trafficProtocol.Follows p l fun r l' => (∃ a, r = .ok a) ∧ l' = l

lemma keepsEndpoint_tryUpstream (ep : ServiceEndpoint) (k retries : ℕ) :
    KeepsEndpoint (Traffic.tryUpstream ep k retries) l := by
  induction retries generalizing k with
  | zero => exact ⟨trivial, fun a _ => ⟨⟨a, rfl⟩, rfl⟩⟩
  | succ retries ih =>
    refine ⟨trivial, ?_⟩
    rintro (_ | status) -
    · exact ih (k + 1)
    · change KeepsEndpoint (if status < 500 then _ else _) l
      split
      · exact ⟨⟨_, rfl⟩, rfl⟩
      · exact ih (k + 1)

lemma keepsEndpoint_proxyTo (name : String) (ep : ServiceEndpoint)
    (retries threshold openSec : ℤ) :
    KeepsEndpoint (Traffic.proxyTo name ep retries threshold openSec) l := by
  refine (keepsEndpoint_tryUpstream ep 0 retries.toNat).bind ?_ fun e _ ⟨⟨_, he⟩, _⟩ => by cases he
  rintro (_ | status) _ ⟨-, rfl⟩
  · exact ⟨trivial, fun _ _ => ⟨⟨_, rfl⟩, rfl⟩⟩
  · change KeepsEndpoint (if status ≥ 500 then _ else _) _
    split
    · exact ⟨trivial, fun _ _ => ⟨⟨_, rfl⟩, rfl⟩⟩
    · exact ⟨trivial, fun _ _ => ⟨⟨_, rfl⟩, rfl⟩⟩

lemma KeepsEndpoint.ite {c : Prop} [Decidable c] {p : Traffic α} {a : α} (hp : KeepsEndpoint p l) :
    KeepsEndpoint (if c then p else pure a) l := by
  split
  · exact hp
  · exact ⟨⟨a, rfl⟩, rfl⟩

lemma endsFree_handleProxy (r : Request) (name : String) :
    EndsFree (Traffic.handleProxy r name) none := by
  refine follows_onStore_bind (.call (Or.inl rfl)) (fun now => ⟨trivial, fun b _ => ?_⟩)
    fun _ => rfl
  change EndsFree (if now < b.openUntil then _ else _) none
  split
  · rfl
  refine (follows_routeServiceTraffic _ _).bind ?_ fun _ _ h => h
  rintro (e | routed) _ h
  · change EndsFree (if e.isNotFound then _ else _) _
    split
    · exact h
    · exact ⟨trivial, fun _ _ => h⟩
  rw [show _ = some routed.endpoint.id from h]
  refine endsFree_admitTraffic ?_
  rintro ⟨allowed, reason⟩
  refine (KeepsEndpoint.ite (keepsEndpoint_proxyTo _ _ _ _ _)).bind ?_
    fun e _ ⟨⟨_, he⟩, _⟩ => by cases he
  rintro resp _ ⟨-, rfl⟩
  exact endsFree_release _ _

/-- **A request releases what it selects.** -/
lemma TrafficOp.endsFree (op : TrafficOp) : EndsFree op.program none := by
  cases op with
  | services r => exact endsFree_handleServices r
  | serviceSubroutes r => exact endsFree_handleServiceSubroutes r
  | networkServiceSubroutes r =>
    change EndsFree (Traffic.handleNetworkServiceSubroutes r) none
    unfold Traffic.handleNetworkServiceSubroutes
    split
    · split
      · rfl
      split
      · exact endsFree_handleConnect r _
      split
      · exact endsFree_handleProxy r _
      · rfl
    · rfl

/-! ### All requests -/

/-- All stored services were validated. -/
def PostedServices (w : World) : Prop := ∀ svc ∈ (w.store .service).rows, svc.Posted

/-- The services were validated, and the counts are the numbers of the requests that hold an
endpoint. -/
structure InflightExact (x : ServerState) (v : ℕ → Option String) : Prop where
  services : PostedServices x.world
  counted : Counted id v x.memory.balance.inflight

lemma exec_posts (env : Env) {c : Call} {w : World} (hc : c.Posts) (h : PostedServices w) :
    c.AllPosted (exec env c w).1 ∧ PostedServices (exec env c w).2 := by
  refine ⟨?_, ?_⟩
  · unfold Call.AllPosted
    split
    · exact fun svc hsvc => h svc (Store.mem_list hsvc)
    · trivial
  · intro svc hsvc
    rcases hc with hc | ⟨new, rfl, hnew⟩
    · rw [exec_writes env hc] at hsvc
      exact h svc hsvc
    · have hput : (exec env (.put .service new) w).2.store .service =
          (w.store .service).put new := Store.put_self w.store .service new
      rw [hput] at hsvc
      rcases Table.mem_rows_put.mp hsvc with rfl | ⟨hsvc, -⟩
      · exact hnew
      · exact h svc hsvc

/-- A selection is counted exactly if there is one. -/
lemma Balancer.select_cases (b : Balancer) (serviceID strategy : String)
    (endpoints : List ServiceEndpoint) :
    (∃ ep, (b.select serviceID strategy endpoints).1 = .ok ep ∧
      (b.select serviceID strategy endpoints).2.inflight =
        Function.update b.inflight ep.id (b.inflight ep.id + 1)) ∨
    ∃ e, (b.select serviceID strategy endpoints).1 = .error e ∧
      (b.select serviceID strategy endpoints).2 = b := by
  unfold Balancer.select
  split
  · exact Or.inr ⟨_, rfl, rfl⟩
  split
  · exact Or.inl ⟨_, rfl, rfl⟩
  split
  · exact Or.inl ⟨_, rfl, rfl⟩
  · exact Or.inr ⟨_, rfl, rfl⟩

/-- The breakers have nothing to do with the counts and the store. -/
lemma remember_recordCircuitFailure (env : Env) (x : ServerState) (name reason : String)
    (threshold openSec : ℤ) :
    let x' := x.remember env fun m => recordCircuitFailure m name threshold openSec reason
    x'.memory.balance = x.memory.balance ∧ x'.world.store = x.world.store := by
  unfold ServerState.remember recordCircuitFailure
  by_cases hopen : (x.memory.breakers name).failures + 1 ≥ threshold
  · simp only [if_pos hopen]
    exact ⟨rfl, rfl⟩
  · simp only [if_neg hopen]
    exact ⟨rfl, rfl⟩

/-- What a call leaves behind if it does not change the counts. -/
lemma InflightExact.keep {x : ServerState} {v : ℕ → Option String} (h : InflightExact x v)
    (x' : ServerState) (hstore : x'.world.store .service = x.world.store .service)
    (hcount : x'.memory.balance.inflight = x.memory.balance.inflight) (i : ℕ) :
    InflightExact x' (Function.update v i (v i)) := by
  rw [Function.update_eq_self]
  exact ⟨by rw [PostedServices, hstore]; exact h.services, by rw [hcount]; exact h.counted⟩

/-- **Every call of a request keeps the counts exact.** -/
lemma InflightExact.call {x : ServerState} {v : ℕ → Option String} (h : InflightExact x v) {i : ℕ}
    {c : TrafficCall} (hc : trafficProtocol.allows (v i) c) :
    trafficProtocol.answers (v i) c (execTraffic env s c x).1 ∧
      InflightExact (execTraffic env s c x).2
        (Function.update v i (c.note (execTraffic env s c x).1 (v i))) := by
  cases c with
  | store c =>
    obtain ⟨ha, hs⟩ := exec_posts env hc h.services
    refine ⟨ha, ?_⟩
    change InflightExact _ (Function.update v i (v i))
    rw [Function.update_eq_self]
    exact ⟨hs, h.counted⟩
  | select serviceID strategy endpoints =>
    refine ⟨trivial, h.services, ?_⟩
    rcases x.memory.balance.select_cases serviceID strategy endpoints with
      ⟨ep, hok, hcount⟩ | ⟨e, herr, hsame⟩
    · have hnote : TrafficCall.note (.select serviceID strategy endpoints)
          (execTraffic env s (.select serviceID strategy endpoints) x).1 (v i) = some ep.id := by
        change TrafficCall.note (.select serviceID strategy endpoints)
          (x.memory.balance.select serviceID strategy endpoints).1 (v i) = some ep.id
        rw [hok]
        rfl
      rw [hnote]
      change Counted id _ (x.memory.balance.select serviceID strategy endpoints).2.inflight
      rw [hcount]
      exact h.counted.take hc rfl
    · have hnote : TrafficCall.note (.select serviceID strategy endpoints)
          (execTraffic env s (.select serviceID strategy endpoints) x).1 (v i) = v i := by
        change TrafficCall.note (.select serviceID strategy endpoints)
          (x.memory.balance.select serviceID strategy endpoints).1 (v i) = v i
        rw [herr]
        rfl
      rw [hnote]
      change Counted id _ (x.memory.balance.select serviceID strategy endpoints).2.inflight
      rw [hsame]
      exact h.counted.keep rfl
  | release id =>
    refine ⟨trivial, h.services, ?_⟩
    -- what is released is counted, so the test of `Release` for a positive count succeeds
    have hpos : x.memory.balance.inflight id > 0 := h.counted.pos hc
    change Counted _ (Function.update v i none) (x.memory.balance.release id).inflight
    rw [Balancer.release, if_pos hpos]
    exact h.counted.give hc rfl
  | breaker name => exact ⟨trivial, h.keep x rfl rfl i⟩
  | recordFailure name threshold openSec reason =>
    obtain ⟨hbalance, hstore⟩ :=
      remember_recordCircuitFailure env x name reason threshold openSec
    exact ⟨trivial, h.keep _ (congrFun hstore _) (congrArg Balancer.inflight hbalance) i⟩
  | recordSuccess name =>
    exact ⟨trivial, h.keep { x with memory := x.memory.setBreaker name {} } rfl rfl i⟩
  | upstream ep attempt => exact ⟨trivial, h.keep x rfl rfl i⟩

/-- **The counts never leak.**  Services are created by `POST /v1/services`, any number of requests
run at the same time, and everything but the services changes as it likes.  At every moment the
count of an endpoint is the number of the requests that hold it; only requests in progress hold an
endpoint, so the counts are never negative, and zero when there are no such requests.  A selected
endpoint of a stored service can always be routed to. -/
theorem inflight_exact (env : Env) (s : World → HTTPServer) (w : World) (m : Memory)
    (hposted : PostedServices w) (hzero : m.balance.inflight = fun _ => 0)
    {σ : Sessions TrafficCall.Res Err Response TrafficOp (Option String) ServerState}
    (hrun : Runs (Sessions.step (trafficServer env s)) (fun _ _ => True)
      (Sessions.start ⟨w, m⟩ none) σ) :
    (∀ e, {i | σ.views i = some e}.Finite ∧
      σ.shared.memory.balance.inflight e = {i | σ.views i = some e}.ncard) ∧
    (∀ e, 0 ≤ σ.shared.memory.balance.inflight e) ∧
    (∀ i, (σ.processes i).running = none → σ.views i = none) ∧
    ((∀ i, (σ.processes i).running = none) →
      ∀ e, σ.shared.memory.balance.inflight e = 0) ∧
    ∀ svc ∈ (σ.shared.world.store .service).rows, ∀ target,
      ∃ routed, routeTo svc target = .ok routed := by
  have hstart : InflightExact ⟨w, m⟩ fun _ => none := by
    refine ⟨hposted, ?_⟩
    rw [hzero]
    exact Counted.start fun _ => rfl
  have hup : Sessions.Upheld (fun _ _ => trafficProtocol) InflightExact (fun _ l => l = none)
      (fun _ _ _ l => l = none) σ := by
    refine Sessions.run_upheld (fun _ _ => rfl) ?_ ?_ ?_ ?_
      ⟨hstart, ?_, ?_⟩ (hrun.mono fun e t _ => t.next_true e)
    · rintro i op _ rfl
      exact op.endsFree
    · exact fun i op c x v h _ hc => h.call hc
    · exact fun i op r x v h hidle => ⟨hidle, h.keep x rfl rfl i⟩
    · intro st x v h
      refine ⟨?_, h.counted⟩
      have hsame : ((trafficServer env s).outside st x).world.store .service =
          x.world.store .service := Store.set_self st .service (x.world.store .service)
      rw [PostedServices, hsame]
      exact h.services
    · rintro _ _ _ ⟨⟩
    · exact fun _ _ => rfl
  have hcounted := hup.inv.counted
  refine ⟨fun e => ⟨hcounted.finite_holders e, hcounted.count_eq e⟩, hcounted.nonneg, hup.idle,
    fun hidle => hcounted.eq_zero fun i => hup.idle i (hidle i), ?_⟩
  intro svc hsvc target
  obtain ⟨routed, hroute, -⟩ := (hup.inv.services svc hsvc).routeTo target
  exact ⟨routed, hroute⟩

/-! ### Two customers of a shop -/

def shopSpec : ServiceSpec :=
  { name := "shop", selector := Table.ofList [("app", "shop")],
    ports := [{ port := 80, targetPort := 8080, protocol := .tcp }] }

/-- The deployment behind the shop. -/
def shopDeployment : Deployment where
  id := "d1"
  spec := { nameSpace := "default", name := "shop", image := "img"
            labels := some (Table.ofList [("app", "shop")]) }

/-- It has one workload, and so the service will have one endpoint. -/
def shopStore : Store :=
  ((Store.empty.put .node { id := "n1" }).put .deployment shopDeployment).put .workload
    { id := "w1", deploymentID := "d1", nodeID := "n1", status := .running }

/-- The service is created, and then a `connect` and a `proxy` request get to the point where each
has selected the endpoint. -/
def shopEvents : List (SessionEvent TrafficOp Store) :=
  [.outside shopStore, .invoke 0 (.services
    { method := .post, path := "/v1/services", body := { serviceSpec := .ok shopSpec } })] ++
  List.replicate 20 (.move 0) ++
  [.invoke 1 (.networkServiceSubroutes
      { method := .get, path := "/v1/network/services/shop/connect" }),
    .invoke 2 (.networkServiceSubroutes
      { method := .get, path := "/v1/network/services/shop/proxy" })] ++
  (List.replicate 6 [.move 2, .move 1]).flatten ++ [.move 2]

def shopServer : HTTPServer where
  orch := plainConfig
  verifyBearer _ := .error "no token"
  encryptSecretData := .ok
  upstream _ _ := .ok 200

/-- The system after these events, from an empty store. -/
def shopState : Sessions TrafficCall.Res Err Response TrafficOp (Option String) ServerState :=
  after (Sessions.step (trafficServer steadyEnv fun _ => shopServer)) shopEvents
    (Sessions.start ⟨{ store := Store.empty, tick := 0 }, {}⟩ none)

theorem inflight_exact_shop :
    shopState.views 1 = some "svc-1700000000000000004-0007-w1-8080" ∧
    shopState.views 2 = some "svc-1700000000000000004-0007-w1-8080" ∧
    shopState.shared.memory.balance.inflight "svc-1700000000000000004-0007-w1-8080" = 2 ∧
    {i | shopState.views i = some "svc-1700000000000000004-0007-w1-8080"}.ncard = 2 := by
  have hcount : shopState.shared.memory.balance.inflight
      "svc-1700000000000000004-0007-w1-8080" = 2 := by decide +kernel
  have hrun : Runs (Sessions.step (trafficServer steadyEnv fun _ => shopServer)) (fun _ _ => True)
      (Sessions.start ⟨{ store := Store.empty, tick := 0 }, {}⟩ none) shopState :=
    Runs.of_list shopEvents (by decide)
  have hexact := (inflight_exact steadyEnv (fun _ => shopServer) _ _ (by rintro _ ⟨⟩) rfl hrun).1
    "svc-1700000000000000004-0007-w1-8080"
  refine ⟨by decide +kernel, by decide +kernel, hcount, ?_⟩
  have h := hexact.2.symm.trans hcount
  exact_mod_cast h

end Orchestrator
