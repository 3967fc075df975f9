/-
# The API server as a whole

Requests over HTTP, calls over gRPC and the ticks of the controller managers run at the same time,
call by call, over one store (`apiServer`).  A rule for the records of each kind holds in every
state of such a run if it holds at the start, and every operation stores only records that keep
the rule as long as all records it reads do (`records_run`).
-/
import Orchestrator.Api.Grpc
import Orchestrator.Logic.Services

namespace Orchestrator

open Lib

/-! ### Rules for records -/

/-- All stored records keep a rule. -/
def Records (R : (t : Tbl) → t.Val → Prop) (st : Store) : Prop := ∀ t, ∀ v ∈ (st t).rows, R t v

/-- All records that are read keep the rule, and only such records may be stored. -/
def recordRegime (R : (t : Tbl) → t.Val → Prop) : Regime Call.Res where
  answers
    | .get t _, a => ∀ v ∈ a, R t v
    | .list t _, a => ∀ v ∈ a, R t v
    | _, _ => True
  allows
    | .put t v => R t v
    | .replaceServiceEndpoints _ eps => ∀ e ∈ eps, R .endpoint e
    | _ => True

variable {R : (t : Tbl) → t.Val → Prop} {env : Env} {st : Store}

instance : HasReads (recordRegime R).allows where
  reads c hc := by
    cases c with
    | put | del | deleteDeployment | popAssignments | replaceServiceEndpoints => cases hc
    | _ => trivial

namespace Records

lemma set (h : Records R st) {t : Tbl} {T : Table t.Val t.key} (hT : ∀ v ∈ T.rows, R t v) :
    Records R (st.set t T) := by
  intro t' v hv
  by_cases ht : t' = t
  · subst ht
    rw [Store.set_self] at hv
    exact hT v hv
  · rw [Store.set_of_ne _ _ ht] at hv
    exact h t' v hv

lemma put (h : Records R st) {t : Tbl} {v : t.Val} (hv : R t (t.viaJSON v)) :
    Records R (st.put t v) := by
  refine h.set fun u hu => ?_
  rcases Table.mem_rows_put.mp hu with rfl | ⟨hu, -⟩
  · exact hv
  · exact h t u hu

lemma delWhere (h : Records R st) (t : Tbl) (p : t.Val → Bool) :
    Records R (st.set t ((st t).delWhere p)) :=
  h.set fun v hv => h t v (Table.mem_rows_delWhere.mp hv).1

end Records

/-- A rule that survives the encoding of records holds as long as only records that keep it are
stored. -/
lemma recordRegime_kept (hjson : ∀ t v, R t v → R t (t.viaJSON v)) :
    (recordRegime R).Kept (exec env) fun w => Records R w.store where
  answered c w _ h := by
    cases c with
    | get t k => exact fun v hv => h t v (Table.mem_of_get hv)
    | list t pfx => exact fun v hv => h t v (Store.mem_list hv)
    | _ => trivial
  kept c w hc h := by
    cases c with
    | put t v => exact h.put (hjson t v hc)
    | del t k => exact h.delWhere t _
    | deleteDeployment id =>
      have hdel : Records R (w.store.del .deployment id) := h.delWhere .deployment _
      exact hdel.set fun v hv => h .workload v (Table.mem_rows_delWhere.mp hv).1
    | popAssignments node max => exact h.delWhere .assignment _
    | replaceServiceEndpoints id eps =>
      refine h.set fun v hv => ?_
      obtain hv | ⟨hv, -⟩ := Table.mem_of_mem_foldl_put hv
      · exact hc v hv
      · exact h .endpoint v (Table.mem_rows_delWhere.mp hv).1
    | _ => exact h

/-! ### Accesses to the store -/

/-- What the processes of the API server run. -/
inductive Access
  /-- A request over HTTP, with what the server has in memory then. -/
  | http (m : Memory) (r : Request)
  | grpcCreate (spec : Option PBDeploymentSpec)
  | grpcDelete (id : String)
  | grpcList
  | grpcState
  /-- A tick of a manager. -/
  | tick (m : Manager)
  /-- The end of a manager. -/
  | stop (m : Manager)

def Access.program (s : HTTPServer) : Access → M Unit
  | .http m r => (serve s m r).ignore
  | .grpcCreate spec => (GRPCServer.createDeployment s.orch spec).ignore
  | .grpcDelete id => (GRPCServer.deleteDeployment id).ignore
  | .grpcList => GRPCServer.listDeployments.ignore
  | .grpcState => GRPCServer.getClusterState.ignore
  | .tick m => m.tick s.orch
  | .stop m => m.stop

/-- Any number of processes over one store; time passes between any two calls. -/
def apiServer (env : Env) (s : HTTPServer) :
    Behaviour Call.Res Err Unit Access Unit World Unit where
  program _ := Access.program s
  exec _ := exec env
  note _ _ _ := ()
  finish _ _ _ := ()
  outside _ w := { w with tick := w.tick + 1 }

/-- The states of the processes. -/
abbrev ApiServer := Sessions Call.Res Err Unit Access Unit World

/-- What is left to show for an access. -/
def Access.Fits (K : Regime Call.Res) (T : Terms) : Access → Prop
  | .http _ r => ∀ op, r.versioned.operation = some op → op.Fits K T
  | .grpcCreate spec => Admits K T (fromPBDeploymentSpec spec)
  | _ => True

variable {K : Regime Call.Res} {T : Terms} {s : HTTPServer}

/-- The claim is what the access stores, if it gets that far. -/
def Access.Claims (c : PersistentVolumeClaim) : Access → Prop
  | .http _ r => r.versioned.operation = some (.upsertClaim c)
  | _ => False

/-- Every access keeps a regime that covers it, also if claims are not covered and it does not
store one. -/
lemma CoversOps.access (h : CoversOps K T) (hlease : ∀ v, K.allows (.put .lease v))
    (hrelease : ∀ k, K.allows (.del .lease k)) (a : Access) (ha : a.Fits K T)
    (hclaim : ∀ c, a.Claims c → Obeys K (upsertPersistentVolumeClaim c)) :
    Obeys K (a.program s) := by
  have : HasReads K.allows := by
    refine ⟨fun c hc => ?_⟩
    by_cases hcommon : c.common = true
    · exact h.common c hcommon
    · cases c with
      | get t k =>
        obtain rfl : t = .deployment := by simpa [Call.common] using hcommon
        exact h.lookup k
      | _ => exact absurd hc hcommon
  cases a with
  | http m r =>
    refine (obeys_serve fun op hop => h.operation op (ha op hop) ?_).ignore
    rintro c rfl
    exact hclaim c hop
  | grpcCreate spec =>
    exact Obeys.ignore (Obeys.bind (h.createDeployment ha fun k _ => h.everyID k) fun _ =>
      Obeys.pure _)
  | grpcDelete id => exact (h.deleteDeployment (h.everyID id)).ignore
  | grpcList =>
    exact Obeys.ignore (h.ask_bind (c := .list .deployment "") rfl fun _ => Obeys.pure _)
  | grpcState =>
    refine Obeys.ignore (Obeys.bind ?_ fun _ => Obeys.pure _)
    exact h.ask_bind (c := .list .node "") rfl fun _ =>
      h.ask_bind (c := .list .deployment "") rfl fun _ =>
      h.ask_bind (c := .list .workload "") rfl fun _ => Obeys.pure _
  | tick m => exact h.tick hlease m
  | stop m =>
    refine Obeys.ignore (Obeys.attempt_bind ?_ fun found => ?_)
    · exact h.ask_bind (c := .get .lease _) rfl fun a => by cases a <;> trivial
    · cases found with
      | error e => exact Obeys.pure ()
      | ok lease =>
        exact Prog.Under.ite (fun _ => Obeys.pure ()) fun _ => Obeys.call (hrelease _)

lemma CoversApi.access (h : CoversApi K T) (hlease : ∀ v, K.allows (.put .lease v))
    (hrelease : ∀ k, K.allows (.del .lease k)) (a : Access) (ha : a.Fits K T) :
    Obeys K (a.program s) :=
  h.coversOps.access hlease hrelease a ha fun _ _ => h.upsertClaim h.nameSpace
    (fun _ _ _ => h.incidental .claim _ rfl) h.reconcilePVCBindings

/-- **Rules for records.**  A rule that covers the API holds in every state of a run of accesses
that fit it. -/
theorem records_run (hjson : ∀ t v, R t v → R t (t.viaJSON v)) (h : CoversApi (recordRegime R) T)
    (hlease : ∀ v, R .lease v) {w : World} (h0 : Records R w.store) {σ : ApiServer}
    (hrun : Runs (Sessions.step (apiServer env s))
      (fun e _ => ∀ i a, e = .invoke i a → a.Fits (recordRegime R) T) (Sessions.start w ()) σ) :
    Records R σ.shared.store := by
  refine Sessions.run_kept (K := recordRegime R) (I := fun w => Records R w.store)
    (fun _ => recordRegime_kept hjson) (fun _ _ h => h) h0 (hrun.mono fun e _ he i a hi => ?_)
  exact h.access hlease (fun _ => trivial) a (he i a hi)

end Orchestrator
