/-
# Viewers

A principal whose only role is that of a viewer is let through to requests with the method `GET`
(`get_of_viewer`), and the handlers of such requests only read, with one exception: the poll of a
node's assignments, which takes them out of the store.  So a viewer's request leaves the store as
it is, unless it polls a node that has assignments.
-/
import Orchestrator.Logic.Requests
import Orchestrator.System

namespace Orchestrator

open Lib

variable {env : Env} {s : HTTPServer} {m : Memory} {r : Request} {w : World} {p : Principal}

/-- The roles of the principal are those of a viewer, and no others that the server knows. -/
structure OnlyViewer (p : Principal) : Prop where
  viewer : ∃ role ∈ p.roles, normalizeRole role = "viewer"
  operator : ∀ role ∈ p.roles, normalizeRole role ≠ "operator"
  admin : ∀ role ∈ p.roles, normalizeRole role ≠ "admin"

/-- Without the role of an operator or an administrator only reading requests are let through. -/
lemma get_of_reader (hp : ∀ role ∈ p.roles, normalizeRole role ∉ writers) {method : Method}
    {path : String} (h : isAuthorized p method path = true) : method = .get := by
  rcases requiredRoles_cases method path with ⟨hget, -⟩ | hw | ha
  · exact hget
  · obtain ⟨role, hrole, hmem⟩ := (isAuthorized_iff p hw (by decide)).mp h
    exact absurd hmem (hp role hrole)
  · obtain ⟨role, hrole, hmem⟩ := (isAuthorized_iff p ha (by decide)).mp h
    exact absurd (List.mem_cons_of_mem _ hmem) (hp role hrole)

lemma get_of_viewer (hp : OnlyViewer p) {method : Method} {path : String}
    (h : isAuthorized p method path = true) : method = .get := by
  refine get_of_reader (fun role hrole => ?_) h
  simp [writers, hp.operator role hrole, hp.admin role hrole]

/-! ### Reading requests -/

/-- The request asks for the assignments of a node, in the form that the server serves. -/
structure PollsNode (r : Request) (id : String) : Prop where
  version : knownVersion (trimSpace r.apiVersion) = true
  canonical : r.canonical = true
  method : r.method = .get
  route : route r.versioned.path = some .workerSubroutes
  parts : r.versioned.parts "/v1/workers/" = [id, "assignments"]

/-- The node has assignments waiting in the store. -/
def Awaited (id : String) (w : World) : Prop :=
  ∃ a ∈ (w.store .assignment).rows,
    hasPrefix (Tbl.key .assignment a) (keyAssignmentPrefix id) = true

/-- Requests with the method `GET` carry out no operation other than a poll. -/
lemma operation_of_get (hm : r.method = .get) {op : Operation} (hop : r.operation = some op) :
    r.canonical = true ∧ route r.path = some .workerSubroutes ∧
      ∃ id, r.parts "/v1/workers/" = [id, "assignments"] ∧ op = .poll id (pollMax r) := by
  unfold Request.operation at hop
  split_ifs at hop with hcanon
  obtain ⟨rt, hroute, hrt⟩ := Option.bind_eq_some_iff.mp hop
  cases rt with
  | workerSubroutes =>
    refine ⟨hcanon, hroute, ?_⟩
    simp only [Route.operation, Request.on, hm, if_true] at hrt
    split at hrt
    · rename_i id sub hparts
      split_ifs at hrt with hsub
      cases hrt
      exact ⟨id, by rw [hparts, hsub], rfl⟩
    · cases hrt
  | deploymentByID =>
    simp only [Route.operation, Request.onDeployment, hm] at hrt
    split at hrt
    · split_ifs at hrt
    · cases hrt
  | _ => simp [Route.operation, Request.on, hm] at hrt

/-- A run whose calls only read leaves the store as it is. -/
lemma final_store_of_reads {α : Type} {q : M α}
    (h : Obeys ⟨fun _ _ => True, fun c => c.reads = true⟩ q) (w : World) :
    (q.final (exec env) w).store = w.store := by
  have hkept : Regime.Kept ⟨fun _ _ => True, fun c => c.reads = true⟩ (exec env)
      fun w' => w'.store = w.store :=
    ⟨fun _ _ _ _ => trivial, fun c w' hc hw' => (exec_reads env hc w').1.trans hw'⟩
  exact (h.run hkept rfl).2

lemma pollMax_pos : 0 < pollMax r := by
  unfold pollMax
  split
  · split
    · exact ‹_›
    · decide
  · decide

/-- A poll takes assignments out exactly if there are any. -/
lemma popAssignments_eq_iff (st : Store) (id : String) {n : ℕ} (hn : 0 < n) :
    st.popAssignments id n = st ↔ ¬ ∃ a ∈ (st .assignment).rows,
      hasPrefix (Tbl.key .assignment a) (keyAssignmentPrefix id) = true := by
  constructor
  · rintro heq ⟨a, ha, hkey⟩
    -- the first of them is taken
    obtain ⟨b, rest, hb⟩ : ∃ b rest, (st .assignment).rows.filter (fun a =>
        hasPrefix (Tbl.key .assignment a) (keyAssignmentPrefix id)) = b :: rest :=
      List.exists_cons_of_ne_nil (List.ne_nil_of_mem (List.mem_filter.mpr ⟨ha, hkey⟩))
    have hpopped : b ∈ st.popped id n := by
      obtain ⟨k, rfl⟩ := Nat.exists_eq_succ_of_ne_zero hn.ne'
      rw [Store.popped, hb]
      exact List.mem_cons_self
    have hmem : b ∈ (st .assignment).rows :=
      List.mem_of_mem_filter (hb ▸ List.mem_cons_self : b ∈ (st .assignment).rows.filter _)
    rw [← heq, Store.popAssignments, Store.set_self, Table.mem_rows_delWhere] at hmem
    simp [hpopped] at hmem
  · intro hnone
    have hpopped : st.popped id n = [] := by
      rw [Store.popped, List.filter_eq_nil_iff.mpr fun a ha hkey => hnone ⟨a, ha, hkey⟩]
      exact List.take_nil
    rw [Store.popAssignments, Table.delWhere_of_forall_false (by simp [hpopped])]
    funext t
    by_cases ht : t = .assignment
    · subst ht
      exact Store.set_self _ _ _
    · exact Store.set_of_ne _ _ ht

/-- What a poll does to the store. -/
lemma PollsNode.final {id : String} (h : PollsNode r id) :
    ((dispatch s m r.versioned).final (exec env) w).store =
      w.store.popAssignments id (pollMax r.versioned).toNat := by
  have hpos : ¬ pollMax r.versioned ≤ 0 := not_le.mpr pollMax_pos
  have hcanon : ¬ r.versioned.canonical = false := by
    rw [show r.versioned.canonical = r.canonical from rfl, h.canonical]
    decide
  have hhandle : handleWorkerSubroutes r.versioned =
      answer (ask (.popAssignments id (pollMax r.versioned).toNat))
        (fun items => .json 200 (.assignments items))
        (serverError "poll_failed" "Failed to poll assignments") := by
    unfold handleWorkerSubroutes
    rw [h.parts]
    simp only [onlyMethod, if_true, show r.versioned.method = .get from h.method]
    rw [pollAssignments, if_neg hpos]
    rfl
  unfold dispatch
  rw [if_neg hcanon, h.route]
  change ((keeping m (handleWorkerSubroutes r.versioned)).final (exec env) w).store = _
  rw [hhandle]
  rfl

/-! ### The requests of a viewer -/

lemma hasPrefix_of_workers {path : String} (h : route path = some .workerSubroutes) :
    hasPrefix path "/v1/workers/" = true := by
  unfold route at h
  split at h
  · rename_i x hx
    -- no pattern without a trailing slash has this handler
    have hnot : ∀ y ∈ exactRoutes, y.2 ≠ Route.workerSubroutes := by decide
    exact absurd (Option.some.inj h) (hnot x (List.mem_of_find?_eq_some hx))
  · obtain ⟨x, hx, hrt⟩ := Option.map_eq_some_iff.mp h
    have honly : ∀ y ∈ subtreeRoutes, y.2 = Route.workerSubroutes → y.1 = "/v1/workers/" := by
      decide
    have hmatch : hasPrefix path x.1 = true :=
      List.find?_some (p := fun y : String × Route => hasPrefix path y.1) hx
    rwa [honly x (List.mem_of_find?_eq_some hx) hrt] at hmatch

/-- A viewer is let through to the poll. -/
lemma PollsNode.authorized {id : String} (h : PollsNode r id)
    (hp : principalOf env s r.versioned w = some p) (hviewer : OnlyViewer p) :
    Authorized env s r w := by
  refine ⟨h.version, .inr ⟨p, hp, ?_⟩⟩
  have hroles : requiredRoles r.versioned.method r.versioned.path = readers :=
    if_pos ⟨h.method, .inr (.inr (.inl (hasPrefix_of_workers h.route)))⟩
  obtain ⟨role, hrole, hv⟩ := hviewer.viewer
  exact (isAuthorized_iff p hroles (by decide)).mpr ⟨role, hrole, by rw [hv]; decide⟩

/-- **A request of a viewer leaves the store as it is, exactly unless it polls a node that has
assignments.** -/
theorem viewer_read_only_iff (env : Env) (s : HTTPServer) (m : Memory) (r : Request) (w : World)
    (p : Principal) (hp : principalOf env s r.versioned w = some p) (hviewer : OnlyViewer p) :
    ((serve s m r).final (exec env) w).store = w.store ↔
      ¬ ∃ id, PollsNode r id ∧ Awaited id w := by
  rcases serve_final (s := s) (m := m) (r := r) env w with ⟨hauth, hfinal⟩ | ⟨hauth, hfinal⟩
  swap
  · rw [hfinal]
    exact iff_of_true rfl fun ⟨id, hpolls, _⟩ => hauth (hpolls.authorized hp hviewer)
  rw [hfinal]
  by_cases hpolls : ∃ id, PollsNode r id
  · obtain ⟨id, hid⟩ := hpolls
    have hpos : 0 < (pollMax r.versioned).toNat := Int.lt_toNat.mpr pollMax_pos
    rw [hid.final, popAssignments_eq_iff _ _ hpos, not_iff_not]
    constructor
    · exact fun h => ⟨id, hid, h⟩
    · rintro ⟨id', hid', h⟩
      have hparts := hid.parts.symm.trans hid'.parts
      simp only [List.cons.injEq, and_true] at hparts
      exact hparts ▸ h
  · have : HasReads fun c => c.reads = true := ⟨fun _ hc => hc⟩
    refine iff_of_true (final_store_of_reads (obeys_dispatch ?_) w)
      fun ⟨id, hid, _⟩ => hpolls ⟨id, hid⟩
    -- any other operation needs a role that the viewer does not have
    intro op hop
    exfalso
    have hget : r.versioned.method = .get := by
      rcases hauth.2 with hexempt | ⟨p', hp', hok⟩
      · cases (operation_of_exempt hexempt).symm.trans hop
      · cases hp.symm.trans hp'
        exact get_of_viewer hviewer hok
    obtain ⟨hcanon, hroute, id, hparts, -⟩ := operation_of_get hget hop
    exact hpolls ⟨id, hauth.1, hcanon, hget, hroute, hparts⟩

/-! ### A viewer and a worker -/

/-- A server that knows the token of a viewer. -/
def viewingServer : HTTPServer where
  orch := plainConfig
  verifyBearer token :=
    if token = "Bearer viewer" then .ok { subject := "", roles := ["viewer"] }
    else .error "invalid token"
  encryptSecretData := .ok
  upstream _ _ := .ok 200

/-- A store in which an assignment waits for a node. -/
def waitingWorld : World where
  store := Store.empty.put .assignment
    { id := "a1", action := .create, nodeID := "n1", workloadID := "w1" }
  tick := 0

/-- A request of the viewer. -/
def viewing (path : String) : Request :=
  { method := .get, path := path, authorization := "Bearer viewer" }

lemma principalOf_viewing (path : String) :
    principalOf steadyEnv viewingServer (viewing path).versioned waitingWorld =
      some { subject := "", roles := ["viewer"] } := rfl

lemma onlyViewer_viewer : OnlyViewer { subject := "", roles := ["viewer"] } :=
  ⟨⟨"viewer", by decide, by decide⟩, by decide, by decide⟩

theorem viewer_read_only_iff_workloads :
    ((serve viewingServer {} (viewing "/v1/workers/n1/workloads")).final (exec steadyEnv)
      waitingWorld).store = waitingWorld.store := by
  refine (viewer_read_only_iff steadyEnv viewingServer {} (viewing "/v1/workers/n1/workloads")
    waitingWorld _ (principalOf_viewing _) onlyViewer_viewer).mpr ?_
  rintro ⟨id, hpolls, -⟩
  have hparts : (viewing "/v1/workers/n1/workloads").versioned.parts "/v1/workers/" =
      ["n1", "workloads"] := by decide +kernel
  have := hparts.symm.trans hpolls.parts
  simp at this

/-- A viewer who asks for the assignments of a node takes them from the worker. -/
theorem viewer_takes_assignments :
    principalOf steadyEnv viewingServer (viewing "/v1/workers/n1/assignments").versioned
        waitingWorld = some { subject := "", roles := ["viewer"] } ∧
      OnlyViewer { subject := "", roles := ["viewer"] } ∧
      (waitingWorld.store .assignment).rows ≠ [] ∧
      (((serve viewingServer {} (viewing "/v1/workers/n1/assignments")).final (exec steadyEnv)
        waitingWorld).store .assignment).rows = [] := by
  refine ⟨rfl, onlyViewer_viewer, by decide +kernel, by decide +kernel⟩

end Orchestrator
