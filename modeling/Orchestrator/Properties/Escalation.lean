/-
# Privilege escalation

The roles of a subject come from its token and from the stored role bindings, and an operator may
store role bindings.  An operator who binds the role of an administrator to itself, directly, by
inheritance, or under the name of a binding that has it, is an administrator from the next request
on.  If the requests store only bindings that lead to no such role, no subject that starts without
it ever gets it.
-/
import Orchestrator.Logic.Roles
import Orchestrator.Logic.Services
import Orchestrator.System

namespace Orchestrator

open Lib

variable {env : Env} {s : HTTPServer} {r : Request} {w : World} {st : Store} {S : String → Prop}

/-! ### The bindings in a store -/

/-- The bindings that count in a namespace. -/
def bindingsIn (st : Store) (ns : String) : List RoleBinding :=
  if blank ns then st.list .roleBinding (keyRoleBindingPrefix "")
  else st.list .roleBinding (keyRoleBindingPrefix "") ++
    st.list .roleBinding (keyRoleBindingPrefix ns)

/-- The binding has the role of an administrator. -/
def RoleBinding.IsAdmin (b : RoleBinding) : Prop :=
  ∃ q ∈ b.roles, blank q = false ∧ normalizeRole q = "admin"

/-- In a namespace, the name of a binding leads to one with the role of an administrator. -/
def LeadsToAdmin (st : Store) (ns name : String) : Prop :=
  ∃ rb, LeadsTo (bindingsIn st ns) name rb ∧ rb.IsAdmin

/-- The stored bindings give none of the subjects the role of an administrator, in any
namespace. -/
def NoAdmin (S : String → Prop) (st : Store) : Prop :=
  ∀ subject, S subject → ∀ ns, ¬ Grants (bindingsIn st ns) subject "admin"

lemma bindingsFor_result (ns : String) (w : World) :
    (bindingsFor ns).result (exec env) w = .ok (bindingsIn w.store ns) := by
  unfold bindingsFor bindingsIn
  by_cases hns : blank ns = true
  · rw [if_pos hns]
    change (if blank ns then (pure _ : M (List RoleBinding)) else _).result (exec env) w = _
    rw [if_pos hns]
    rfl
  · rw [if_neg hns]
    change (if blank ns then (pure _ : M (List RoleBinding)) else _).result (exec env) w = _
    rw [if_neg hns]
    rfl

lemma effectiveRolesForSubject_run (subject ns : String) (w : World) :
    (effectiveRolesForSubject subject ns).run (exec env) w =
      (.ok (rolesFor (bindingsIn w.store ns) subject), w) := by
  rw [(looks_effectiveRoles _ _).run env env rfl, effectiveRolesForSubject, Prog.result_bind,
    bindingsFor_result]
  rfl

lemma mem_mergeRoles {role : String} {existing incoming : List String}
    (h : role ∈ mergeRoles existing incoming) : role ∈ existing ∨ role ∈ incoming := by
  -- whatever the roles are compared by, the fold only collects what it is given
  have hfold : ∀ (taken : List String → String → Prop) [∀ out q, Decidable (taken out q)]
      (l out : List String),
      role ∈ l.foldl (fun out q => if taken out q then out else out ++ [q]) out →
        role ∈ out ∨ role ∈ l := by
    intro taken _ l
    induction l with
    | nil => exact fun out h => .inl h
    | cons x xs ih =>
      intro out h
      rw [List.foldl_cons] at h
      rcases ih _ h with h | h
      · split at h
        · exact .inl h
        · rcases List.mem_append.mp h with h | h
          · exact .inl h
          · exact .inr (List.mem_singleton.mp h ▸ List.mem_cons_self)
      · exact .inr (List.mem_cons_of_mem _ h)
  rcases hfold (fun out q => normalizeRole q = "" ∨
    out.any fun o => normalizeRole o = normalizeRole q) _ [] h with h | h
  · cases h
  · exact List.mem_append.mp h

/-- The roles of a request are those of its token and those that are bound to its subject. -/
lemma principalOf_roles {p : Principal} (h : principalOf env s r w = some p) :
    ∃ token, s.verifyBearer r.authorization = .ok token ∧ ∀ role ∈ p.roles,
      role ∈ token.roles ∨
        Grants (bindingsIn w.store (requestNamespace r)) token.subject role := by
  unfold principalOf authenticate at h
  cases htoken : s.verifyBearer r.authorization with
  | error e =>
    rw [htoken] at h
    cases h
  | ok token =>
    refine ⟨token, rfl, ?_⟩
    rw [htoken] at h
    dsimp only at h
    generalize requestNamespace r = ns at h ⊢
    by_cases hblank : blank token.subject = true
    · rw [if_pos hblank] at h
      cases h
      exact fun role hrole => .inl hrole
    · rw [if_neg hblank] at h
      have hrun : (effectiveRolesForSubject token.subject ns).run (exec env) w = _ :=
        effectiveRolesForSubject_run token.subject ns w
      rcases hroles : rolesFor (bindingsIn w.store ns) token.subject with
        _ | _ | ⟨q, qs⟩ <;> rw [hroles] at hrun <;>
        rw [Prog.result, Prog.run_bind_ok (exec env) hrun] at h <;> cases h
      · exact fun role hrole => .inl hrole
      · intro role hrole
        exact (mem_mergeRoles hrole).imp id (mem_rolesFor hroles).mp

/-! ### Storing a binding -/

/-- A binding that may be stored: it has no role of an administrator, neither its parents nor the
bindings of its name lead to one, and the binding that it replaces has its name. -/
structure Harmless (st : Store) (b : RoleBinding) : Prop where
  roles : ¬ b.IsAdmin
  parents : ∀ ns, ∀ parent ∈ b.inherits, ¬ LeadsToAdmin st ns parent
  name : ∀ ns, ¬ LeadsToAdmin st ns b.name
  replaced : ∀ old ∈ (st .roleBinding).rows,
    Tbl.key .roleBinding old = Tbl.key .roleBinding b → old.name = b.name

lemma bindingNamed_append (l l' : List RoleBinding) (name : String) :
    bindingNamed (l ++ l') name = (bindingNamed l' name).or (bindingNamed l name) := by
  rw [bindingNamed, List.reverse_append, List.find?_append]
  rfl

/-- In a listing by key, the binding of a name is the one with the greatest key. -/
lemma bindingNamed_eq_some {t : List RoleBinding} {name : String} {rb : RoleBinding}
    (ht : t.Pairwise fun a b => Tbl.key .roleBinding a < Tbl.key .roleBinding b) :
    bindingNamed t name = some rb ↔ rb ∈ t ∧ rb.name = name ∧
      ∀ c ∈ t, c.name = name → Tbl.key .roleBinding c ≤ Tbl.key .roleBinding rb := by
  induction t using List.reverseRecOn with
  | nil => simp [bindingNamed]
  | append_singleton t x ih =>
    rw [List.pairwise_append] at ht
    obtain ⟨ht, -, hlast⟩ := ht
    have hx : ∀ c ∈ t, Tbl.key .roleBinding c < Tbl.key .roleBinding x := fun c hc =>
      hlast c hc x (List.mem_singleton_self x)
    rw [bindingNamed_append]
    by_cases hname : x.name = name
    · have : bindingNamed [x] name = some x := by simp [bindingNamed, hname]
      rw [this, Option.some_or]
      constructor
      · rintro ⟨rfl⟩
        refine ⟨by simp, hname, fun c hc _ => ?_⟩
        rcases List.mem_append.mp hc with hc | hc
        · exact (hx c hc).le
        · exact (List.mem_singleton.mp hc ▸ le_refl _)
      · rintro ⟨hmem, -, hmax⟩
        rcases List.mem_append.mp hmem with hmem | hmem
        · exact absurd (hmax x (by simp) hname) (not_le.mpr (hx rb hmem))
        · rw [List.mem_singleton.mp hmem]
    · have : bindingNamed [x] name = none := by simp [bindingNamed, hname]
      rw [this, Option.none_or, ih ht]
      constructor
      · rintro ⟨hmem, rfl, hmax⟩
        refine ⟨List.mem_append_left _ hmem, rfl, fun c hc hcn => ?_⟩
        rcases List.mem_append.mp hc with hc | hc
        · exact hmax c hc hcn
        · exact absurd (List.mem_singleton.mp hc ▸ hcn) hname
      · rintro ⟨hmem, rfl, hmax⟩
        rcases List.mem_append.mp hmem with hmem | hmem
        · exact ⟨hmem, rfl, fun c hc => hmax c (List.mem_append_left _ hc)⟩
        · exact absurd (List.mem_singleton.mp hmem ▸ rfl) hname

section Put

variable {st' : Store} {b : RoleBinding} {pfx : String} {rb : RoleBinding} {name ns : String}

lemma mem_list_put (hst : st' .roleBinding = (st .roleBinding).put b)
    : rb ∈ st'.list .roleBinding pfx ↔
      (rb = b ∧ hasPrefix (Tbl.key .roleBinding b) pfx = true) ∨
      (rb ∈ st.list .roleBinding pfx ∧ Tbl.key .roleBinding rb ≠ Tbl.key .roleBinding b) := by
  rw [Store.mem_list_iff, Store.mem_list_iff, hst, Table.mem_rows_put]
  constructor
  · rintro ⟨rfl | ⟨hmem, hne⟩, hpfx⟩
    · exact .inl ⟨rfl, hpfx⟩
    · exact .inr ⟨⟨hmem, hpfx⟩, hne⟩
  · rintro (⟨rfl, hpfx⟩ | ⟨⟨hmem, hpfx⟩, hne⟩)
    · exact ⟨.inl rfl, hpfx⟩
    · exact ⟨.inr ⟨hmem, hne⟩, hpfx⟩

variable (hst : st' .roleBinding = (st .roleBinding).put b)
  (hreplaced : ∀ old ∈ (st .roleBinding).rows,
    Tbl.key .roleBinding old = Tbl.key .roleBinding b → old.name = b.name)

include hst hreplaced

/-- A name that a binding has before has one after, with at least its key. -/
lemma exists_named_put (h : rb ∈ st.list .roleBinding pfx) :
    ∃ rb' ∈ st'.list .roleBinding pfx, rb'.name = rb.name ∧
      Tbl.key .roleBinding rb' = Tbl.key .roleBinding rb := by
  by_cases hkey : Tbl.key .roleBinding rb = Tbl.key .roleBinding b
  · obtain ⟨hmem, hpfx⟩ := Store.mem_list_iff.mp h
    exact ⟨b, (mem_list_put hst).mpr (.inl ⟨rfl, hkey ▸ hpfx⟩), (hreplaced rb hmem hkey).symm,
      hkey.symm⟩
  · exact ⟨rb, (mem_list_put hst).mpr (.inr ⟨h, hkey⟩), rfl, rfl⟩

lemma bindingNamed_list_put
    (h : bindingNamed (st'.list .roleBinding pfx) name = some rb) :
    rb = b ∨ bindingNamed (st.list .roleBinding pfx) name = some rb := by
  obtain ⟨hmem, hname, hmax⟩ := (bindingNamed_eq_some (Store.list_sorted _ _ _)).mp h
  refine ((mem_list_put hst).mp hmem).imp And.left fun ⟨hold, _⟩ => ?_
  refine (bindingNamed_eq_some (Store.list_sorted _ _ _)).mpr ⟨hold, hname, fun c hc hcn => ?_⟩
  obtain ⟨c', hc', hcn', hkey⟩ := exists_named_put hst hreplaced hc
  exact hkey ▸ hmax c' hc' (hcn'.trans hcn)

lemma bindingNamed_list_put_none
    (h : bindingNamed (st'.list .roleBinding pfx) name = none) :
    bindingNamed (st.list .roleBinding pfx) name = none := by
  refine bindingNamed_eq_none.mpr fun rb hrb hname => ?_
  obtain ⟨rb', hrb', hname', -⟩ := exists_named_put hst hreplaced hrb
  exact bindingNamed_eq_none.mp h rb' hrb' (hname'.trans hname)

/-- The name of a binding stands for the new one, or for the same one as before. -/
lemma bindingNamed_put
    (h : bindingNamed (bindingsIn st' ns) name = some rb) :
    rb = b ∨ bindingNamed (bindingsIn st ns) name = some rb := by
  unfold bindingsIn at h ⊢
  split at h
  · next hns =>
    rw [if_pos hns]
    exact bindingNamed_list_put hst hreplaced h
  · next hns =>
    rw [if_neg hns]
    rw [bindingNamed_append] at h ⊢
    cases hlocal : bindingNamed (st'.list .roleBinding (keyRoleBindingPrefix ns)) name with
    | some rb' =>
      rw [hlocal] at h
      obtain rfl : rb' = rb := by simpa using h
      exact (bindingNamed_list_put hst hreplaced hlocal).imp_right fun h => by rw [h]; rfl
    | none =>
      rw [hlocal, Option.none_or] at h
      rw [bindingNamed_list_put_none hst hreplaced hlocal, Option.none_or]
      exact bindingNamed_list_put hst hreplaced h

omit hst hreplaced

/-- After a harmless binding is stored, no name leads to a role of an administrator that did not
before. -/
lemma leadsToAdmin_put (hst : st' .roleBinding = (st .roleBinding).put b) (hb : Harmless st b)
    (h : LeadsToAdmin st' ns name) : LeadsToAdmin st ns name := by
  obtain ⟨rb, hleads, hrb⟩ := h
  induction hleads with
  | here hname =>
    rcases bindingNamed_put hst hb.replaced hname with rfl | hname
    · exact absurd hrb hb.roles
    · exact ⟨_, .here hname, hrb⟩
  | parent hname hparent _ ih =>
    obtain ⟨rb', hleads', hrb'⟩ := ih hrb
    rcases bindingNamed_put hst hb.replaced hname with rfl | hname
    · exact absurd ⟨rb', hleads', hrb'⟩ (hb.parents ns _ hparent)
    · exact ⟨rb', .parent hname hparent hleads', hrb'⟩

lemma mem_bindingsIn_put (hst : st' .roleBinding = (st .roleBinding).put b)
    (h : rb ∈ bindingsIn st' ns) : rb = b ∨ rb ∈ bindingsIn st ns := by
  unfold bindingsIn at h ⊢
  split at h
  · next hns =>
    rw [if_pos hns]
    exact ((mem_list_put hst).mp h).imp And.left And.left
  · next hns =>
    rw [if_neg hns, List.mem_append]
    rcases List.mem_append.mp h with h | h
    · exact ((mem_list_put hst).mp h).imp And.left fun h => .inl h.1
    · exact ((mem_list_put hst).mp h).imp And.left fun h => .inr h.1

/-- A harmless binding makes nobody an administrator. -/
lemma NoAdmin.put (h : NoAdmin S st) (hst : st' .roleBinding = (st .roleBinding).put b)
    (hb : Harmless st b) : NoAdmin S st' := by
  rintro subject hsubject ns ⟨rb, hmem, hbinds, hadmin⟩
  have hleads : LeadsToAdmin st ns rb.name := leadsToAdmin_put hst hb hadmin
  rcases mem_bindingsIn_put hst hmem with rfl | hmem
  · exact hb.name ns hleads
  · exact h subject hsubject ns ⟨rb, hmem, hbinds, hleads⟩

end Put

/-! ### Requests -/

/-- The record that is stored for a binding. -/
structure StoredFor (b c : RoleBinding) : Prop where
  nameSpace : c.nameSpace = b.nameSpace
  name : c.name = b.name
  subject : c.subject = b.subject
  roles : c.roles = b.roles
  inherits : c.inherits = b.inherits

lemma StoredFor.key {b c : RoleBinding} (h : StoredFor b c) :
    Tbl.key .roleBinding c = Tbl.key .roleBinding b := by
  change keyRoleBinding c.nameSpace c.name = keyRoleBinding b.nameSpace b.name
  rw [h.nameSpace, h.name]

lemma Harmless.stored {b c : RoleBinding} (h : Harmless st b) (hc : StoredFor b c) :
    Harmless st c where
  roles := by
    rw [RoleBinding.IsAdmin, hc.roles]
    exact h.roles
  parents := hc.inherits ▸ h.parents
  name := hc.name ▸ h.name
  replaced := by
    rw [hc.key, hc.name]
    exact h.replaced

/-- Of the calls for a request, only those that store the binding it brings write to the role
bindings. -/
def bindingRegime (r : Request) : Regime Call.Res where
  answers _ _ := True
  allows c := c.writes .roleBinding = false ∨
    ∃ b c', r.operation = some (.upsertRoleBinding b) ∧ StoredFor b c' ∧ c = .put .roleBinding c'

instance : HasReads (bindingRegime r).allows := ⟨fun _ h => .inl (Call.writes_of_reads h)⟩

lemma bindingRegime_working {c : Call} (h : c.working = true) : (bindingRegime r).allows c := by
  left
  cases c with
  | put t v => exact decide_eq_false (of_decide_eq_true h).1
  | del t k => rcases of_decide_eq_true h with rfl | rfl | rfl <;> rfl
  | _ => rfl

lemma coversApi_bindingRegime : CoversApi (bindingRegime r) Terms.free :=
  coversApi_free fun _ => bindingRegime_working

/-- The handler of a request leaves the bindings alone, or stores the one that the request
brings. -/
lemma dispatch_bindings (env : Env) (m : Memory) (w : World) :
    ((dispatch s m r).final (exec env) w).store .roleBinding = w.store .roleBinding ∨
    ∃ b c, r.operation = some (.upsertRoleBinding b) ∧ StoredFor b c ∧
      ((dispatch s m r).final (exec env) w).store .roleBinding =
        (w.store .roleBinding).put c := by
  have hops : ∀ op, r.operation = some op → Obeys (bindingRegime r) (op.program s) := by
    intro op hop
    refine coversApi_bindingRegime.operation op ?_
    cases op with
    | createDeployment spec => exact admits_free (fun _ => bindingRegime_working) spec
    | updateDeployment id next => exact fun _ _ => trivial
    | upsertRoleBinding b =>
      exact coversApi_bindingRegime.toCovers.upsertRoleBinding
        fun c h1 h2 h3 h4 h5 => .inr ⟨b, c, hop, ⟨h1, h2, h3, h4, h5⟩, rfl⟩
    | _ => trivial
  let I : World → Prop := fun w' => w'.store .roleBinding = w.store .roleBinding ∨
    ∃ b c, r.operation = some (.upsertRoleBinding b) ∧ StoredFor b c ∧
      w'.store .roleBinding = (w.store .roleBinding).put c
  have hkept : (bindingRegime r).Kept (exec env) I := by
    refine ⟨fun _ _ _ _ => trivial, fun c w' hc hI => ?_⟩
    rcases hc with hc | ⟨b, c, hop, hbc, rfl⟩
    · change _ ∨ _
      rw [exec_writes env hc]
      exact hI
    · refine .inr ⟨b, c, hop, hbc, ?_⟩
      change (w'.store.put .roleBinding c) .roleBinding = _
      rw [Store.put, Store.set_self]
      rcases hI with hI | ⟨b', c', hop', hbc', hI⟩
      · rw [hI]
        rfl
      · obtain rfl : b' = b := by
          rw [hop] at hop'
          cases hop'
          rfl
        rw [hI]
        exact Table.put_put _ (hbc'.key.trans hbc.key.symm)
  exact ((obeys_dispatch hops).run hkept (.inl rfl)).2

/-! ### Runs of requests -/

/-- The token of the request is one of the subjects', and its roles are those of viewers and
operators. -/
def MadeBy (S : String → Prop) (s : HTTPServer) (r : Request) : Prop :=
  ∃ token, s.verifyBearer r.authorization = .ok token ∧ S token.subject ∧
    ∀ role ∈ token.roles, normalizeRole role = "viewer" ∨ normalizeRole role = "operator"

/-- A binding that the request stores is harmless. -/
def BringsHarmless (r : Request) (st : Store) : Prop :=
  ∀ b, r.versioned.operation = some (.upsertRoleBinding b) → Harmless st b

lemma NoAdmin.of_eq {st' : Store} (h : NoAdmin S st) (he : st' .roleBinding = st .roleBinding) :
    NoAdmin S st' := by
  have hlist : ∀ pfx, st'.list .roleBinding pfx = st.list .roleBinding pfx := by
    intro pfx
    unfold Store.list
    rw [he]
  intro subject hsubject ns
  rw [show bindingsIn st' ns = bindingsIn st ns by unfold bindingsIn; rw [hlist, hlist]]
  exact h subject hsubject ns

/-- A request that brings no harmful binding makes nobody an administrator. -/
lemma NoAdmin.step (h : NoAdmin S w.store) (hr : BringsHarmless r w.store) (m : Memory) :
    NoAdmin S ((serve s m r).final (exec env) w).store := by
  rcases serve_final (s := s) (m := m) (r := r) env w with ⟨-, hfinal⟩ | ⟨-, hfinal⟩
  · rw [hfinal]
    rcases dispatch_bindings (s := s) (r := r.versioned) env m w with
      hsame | ⟨b, c, hop, hbc, hput⟩
    · exact h.of_eq hsame
    · exact h.put hput ((hr b hop).stored hbc)
  · rw [hfinal]
    exact h

/-- A subject without the role of an administrator is not let through where it is required. -/
lemma NoAdmin.refused (h : NoAdmin S w.store) (hr : MadeBy S s r)
    (hadmin : requiredRoles r.versioned.method r.versioned.path = ["admin"]) :
    ¬ ∃ p, principalOf env s r.versioned w = some p ∧
      isAuthorized p r.versioned.method r.versioned.path = true := by
  rintro ⟨p, hp, hok⟩
  obtain ⟨token, htoken, hsubject, hroles⟩ := hr
  obtain ⟨token', htoken', hfrom⟩ := principalOf_roles hp
  obtain rfl : token' = token := by
    rw [show r.versioned.authorization = r.authorization from rfl, htoken] at htoken'
    cases htoken'
    rfl
  obtain ⟨role, hrole, hmem⟩ := (isAuthorized_iff p hadmin (by decide)).mp hok
  have hnorm : normalizeRole role = "admin" := List.mem_singleton.mp hmem
  rcases hfrom role hrole with htok | hgrants
  · rcases hroles role htok with hv | ho
    · exact absurd (hv.symm.trans hnorm) (by decide)
    · exact absurd (ho.symm.trans hnorm) (by decide)
  · -- a bound role is already in the form in which roles are compared
    obtain ⟨b, hb, hbinds, rb, hleads, q, hq, hblank, rfl⟩ := hgrants
    rw [normalizeRole_normalizeRole] at hnorm
    exact h _ hsubject _ ⟨b, hb, hbinds, rb, hleads, q, hq, hblank, hnorm⟩

/-- **No escalation.**  In a run of requests of viewers and operators, of whom no stored binding
makes an administrator at the start, and whose requests bring only harmless bindings, no such
subject is let through to what requires the role of an administrator. -/
theorem never_admin (env : Env) (s : HTTPServer) (S : String → Prop) (σ₀ σ : ServerState)
    (hstart : NoAdmin S σ₀.world.store)
    (hrun : Runs (ServerState.step env s)
      (fun r σ => MadeBy S s r ∧ BringsHarmless r σ.world.store) σ₀ σ)
    (r : Request) (hr : MadeBy S s r)
    (hadmin : requiredRoles r.versioned.method r.versioned.path = ["admin"]) :
    ¬ ∃ p, principalOf env s r.versioned σ.world = some p ∧
      isAuthorized p r.versioned.method r.versioned.path = true := by
  have hσ : NoAdmin S σ.world.store := by
    refine hrun.invariant (I := fun σ => NoAdmin S σ.world.store) hstart fun r σ hI hok => ?_
    rw [ServerState.step_world]
    exact hI.step hok.2 σ.memory
  exact hσ.refused hr hadmin

/-! ### An operator and a binding -/

/-- A server that knows one operator. -/
def operatingServer : HTTPServer where
  orch := plainConfig
  verifyBearer token :=
    if token = "Bearer operator" then .ok { subject := "ops", roles := ["operator"] }
    else .error "invalid token"
  encryptSecretData := .ok
  upstream _ _ := .ok 200

/-- The operator stores a binding of a role to itself. -/
def bindingRequest (role : String) : Request where
  method := .post
  path := "/v1/rbac/rolebindings"
  authorization := "Bearer operator"
  body := { binding := .ok { name := "self", subject := "ops", roles := [role] } }

/-- The operator runs a recovery, which is for administrators. -/
def recoveryRequest : Request where
  method := .post
  path := "/v1/recovery/run"
  authorization := "Bearer operator"

def emptyServer : ServerState where
  world := { store := Store.empty, tick := 0 }

lemma bindingsIn_empty (ns : String) : bindingsIn Store.empty ns = [] := by
  unfold bindingsIn Store.list
  split <;> simp [Store.empty]

lemma noAdmin_empty : NoAdmin (fun subject => subject = "ops") Store.empty := by
  rintro subject - ns ⟨b, hb, -⟩
  rw [bindingsIn_empty] at hb
  cases hb

lemma madeBy_operator {r : Request} (h : r.authorization = "Bearer operator") :
    MadeBy (fun subject => subject = "ops") operatingServer r := by
  refine ⟨{ subject := "ops", roles := ["operator"] }, ?_, rfl, by decide⟩
  rw [h]
  rfl

lemma harmless_viewer : BringsHarmless (bindingRequest "viewer") Store.empty := by
  have hnone : ∀ ns name, ¬ LeadsToAdmin Store.empty ns name := by
    rintro ns name ⟨rb, hleads, -⟩
    have := hleads.mem
    rw [bindingsIn_empty] at this
    cases this
  intro b hb
  obtain rfl : b = { name := "self", subject := "ops", roles := ["viewer"] } := by
    have hop : (bindingRequest "viewer").versioned.operation = some (.upsertRoleBinding
      { name := "self", subject := "ops", roles := ["viewer"] }) := rfl
    rw [hop] at hb
    cases hb
    rfl
  refine ⟨?_, fun ns parent _ => hnone ns parent, fun ns => hnone ns _, fun old hold => ?_⟩
  · rintro ⟨q, hq, -, hnorm⟩
    obtain rfl := List.mem_singleton.mp hq
    exact absurd hnorm (by decide)
  · cases hold

theorem never_admin_operator :
    ¬ ∃ p, principalOf steadyEnv operatingServer recoveryRequest.versioned
        (emptyServer.step steadyEnv operatingServer (bindingRequest "viewer")).world = some p ∧
      isAuthorized p recoveryRequest.versioned.method recoveryRequest.versioned.path = true :=
  never_admin steadyEnv operatingServer (fun subject => subject = "ops") emptyServer _
    noAdmin_empty
    (.tail (bindingRequest "viewer") .refl ⟨madeBy_operator rfl, harmless_viewer⟩)
    recoveryRequest (madeBy_operator rfl) (by decide +kernel)

/-- An operator that binds the role of an administrator to itself is one from then on. -/
theorem operator_becomes_admin :
    MadeBy (fun subject => subject = "ops") operatingServer (bindingRequest "admin") ∧
      MadeBy (fun subject => subject = "ops") operatingServer recoveryRequest ∧
      NoAdmin (fun subject => subject = "ops") emptyServer.world.store ∧
      requiredRoles recoveryRequest.versioned.method recoveryRequest.versioned.path = ["admin"] ∧
      ∃ p, principalOf steadyEnv operatingServer recoveryRequest.versioned
          (emptyServer.step steadyEnv operatingServer (bindingRequest "admin")).world = some p ∧
        isAuthorized p recoveryRequest.versioned.method recoveryRequest.versioned.path = true := by
  refine ⟨madeBy_operator rfl, madeBy_operator rfl, noAdmin_empty, by decide +kernel,
    { subject := "ops", roles := ["operator", "admin"] }, by decide +kernel, by decide +kernel⟩

end Orchestrator
