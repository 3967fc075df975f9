/-
# The store as typed maps

What the store is for: one finite map for each kind of record and each scope (the namespace of
a secret, the node of an assignment, the service of an endpoint), in which a record is found
under its name.  The database holds all of them under keys of the form `word:scope:name`, and
nothing keeps a colon out of a scope: the pairs `("a:b", "c")` and `("a", "b:c")` have the same
key, and the records of `a:b` are listed with those of `a`.  As long as the scopes that are used
have no colon, and no namespace of a role binding is `global`, the database is the maps.
-/
import Orchestrator.Store.Badger

namespace Orchestrator

open Lib

/-! ### Scopes and names -/

namespace Tbl

/-- The part of a record's identity before its name: none for the records of the whole cluster,
the role bindings without a namespace among them. -/
def scope : (t : Tbl) → t.Val → Option String
  | endpoint, e => some (ServiceEndpoint.serviceID e)
  | secret, s => some (Secret.nameSpace s)
  | claim, c => some (PersistentVolumeClaim.nameSpace c)
  | cronJob, c => some (CronJob.nameSpace c)
  | metric, m => some (DeploymentMetricSample.deploymentID m)
  | assignment, a => some (Assignment.nodeID a)
  | networkPolicy, p => some (NetworkPolicy.nameSpace p)
  | roleBinding, b =>
    if blank (RoleBinding.nameSpace b) then none else some (RoleBinding.nameSpace b)
  | node, _ | deployment, _ | workload, _ | service, _ | nameSpace, _ | quota, _ | volume, _
  | job, _ | policy, _ | lease, _ => none

/-- The name of a record in its scope. -/
def name : (t : Tbl) → t.Val → String
  | endpoint, e => ServiceEndpoint.id e
  | secret, s => Secret.name s
  | claim, c => PersistentVolumeClaim.name c
  | cronJob, c => CronJob.name c
  | metric, m => formatRFC3339Nano (DeploymentMetricSample.timestamp m) ++ ":" ++
      DeploymentMetricSample.id m
  | assignment, a => Assignment.id a
  | networkPolicy, p => NetworkPolicy.name p
  | roleBinding, b => RoleBinding.name b
  | node, v => key .node v
  | deployment, v => key .deployment v
  | workload, v => key .workload v
  | service, v => key .service v
  | nameSpace, v => key .nameSpace v
  | quota, v => key .quota v
  | volume, v => key .volume v
  | job, v => key .job v
  | policy, v => key .policy v
  | lease, _ => "lease"

/-- The prefix under which the records of a scope are stored and listed. -/
def scopePrefix : Tbl → Option String → String
  | endpoint, some x => keyServiceEndpointPrefix x
  | secret, some x => keySecretPrefix x
  | claim, some x => keyPersistentVolumeClaimPrefix x
  | cronJob, some x => keyCronJobPrefix x
  | metric, some x => keyDeploymentMetricPrefix x
  | assignment, some x => keyAssignmentPrefix x
  | networkPolicy, some x => keyNetworkPolicyPrefix x
  | roleBinding, some x => keyRoleBindingPrefix x
  | roleBinding, none => keyRoleBindingPrefix ""
  | lease, none => "controller:"
  | _, _ => ""

/-- The kinds whose records have a scope. -/
def hasScope : Tbl → Bool
  | endpoint | secret | claim | cronJob | metric | assignment | networkPolicy | roleBinding => true
  | node | deployment | workload | service | nameSpace | quota | volume | job | policy
  | lease => false

/-- The scopes of a kind whose keys cannot be mistaken for those of another scope. -/
def plain : Tbl → Option String → Bool
  | roleBinding, none => true
  | roleBinding, some x => !x.toList.contains ':' && !blank x && decide (x ≠ "global")
  | t, some x => t.hasScope && !x.toList.contains ':'
  | t, none => !t.hasScope

/-- The second part of the keys of a scope. -/
def segment : Option String → String
  | some x => x
  | none => "global"

lemma key_eq (t : Tbl) (v : t.Val) : t.key v = t.scopePrefix (t.scope v) ++ t.name v := by
  cases t with
  | node | deployment | workload | service | nameSpace | quota | volume | job | policy =>
    exact String.empty_append.symm
  | lease => rfl
  | endpoint | secret | claim | cronJob | assignment | networkPolicy => rfl
  | metric =>
    change keyDeploymentMetricPrefix _ ++ _ ++ _ ++ _ = keyDeploymentMetricPrefix _ ++ (_ ++ _ ++ _)
    simp only [String.append_assoc]
  | roleBinding =>
    unfold scope
    dsimp only
    split_ifs with h
    · change keyRoleBindingPrefix _ ++ _ = keyRoleBindingPrefix "" ++ _
      unfold keyRoleBindingPrefix
      rw [if_pos h, if_pos (by decide +kernel)]
      rfl
    · rfl

lemma scope_viaJSON (t : Tbl) (v : t.Val) : t.scope (t.viaJSON v) = t.scope v := by
  cases t <;> rfl

variable {t : Tbl} {sc sc' : Option String}

lemma eq_none_of_plain (h : t.plain sc = true) (ht : t.hasScope = false) : sc = none := by
  cases sc with
  | none => rfl
  | some x => cases t <;> first | exact absurd ht (by decide) | simp [plain, hasScope] at h

lemma segment_of_plain (h : t.plain sc = true) (ht : t.hasScope = true) :
    t.tag ++ t.scopePrefix sc = t.word ++ ":" ++ segment sc ++ ":" ∧ ':' ∉ (segment sc).toList := by
  cases sc with
  | none =>
    cases t with
    | roleBinding => exact ⟨by decide +kernel, by decide +kernel⟩
    | _ => first | exact absurd ht (by decide) | exact absurd h (by decide)
  | some x =>
    cases t with
    | roleBinding =>
      simp only [plain, Bool.and_eq_true, Bool.not_eq_true', List.contains_eq_mem,
        decide_eq_false_iff_not] at h
      refine ⟨?_, h.1.1⟩
      change "" ++ keyRoleBindingPrefix x = _
      unfold keyRoleBindingPrefix
      rw [if_neg (by rw [h.1.2]; exact Bool.false_ne_true)]
      exact String.empty_append
    | endpoint | secret | claim | cronJob | metric | assignment | networkPolicy =>
      simp only [plain, hasScope, Bool.true_and, Bool.not_eq_true', List.contains_eq_mem,
        decide_eq_false_iff_not] at h
      exact ⟨String.empty_append, h⟩
    | _ => cases ht

lemma segment_inj (h : t.plain sc = true) (h' : t.plain sc' = true) (ht : t.hasScope = true)
    (heq : segment sc = segment sc') : sc = sc' := by
  -- a scope without a name is the global one of the role bindings
  have hglobal : ∀ {x}, t.plain none = true → t.plain (some x) = true → x ≠ "global" := by
    intro x hnone hsome
    cases t with
    | roleBinding => exact of_decide_eq_true (Bool.and_eq_true_iff.mp hsome).2
    | _ => first | exact absurd ht (by decide) | exact absurd hnone (by decide)
  cases sc with
  | none => cases sc' with
    | none => rfl
    | some y => exact absurd heq.symm (hglobal h h')
  | some x => cases sc' with
    | none => exact absurd heq (hglobal h' h)
    | some y => exact congrArg some heq

/-- A scope's keys start with the scope's prefix, and no other scope's keys do. -/
lemma scope_eq (h : t.plain sc = true) (h' : t.plain sc' = true) {a b : String}
    (heq : t.tag ++ (t.scopePrefix sc ++ a) = t.tag ++ (t.scopePrefix sc' ++ b)) : sc = sc' := by
  cases ht : t.hasScope with
  | false => rw [eq_none_of_plain h ht, eq_none_of_plain h' ht]
  | true =>
    obtain ⟨hp, hcolon⟩ := segment_of_plain h ht
    obtain ⟨hp', hcolon'⟩ := segment_of_plain h' ht
    rw [← String.append_assoc, ← String.append_assoc, hp, hp'] at heq
    have hlist := congrArg String.toList heq
    simp only [String.toList_append, List.append_assoc, List.append_cancel_left_eq] at hlist
    have hseg := append_sep_inj hcolon hcolon' hlist
    exact segment_inj h h' ht (String.toList_inj.mp hseg.1)

/-- A key built from a plain scope belongs to its kind. -/
lemma owns_plain (h : t.plain sc = true) (a : String) : t.Owns (t.tag ++ (t.scopePrefix sc ++ a)) := by
  cases sc with
  | none => cases t <;> first | exact owns_stem _ "" a | exact absurd h (by decide)
  | some x => cases t <;> first | exact owns_stem _ x a | cases h

end Tbl

/-! ### The maps -/

/-- The map that a record belongs to. -/
structure Home where
  kind : Tbl
  scope : Option String
deriving DecidableEq

namespace Home

/-- The records of a map: those of its kind and its scope. -/
abbrev Rec (i : Home) : Type := { v : i.kind.Val // i.kind.scope v = i.scope }

/-- The name a record is found under. -/
def name (i : Home) (v : i.Rec) : String := i.kind.name v.1

end Home

/-- One finite map for each kind and scope. -/
abbrev Maps := (i : Home) → Table i.Rec i.name

/-- The map of the home of a record. -/
abbrev Tbl.home (t : Tbl) (v : t.Val) : Home := ⟨t, t.scope v⟩

namespace Maps

def empty : Maps := fun _ => Table.empty

def upsert (m : Maps) (t : Tbl) (v : t.Val) : Maps :=
  Function.update m (t.home v) ((m (t.home v)).put ⟨t.viaJSON v, t.scope_viaJSON v⟩)

def get (m : Maps) (i : Home) (name : String) : Option i.kind.Val :=
  ((m i).get name).map Subtype.val

def delete (m : Maps) (i : Home) (name : String) : Maps :=
  Function.update m i ((m i).del name)

def list (m : Maps) (i : Home) : List i.kind.Val := (m i).rows.map Subtype.val

def clear (m : Maps) (i : Home) : Maps := Function.update m i Table.empty

/-- The deployment and the workloads that name it. -/
def deleteDeployment (m : Maps) (id : String) : Maps :=
  let m' := m.delete ⟨.deployment, none⟩ id
  Function.update m' ⟨.workload, none⟩
    ((m' ⟨.workload, none⟩).delWhere fun w => decide (Workload.deploymentID w.1 = id))

/-- The queue of a node. -/
def queue (nodeID : String) : Home := ⟨.assignment, some nodeID⟩

/-- The first assignments of a node's queue. -/
def popped (m : Maps) (nodeID : String) (max : ℕ) : List Assignment :=
  ((m (queue nodeID)).rows.take max).map Subtype.val

def popAssignments (m : Maps) (nodeID : String) (max : ℕ) : Maps :=
  Function.update m (queue nodeID)
    ((m (queue nodeID)).delWhere fun a => decide (a ∈ (m (queue nodeID)).rows.take max))

def replaceServiceEndpoints (m : Maps) (serviceID : String) (endpoints : List ServiceEndpoint) :
    Maps :=
  endpoints.foldl (fun m e => m.upsert .endpoint e) (m.clear ⟨.endpoint, some serviceID⟩)

def deleteService (m : Maps) (id : String) : Maps :=
  (m.delete ⟨.service, none⟩ id).clear ⟨.endpoint, some id⟩

end Maps

/-- How the maps are stored in the database, as long as their scopes are plain. -/
def homes : Slicing Home.Rec Entry.key Home.name where
  entry i v := i.kind.entry v.1
  place i n := i.kind.tag ++ (i.kind.scopePrefix i.scope ++ n)
  valid i _ := i.kind.plain i.scope = true
  key_entry := by
    intro i v _
    have hkey := i.kind.key_eq v.1
    rw [v.2] at hkey
    exact congrArg (i.kind.tag ++ ·) hkey
  place_lt _ _ := string_append_lt_iff.trans string_append_lt_iff
  place_index := by
    rintro ⟨t, sc⟩ ⟨t', sc'⟩ a b h h' heq
    have ht : t = t' := (Tbl.owns_plain h a).unique (heq ▸ Tbl.owns_plain h' b)
    subst ht
    exact congrArg (Home.mk t) (Tbl.scope_eq h h' heq)
  entry_inj h := Subtype.ext (kinds.entry_inj h)

/-! ### The operations of the store -/

/-- The operations of the store, with the scope and the name that their arguments give. -/
inductive StoreOp
  | upsert (t : Tbl) (v : t.Val)
  | get (i : Home) (name : String)
  | delete (i : Home) (name : String)
  | list (i : Home)
  | deleteDeployment (id : String)
  | deleteService (id : String)
  | popAssignments (nodeID : String) (max : ℕ)
  | replaceServiceEndpoints (serviceID : String) (endpoints : List ServiceEndpoint)

namespace StoreOp

/-- What an operation returns. -/
abbrev Res : StoreOp → Type
  | get i _ => Option i.kind.Val
  | list i => List i.kind.Val
  | popAssignments _ _ => List Assignment
  | upsert _ _ | delete _ _ | deleteDeployment _ | deleteService _
  | replaceServiceEndpoints _ _ => Unit

/-- An operation on the database. -/
def onBadger : (op : StoreOp) → Badger → op.Res × Badger
  | upsert t v, b => ((), b.put t v)
  | get i n, b => (b.get i.kind (i.kind.scopePrefix i.scope ++ n), b)
  | delete i n, b => ((), b.del i.kind (i.kind.scopePrefix i.scope ++ n))
  | list i, b => (b.list i.kind (i.kind.scopePrefix i.scope), b)
  | deleteDeployment id, b => ((), b.deleteDeployment id)
  | deleteService id, b => ((), b.deleteService id)
  | popAssignments n max, b => (b.popped n max, b.popAssignments n max)
  | replaceServiceEndpoints id eps, b => ((), b.replaceServiceEndpoints id eps)

/-- An operation on the maps. -/
def onMaps : (op : StoreOp) → Maps → op.Res × Maps
  | upsert t v, m => ((), m.upsert t v)
  | get i n, m => (m.get i n, m)
  | delete i n, m => ((), m.delete i n)
  | list i, m => (m.list i, m)
  | deleteDeployment id, m => ((), m.deleteDeployment id)
  | deleteService id, m => ((), m.deleteService id)
  | popAssignments n max, m => (m.popped n max, m.popAssignments n max)
  | replaceServiceEndpoints id eps, m => ((), m.replaceServiceEndpoints id eps)

/-- The operation names plain scopes only. -/
def plain : StoreOp → Bool
  | upsert t v => t.plain (t.scope v)
  | get i _ | delete i _ | list i => i.kind.plain i.scope
  | deleteDeployment _ => true
  | deleteService id => Tbl.plain .endpoint (some id)
  | popAssignments n _ => Tbl.plain .assignment (some n)
  | replaceServiceEndpoints id eps =>
    Tbl.plain .endpoint (some id) && eps.all fun e => Tbl.plain .endpoint (some e.serviceID)

/-- The answers to a sequence of operations, and the state after it. -/
def runAll {σ : Type} (on : (op : StoreOp) → σ → op.Res × σ) :
    List StoreOp → σ → List ((op : StoreOp) × op.Res) × σ
  | [], s => ([], s)
  | op :: ops, s =>
    let rest := runAll on ops (on op s).2
    (⟨op, (on op s).1⟩ :: rest.1, rest.2)

end StoreOp

-- The scope and the name of an operation are those the methods of the store make its key from.
example (ns n : String) :
    StateStore.getSecret ns n = StateStore.find .secret (Tbl.scopePrefix .secret (some ns) ++ n) :=
  rfl

/-! ### The refinement -/

section Refinement

variable {b : Badger} {m : Maps} {i : Home}

/-- The entries of a map are those whose keys have the prefix of its scope. -/
lemma homes_hasPrefix (hi : i.kind.plain i.scope = true) (v : i.Rec) :
    hasPrefix (homes.entry i v).key (i.kind.tag ++ i.kind.scopePrefix i.scope) = true := by
  refine hasPrefix_iff.mpr ⟨i.name v, ?_⟩
  rw [homes.key_entry hi, String.append_assoc]
  rfl

lemma homes_hasPrefix_other {j : Home} (hi : i.kind.plain i.scope = true)
    (hj : j.kind.plain j.scope = true) (hne : j ≠ i) (v : j.Rec) :
    hasPrefix (homes.entry j v).key (i.kind.tag ++ i.kind.scopePrefix i.scope) = false := by
  refine Bool.eq_false_iff.mpr fun h => hne ?_
  obtain ⟨r, hr⟩ := hasPrefix_iff.mp h
  rw [homes.key_entry hj, String.append_assoc] at hr
  exact homes.place_index (b := r) hj hi hr

lemma homes_scan (h : homes.Sliced b m) (hi : i.kind.plain i.scope = true) :
    b.scan (i.kind.tag ++ i.kind.scopePrefix i.scope) = (m i).rows.map (homes.entry i) := by
  have hfilter := h.filter (i := i) (q := fun _ => true)
    (p := fun e => hasPrefix e.key (i.kind.tag ++ i.kind.scopePrefix i.scope))
    (fun v _ => homes_hasPrefix hi v)
    fun j hne v hv => homes_hasPrefix_other hi (h.valid j v hv) hne v
  rwa [List.filter_true] at hfilter

lemma homes_decode (i : Home) (l : List i.Rec) :
    (l.map (homes.entry i)).filterMap (Entry.decode i.kind) = l.map Subtype.val := by
  have hmap : l.map (homes.entry i) = (l.map Subtype.val).map i.kind.entry := by
    rw [List.map_map]
    rfl
  rw [hmap, Tbl.filterMap_decode]

lemma homes_list (h : homes.Sliced b m) (hi : i.kind.plain i.scope = true) :
    b.list i.kind (i.kind.scopePrefix i.scope) = m.list i := by
  unfold Badger.list
  rw [homes_scan h hi, homes_decode]
  rfl

lemma homes_get (h : homes.Sliced b m) (hi : i.kind.plain i.scope = true) (n : String) :
    b.get i.kind (i.kind.scopePrefix i.scope ++ n) = m.get i n := by
  have hget : Table.get b (i.kind.tag ++ (i.kind.scopePrefix i.scope ++ n)) =
      ((m i).get n).map (homes.entry i) := h.get hi
  unfold Badger.get Maps.get
  rw [hget]
  cases (m i).get n with
  | none => rfl
  | some v => exact i.kind.decode_entry v.1

lemma homes_upsert (h : homes.Sliced b m) {t : Tbl} {v : t.Val} (hv : t.plain (t.scope v) = true) :
    homes.Sliced (b.put t v) (m.upsert t v) := by
  have hentry : b.put t v =
      Table.put b (homes.entry (t.home v) ⟨t.viaJSON v, t.scope_viaJSON v⟩) := by
    unfold Badger.put
    rw [← Tbl.key_viaJSON]
    rfl
  rw [hentry]
  exact h.put hv

lemma homes_delete (h : homes.Sliced b m) (hi : i.kind.plain i.scope = true) (n : String) :
    homes.Sliced (b.del i.kind (i.kind.scopePrefix i.scope ++ n)) (m.delete i n) :=
  h.del hi

/-- A record of the whole cluster is deleted. -/
lemma homes_delete_none (h : homes.Sliced b m) {t : Tbl} (ht : t.plain none = true)
    (hp : t.scopePrefix none = "") (n : String) :
    homes.Sliced (b.del t n) (m.delete ⟨t, none⟩ n) := by
  have hdel := homes_delete (i := ⟨t, none⟩) h ht n
  rwa [hp, String.empty_append] at hdel

lemma homes_clear (h : homes.Sliced b m) (hi : i.kind.plain i.scope = true) :
    homes.Sliced (b.clear (i.kind.tag ++ i.kind.scopePrefix i.scope)) (m.clear i) := by
  have hempty : (m i).delWhere (fun _ => true) = Table.empty := by
    refine Table.ext_mem fun v => ?_
    rw [Table.mem_rows_delWhere]
    exact ⟨fun hv => absurd hv.2 (by decide), fun hv => absurd hv List.not_mem_nil⟩
  unfold Maps.clear
  rw [← hempty]
  exact h.delWhere (fun v _ => homes_hasPrefix hi v)
    fun j hne v hv => homes_hasPrefix_other hi (h.valid j v hv) hne v

lemma homes_deleteDeployment (h : homes.Sliced b m) (id : String) :
    homes.Sliced (b.deleteDeployment id) (m.deleteDeployment id) := by
  have hdel : homes.Sliced (b.del .deployment id) (m.delete ⟨.deployment, none⟩ id) :=
    homes_delete_none h rfl rfl id
  have hplain : Tbl.plain .workload none = true := rfl
  refine hdel.delWhere (i := ⟨.workload, none⟩) (fun w _ => ?_) fun j hne v hv => ?_
  · have hpfx := homes_hasPrefix (i := ⟨.workload, none⟩) hplain w
    change (hasPrefix _ (Tbl.tag .workload ++ Tbl.scopePrefix .workload none) &&
      ((Tbl.entry .workload w.1).decode .workload).any _) = _
    rw [hpfx, Bool.true_and, Tbl.decode_entry]
    rfl
  · have hpfx := homes_hasPrefix_other (i := ⟨.workload, none⟩) hplain (hdel.valid j v hv) hne v
    change (hasPrefix _ (Tbl.tag .workload ++ Tbl.scopePrefix .workload none) && _) = _
    rw [hpfx, Bool.false_and]

lemma homes_deleteService (h : homes.Sliced b m) {id : String}
    (hid : Tbl.plain .endpoint (some id) = true) :
    homes.Sliced (b.deleteService id) (m.deleteService id) :=
  homes_clear (i := ⟨.endpoint, some id⟩) (homes_delete_none h rfl rfl id) hid

lemma homes_taken (h : homes.Sliced b m) {n : String} (hn : Tbl.plain .assignment (some n) = true)
    (max : ℕ) :
    b.taken n max = ((m (Maps.queue n)).rows.take max).map (homes.entry (Maps.queue n)) := by
  have hscan := homes_scan (i := Maps.queue n) h hn
  unfold Badger.taken
  rw [List.map_take, ← hscan]
  rfl

lemma homes_popped (h : homes.Sliced b m) {n : String} (hn : Tbl.plain .assignment (some n) = true)
    (max : ℕ) : b.popped n max = m.popped n max := by
  unfold Badger.popped
  rw [homes_taken h hn]
  exact homes_decode (Maps.queue n) _

lemma homes_popAssignments (h : homes.Sliced b m) {n : String}
    (hn : Tbl.plain .assignment (some n) = true) (max : ℕ) :
    homes.Sliced (b.popAssignments n max) (m.popAssignments n max) := by
  unfold Badger.popAssignments Maps.popAssignments
  rw [homes_taken h hn]
  refine h.delWhere (fun a _ => ?_) fun j hne v hv => ?_
  · exact decide_eq_decide.mpr (List.mem_map_of_injective fun a a' heq => homes.entry_inj heq)
  · refine decide_eq_false fun hmem => hne ?_
    obtain ⟨a, -, heq⟩ := List.mem_map.mp hmem
    have hj := h.valid j v hv
    have ha : homes.valid (Maps.queue n) ((Maps.queue n).name a) := hn
    refine homes.place_index hj ha ?_
    rw [← homes.key_entry hj, ← homes.key_entry ha, heq]

lemma homes_replaceServiceEndpoints (h : homes.Sliced b m) {id : String}
    (hid : Tbl.plain .endpoint (some id) = true) {eps : List ServiceEndpoint}
    (heps : ∀ e ∈ eps, Tbl.plain .endpoint (some e.serviceID) = true) :
    homes.Sliced (b.replaceServiceEndpoints id eps) (m.replaceServiceEndpoints id eps) := by
  have hputs : ∀ {b : Badger} {m : Maps}, homes.Sliced b m →
      homes.Sliced (eps.foldl (fun (b : Badger) e => b.put .endpoint e) b)
        (eps.foldl (fun m e => Maps.upsert m .endpoint e) m) := by
    induction eps with
    | nil => exact fun h => h
    | cons e eps ih =>
      intro b m h
      refine ih (fun e' he' => heps e' (List.mem_cons_of_mem _ he')) ?_
      exact homes_upsert (t := .endpoint) h (heps e List.mem_cons_self)
  exact hputs (homes_clear (i := ⟨.endpoint, some id⟩) h hid)

/-- An operation that names plain scopes has the same answer and effect on the database as on
the maps. -/
lemma homes_op (h : homes.Sliced b m) {op : StoreOp} (hop : op.plain = true) :
    (op.onBadger b).1 = (op.onMaps m).1 ∧ homes.Sliced (op.onBadger b).2 (op.onMaps m).2 := by
  cases op with
  | upsert t v => exact ⟨rfl, homes_upsert h hop⟩
  | get i n => exact ⟨homes_get h hop n, h⟩
  | delete i n => exact ⟨rfl, homes_delete h hop n⟩
  | list i => exact ⟨homes_list h hop, h⟩
  | deleteDeployment id => exact ⟨rfl, homes_deleteDeployment h id⟩
  | deleteService id => exact ⟨rfl, homes_deleteService h hop⟩
  | popAssignments n max => exact ⟨homes_popped h hop max, homes_popAssignments h hop max⟩
  | replaceServiceEndpoints id eps =>
    obtain ⟨hid, heps⟩ := Bool.and_eq_true_iff.mp hop
    exact ⟨rfl, homes_replaceServiceEndpoints h hid (List.all_eq_true.mp heps)⟩

end Refinement

/-- **The store refines the typed maps**: every sequence of operations that name plain scopes has
the same answers on the database as on the maps. -/
theorem store_refines_maps (ops : List StoreOp) (h : ∀ op ∈ ops, op.plain = true) :
    (StoreOp.runAll StoreOp.onBadger ops Table.empty).1 =
      (StoreOp.runAll StoreOp.onMaps ops Maps.empty).1 := by
  have hrun : ∀ {b : Badger} {m : Maps}, homes.Sliced b m →
      (StoreOp.runAll StoreOp.onBadger ops b).1 = (StoreOp.runAll StoreOp.onMaps ops m).1 := by
    induction ops with
    | nil => exact fun _ => rfl
    | cons op ops ih =>
      intro b m hbm
      obtain ⟨hres, hnext⟩ := homes_op hbm (h op List.mem_cons_self)
      have hrest := ih (fun op' hop' => h op' (List.mem_cons_of_mem _ hop')) hnext
      simp only [StoreOp.runAll]
      rw [hres, hrest]
  exact hrun Slicing.Sliced.empty

/-- Two tenants, a queue and the two kinds of role bindings, under plain scopes. -/
def tenantOps : List StoreOp :=
  [.upsert .secret { nameSpace := "a", name := "b:c" },
    .upsert .secret { nameSpace := "b", name := "c" },
    .upsert .roleBinding { name := "ops", subject := "u", roles := ["viewer"] },
    .upsert .assignment { action := .create, id := "x", nodeID := "n1", workloadID := "w" },
    .list ⟨.secret, some "a"⟩, .get ⟨.secret, some "b"⟩ "c", .list ⟨.roleBinding, none⟩,
    .popAssignments "n1" 5]

theorem store_refines_maps_tenants :
    (StoreOp.runAll StoreOp.onBadger tenantOps Table.empty).1 =
      (StoreOp.runAll StoreOp.onMaps tenantOps Maps.empty).1 :=
  store_refines_maps tenantOps (List.all_eq_true.mp (by decide +kernel))

/-- Writes to two namespaces, to a namespace called `global` and to the queue of another node. -/
def crossingOps : List StoreOp :=
  [.upsert .secret { nameSpace := "a:b", name := "c" },
    .upsert .secret { nameSpace := "a", name := "b:c" },
    .upsert .networkPolicy { nameSpace := "a:b", name := "p" },
    .upsert .roleBinding { nameSpace := "global", name := "ops", subject := "u", roles := ["admin"] },
    .upsert .assignment { action := .create, id := "x", nodeID := "n1:z", workloadID := "w" }]

/-- The second secret has replaced the first one, a namespace lists the policy of another, a
named namespace has put a role binding among the global ones, and a node is given the
assignment of another node. -/
theorem scopes_collide :
    let b := (StoreOp.runAll StoreOp.onBadger crossingOps Table.empty).2
    let m := (StoreOp.runAll StoreOp.onMaps crossingOps Maps.empty).2
    ((StoreOp.get ⟨.secret, some "a:b"⟩ "c").onBadger b).1 =
        some { nameSpace := "a", name := "b:c" } ∧
      ((StoreOp.get ⟨.secret, some "a:b"⟩ "c").onMaps m).1 =
        some { nameSpace := "a:b", name := "c" } ∧
      ((StoreOp.list ⟨.networkPolicy, some "a"⟩).onBadger b).1.map NetworkPolicy.nameSpace =
        ["a:b"] ∧
      ((StoreOp.list ⟨.networkPolicy, some "a"⟩).onMaps m).1 = [] ∧
      ((StoreOp.list ⟨.roleBinding, none⟩).onBadger b).1.map RoleBinding.nameSpace = ["global"] ∧
      ((StoreOp.list ⟨.roleBinding, none⟩).onMaps m).1 = [] ∧
      ((StoreOp.popAssignments "n1" 5).onBadger b).1.map Assignment.nodeID = ["n1:z"] ∧
      ((StoreOp.popAssignments "n1" 5).onMaps m).1 = [] := by
  decide +kernel

end Orchestrator
