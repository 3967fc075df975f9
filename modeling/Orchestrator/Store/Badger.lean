/-
# The key-value database under the store

`BadgerStateStore` keeps the records of all kinds in one Badger database, a map from keys to
values that is iterated in the order of the keys.  Each kind has a first word in its keys, up
to the first colon, and no two kinds share it: this is why the rest of the development may keep
one table per kind.  The theorem that connects the two is `exec_badger`: whatever calls are
made, the database and the tables give the same answers.
-/
import Orchestrator.Lib.Delimited
import Orchestrator.Lib.Slices
import Orchestrator.Store.State

namespace Orchestrator

open Lib

/-! ### The database -/

/-- What is stored under a key: the JSON text of a record of some kind. -/
structure Entry where
  key : String
  kind : Tbl
  value : kind.Val

instance Entry.decidableEq : DecidableEq Entry
  | ⟨k, t, v⟩, ⟨k', t', v'⟩ =>
    if hk : k = k' then
      if ht : t = t' then by
        subst hk ht
        exact decidable_of_iff (v = v') ⟨fun h => by rw [h], fun h => by cases h; rfl⟩
      else isFalse fun h => ht (by cases h; rfl)
    else isFalse fun h => hk (by cases h; rfl)

/-- `json.Unmarshal` of what was stored.  No key of one kind is read as another, so what this
gives for another kind does not matter. -/
def Entry.decode (t : Tbl) (e : Entry) : Option t.Val :=
  if h : e.kind = t then some (h ▸ e.value) else none

/-- The database. -/
abbrev Badger := Table Entry Entry.key

/-- What stands in a key before the key of the table of a kind: nothing for the kinds whose
composite key is spelled out. -/
def Tbl.tag : Tbl → String
  | node => "node:"
  | deployment => "deployment:"
  | workload => "workload:"
  | service => "service:"
  | nameSpace => "namespace:"
  | quota => "quota:"
  | volume => "pv:"
  | job => "job:"
  | policy => "autoscaler:"
  | endpoint | secret | claim | cronJob | metric | assignment | lease | networkPolicy
  | roleBinding => ""

/-- The first word of the keys of a kind. -/
def Tbl.word : Tbl → String
  | node => "node"
  | deployment => "deployment"
  | workload => "workload"
  | service => "service"
  | endpoint => "service-endpoint"
  | nameSpace => "namespace"
  | quota => "quota"
  | secret => "secret"
  | volume => "pv"
  | claim => "pvc"
  | job => "job"
  | cronJob => "cronjob"
  | policy => "autoscaler"
  | metric => "metric"
  | assignment => "assignment"
  | lease => "controller"
  | networkPolicy => "netpol"
  | roleBinding => "rbac"

/-- The entry of a record. -/
def Tbl.entry (t : Tbl) (v : t.Val) : Entry := ⟨t.tag ++ t.key v, t, v⟩

namespace Badger

/-- `BadgerStateStore.get`. -/
def get (b : Badger) (t : Tbl) (k : String) : Option t.Val :=
  (Table.get b (t.tag ++ k)).bind (Entry.decode t)

/-- `BadgerStateStore.put`. -/
def put (b : Badger) (t : Tbl) (v : t.Val) : Badger :=
  Table.put b ⟨t.tag ++ t.key v, t, t.viaJSON v⟩

/-- `txn.Delete`. -/
def del (b : Badger) (t : Tbl) (k : String) : Badger := Table.del b (t.tag ++ k)

/-- The entries from `it.Seek(prefix)` on, while `it.ValidForPrefix(prefix)`. -/
def scan (b : Badger) (pfx : String) : List Entry := b.rows.filter fun e => hasPrefix e.key pfx

/-- `listPrefix`. -/
def list (b : Badger) (t : Tbl) (pfx : String) : List t.Val :=
  (b.scan (t.tag ++ pfx)).filterMap (Entry.decode t)

/-- `DeleteDeployment`. -/
def deleteDeployment (b : Badger) (id : String) : Badger :=
  (b.del .deployment id).delWhere fun e =>
    hasPrefix e.key "workload:" &&
      ((e.decode .workload).any fun w => decide (Workload.deploymentID w = id))

/-- The entries that `PopAssignments` takes. -/
def taken (b : Badger) (nodeID : String) (max : ℕ) : List Entry :=
  (b.scan (keyAssignmentPrefix nodeID)).take max

/-- What `PopAssignments` returns. -/
def popped (b : Badger) (nodeID : String) (max : ℕ) : List Assignment :=
  (b.taken nodeID max).filterMap (Entry.decode .assignment)

/-- `PopAssignments`. -/
def popAssignments (b : Badger) (nodeID : String) (max : ℕ) : Badger :=
  b.delWhere fun e => decide (e ∈ b.taken nodeID max)

/-- The entries under a prefix are deleted. -/
def clear (b : Badger) (pfx : String) : Badger := b.delWhere fun e => hasPrefix e.key pfx

/-- `ReplaceServiceEndpoints`. -/
def replaceServiceEndpoints (b : Badger) (serviceID : String) (endpoints : List ServiceEndpoint) :
    Badger :=
  endpoints.foldl (fun (b : Badger) e => b.put .endpoint e)
    (b.clear (keyServiceEndpointPrefix serviceID))

/-- `DeleteService`. -/
def deleteService (b : Badger) (id : String) : Badger :=
  (b.del .service id).clear (keyServiceEndpointPrefix id)

end Badger

/-- The database in a run. -/
structure BadgerWorld where
  db : Badger
  tick : ℕ

/-- The answer and the effect of a call on the database. -/
def execBadger (env : Env) : (c : Call) → BadgerWorld → c.Res × BadgerWorld
  | .now, w => (env.clock w.tick, { w with tick := w.tick + 1 })
  | .rand, w => (env.rand w.tick, { w with tick := w.tick + 1 })
  | .admission, w => (env.admission w.tick, { w with tick := w.tick + 1 })
  | .external, w => (env.external w.tick, { w with tick := w.tick + 1 })
  | .lock, w => ((), w)
  | .unlock, w => ((), w)
  | .get t k, w => (w.db.get t k, w)
  | .put t v, w => ((), { w with db := w.db.put t v })
  | .del t k, w => ((), { w with db := w.db.del t k })
  | .list t pfx, w => (w.db.list t pfx, w)
  | .deleteDeployment id, w => ((), { w with db := w.db.deleteDeployment id })
  | .popAssignments node max, w =>
      (w.db.popped node max, { w with db := w.db.popAssignments node max })
  | .replaceServiceEndpoints id eps, w =>
      ((), { w with db := w.db.replaceServiceEndpoints id eps })

/-! ### The kinds in the database -/

/-- A text that starts with the first word of a kind. -/
def Tbl.Owns (t : Tbl) (s : String) : Prop := ∃ r, s = t.word ++ ":" ++ r

lemma Tbl.word_inj {t u : Tbl} (h : t.word = u.word) : t = u := by
  cases t <;> cases u <;> first | rfl | exact absurd h (by decide +kernel)

lemma Tbl.colon_notMem_word (t : Tbl) : ':' ∉ t.word.toList := by
  cases t <;> decide +kernel

/-- No text belongs to two kinds. -/
lemma Tbl.Owns.unique {t u : Tbl} {s : String} (ht : t.Owns s) (hu : u.Owns s) : t = u := by
  obtain ⟨r, rfl⟩ := ht
  obtain ⟨r', h⟩ := hu
  have hlist := congrArg String.toList h
  simp only [String.toList_append, List.append_assoc] at hlist
  have hword := append_sep_inj t.colon_notMem_word u.colon_notMem_word hlist
  exact Tbl.word_inj (String.toList_inj.mp hword.1)

lemma Tbl.Owns.append {t : Tbl} {s : String} (h : t.Owns s) (r : String) : t.Owns (s ++ r) := by
  obtain ⟨q, rfl⟩ := h
  exact ⟨q ++ r, by rw [String.append_assoc]⟩

/-- What the keys start with under which the store's methods keep, look for and list the records
of a kind, by the second part of a composite key. -/
def Tbl.stem (part : String) : Tbl → String
  | endpoint => keyServiceEndpointPrefix part
  | secret => keySecretPrefix part
  | claim => keyPersistentVolumeClaimPrefix part
  | cronJob => keyCronJobPrefix part
  | metric => keyDeploymentMetricPrefix part
  | assignment => keyAssignmentPrefix part
  | networkPolicy => keyNetworkPolicyPrefix part
  | roleBinding => keyRoleBindingPrefix part
  | lease => "controller:"
  | node | deployment | workload | service | nameSpace | quota | volume | job | policy => ""

/-- Such a key belongs to its kind. -/
lemma Tbl.owns_stem (t : Tbl) (part rest : String) : t.Owns (t.tag ++ (t.stem part ++ rest)) := by
  have hcomposite : ∀ {t : Tbl} {p : String} (part : String), p = t.word ++ ":" →
      t.Owns ("" ++ (p ++ part ++ ":" ++ rest)) := by
    rintro t _ part rfl
    exact ⟨part ++ ":" ++ rest, by simp only [String.append_assoc, String.empty_append]⟩
  cases t with
  | node | deployment | workload | service | nameSpace | quota | volume | job | policy =>
    exact ⟨"" ++ rest, rfl⟩
  | lease => exact ⟨rest, String.empty_append⟩
  | endpoint | secret | claim | cronJob | metric | assignment | networkPolicy =>
    exact hcomposite _ rfl
  | roleBinding =>
    change Tbl.roleBinding.Owns ("" ++ (keyRoleBindingPrefix _ ++ _))
    unfold keyRoleBindingPrefix
    split_ifs
    · exact hcomposite "global" rfl
    · exact hcomposite _ rfl

lemma Tbl.owns_prefix (t : Tbl) (part : String) : t.Owns (t.tag ++ t.stem part) := by
  have h := t.owns_stem part ""
  rwa [String.append_empty] at h

/-- A record's key belongs to the record's kind. -/
lemma Tbl.owns_key (t : Tbl) (v : t.Val) : t.Owns (t.tag ++ t.key v) := by
  cases t with
  | node | deployment | workload | service | nameSpace | quota | volume | job | policy =>
    exact ⟨_, rfl⟩
  | lease => exact Tbl.owns_stem .lease "" "lease"
  | endpoint | secret | claim | cronJob | assignment | networkPolicy | roleBinding =>
    exact Tbl.owns_stem _ _ _
  | metric =>
    change Tbl.metric.Owns ("" ++ (keyDeploymentMetricPrefix v.deploymentID ++ _ ++ _ ++ _))
    rw [String.append_assoc, String.append_assoc]
    exact Tbl.owns_stem .metric _ _

lemma Tbl.key_viaJSON (t : Tbl) (v : t.Val) : t.key (t.viaJSON v) = t.key v := by
  cases t <;> rfl

/-- How the tables are stored in the database. -/
def kinds : Slicing Tbl.Val Entry.key Tbl.key where
  entry := Tbl.entry
  place t k := t.tag ++ k
  valid t k := t.Owns (t.tag ++ k)
  key_entry _ := rfl
  place_lt _ _ := string_append_lt_iff
  place_index ha hb h := ha.unique (h ▸ hb)
  entry_inj h := by injection h

@[simp] lemma Tbl.decode_entry (t : Tbl) (v : t.Val) : (t.entry v).decode t = some v := by
  simp [Entry.decode, Tbl.entry]

lemma Tbl.filterMap_decode (t : Tbl) (l : List t.Val) :
    (l.map t.entry).filterMap (Entry.decode t) = l := by
  induction l with
  | nil => rfl
  | cons v l ih => rw [List.map_cons, List.filterMap_cons_some (t.decode_entry v), ih]

lemma Store.set_eq_update (s : Store) (t : Tbl) (T : Table t.Val t.key) :
    s.set t T = Function.update s t T := by
  funext u
  by_cases h : u = t
  · subst h
    rw [Store.set_self, Function.update_self]
  · rw [Store.set_of_ne s T h, Function.update_of_ne h]

section Sim

variable {b : Badger} {s : Store} {t : Tbl} {pfx : String}

/-- A prefix that belongs to a kind is not one of a key of another kind. -/
lemma Tbl.Owns.hasPrefix_eq_false {u : Tbl} (hp : t.Owns pfx) (hne : u ≠ t) (v : u.Val) :
    hasPrefix (u.entry v).key pfx = false := by
  refine Bool.eq_false_iff.mpr fun h => hne ?_
  obtain ⟨r, hr⟩ : ∃ r, u.tag ++ u.key v = pfx ++ r := hasPrefix_iff.mp h
  exact (u.owns_key v).unique (hr ▸ hp.append r)

variable (h : kinds.Sliced b s)
include h

lemma kinds_scan (hp : t.Owns (t.tag ++ pfx)) :
    b.scan (t.tag ++ pfx) =
      ((s t).rows.filter fun v => hasPrefix (t.key v) pfx).map t.entry :=
  h.filter (fun _ _ => hasPrefix_append _ _ _) fun _ hne v _ => hp.hasPrefix_eq_false hne v

lemma kinds_get {k : String} (hk : t.Owns (t.tag ++ k)) :
    b.get t k = (s t).get k := by
  have hget : Table.get b (t.tag ++ k) = ((s t).get k).map t.entry := h.get hk
  unfold Badger.get
  rw [hget]
  cases (s t).get k <;> simp

lemma kinds_list (hp : t.Owns (t.tag ++ pfx)) : b.list t pfx = s.list t pfx := by
  unfold Badger.list Store.list
  rw [kinds_scan h hp, Tbl.filterMap_decode]
  split_ifs with hempty
  · subst hempty
    exact List.filter_eq_self.mpr fun _ _ => rfl
  · rfl

lemma kinds_put (v : t.Val) : kinds.Sliced (b.put t v) (s.put t v) := by
  have hentry : b.put t v = Table.put b (t.entry (t.viaJSON v)) := by
    unfold Badger.put Tbl.entry
    rw [Tbl.key_viaJSON]
  rw [hentry]
  unfold Store.put
  rw [Store.set_eq_update]
  exact h.put (t.owns_key _)

lemma kinds_del {k : String} (hk : t.Owns (t.tag ++ k)) :
    kinds.Sliced (b.del t k) (s.del t k) := by
  unfold Store.del
  rw [Store.set_eq_update]
  exact h.del hk

lemma kinds_clear (hp : t.Owns (t.tag ++ pfx)) :
    kinds.Sliced (b.clear (t.tag ++ pfx))
      (s.set t ((s t).delWhere fun v => hasPrefix (t.key v) pfx)) := by
  rw [Store.set_eq_update]
  exact h.delWhere (fun _ _ => hasPrefix_append _ _ _) fun _ hne v _ => hp.hasPrefix_eq_false hne v

lemma kinds_deleteDeployment (id : String) :
    kinds.Sliced (b.deleteDeployment id) (s.deleteDeployment id) := by
  have hdel : kinds.Sliced (b.del .deployment id) (s.del .deployment id) := kinds_del h ⟨id, rfl⟩
  have hrows : (s.del .deployment id) .workload = s .workload :=
    Store.set_of_ne s _ (by decide)
  unfold Store.deleteDeployment
  rw [Store.set_eq_update, ← hrows]
  refine hdel.delWhere (fun w _ => ?_) fun u hne v _ => ?_
  · have hpfx : hasPrefix (Tbl.entry .workload w).key "workload:" = true :=
      hasPrefix_iff.mpr ⟨_, rfl⟩
    change (hasPrefix (Tbl.entry .workload w).key "workload:" &&
      ((Tbl.entry .workload w).decode .workload).any _) = _
    rw [hpfx, Bool.true_and, Tbl.decode_entry]
    rfl
  · have hpfx : hasPrefix (u.entry v).key "workload:" = false :=
      Tbl.Owns.hasPrefix_eq_false (t := .workload) ⟨"", rfl⟩ hne v
    change (hasPrefix (u.entry v).key "workload:" && _) = _
    rw [hpfx, Bool.false_and]

lemma kinds_taken (nodeID : String) (max : ℕ) :
    b.taken nodeID max = (s.popped nodeID max).map (Tbl.entry .assignment) := by
  have howns : Tbl.assignment.Owns ("" ++ keyAssignmentPrefix nodeID) := Tbl.owns_prefix _ nodeID
  have hscan := kinds_scan h howns
  unfold Badger.taken Store.popped
  rw [List.map_take, ← hscan]
  rfl

lemma kinds_popped (nodeID : String) (max : ℕ) :
    b.popped nodeID max = s.popped nodeID max := by
  unfold Badger.popped
  rw [kinds_taken h]
  exact Tbl.filterMap_decode .assignment _

lemma kinds_popAssignments (nodeID : String) (max : ℕ) :
    kinds.Sliced (b.popAssignments nodeID max) (s.popAssignments nodeID max) := by
  unfold Badger.popAssignments Store.popAssignments
  rw [Store.set_eq_update, kinds_taken h]
  refine h.delWhere (fun a _ => ?_) fun u hne v _ => ?_
  · refine decide_eq_decide.mpr (List.mem_map_of_injective fun a a' heq => ?_)
    exact kinds.entry_inj (i := .assignment) heq
  · refine decide_eq_false fun hmem => hne ?_
    obtain ⟨a, -, heq⟩ := List.mem_map.mp hmem
    exact (congrArg Entry.kind heq).symm

lemma kinds_replaceServiceEndpoints (serviceID : String)
    (endpoints : List ServiceEndpoint) :
    kinds.Sliced (b.replaceServiceEndpoints serviceID endpoints)
      (s.replaceServiceEndpoints serviceID endpoints) := by
  have hputs : ∀ {b : Badger} {T : Table ServiceEndpoint (Tbl.key .endpoint)},
      kinds.Sliced b (s.set .endpoint T) →
      kinds.Sliced (endpoints.foldl (fun (b : Badger) e => b.put .endpoint e) b)
        (s.set .endpoint (endpoints.foldl (fun T e => T.put e) T)) := by
    induction endpoints with
    | nil => exact fun h => h
    | cons e es ih =>
      intro b T h
      have hput := kinds_put (t := .endpoint) h e
      have hset : (s.set .endpoint T).put .endpoint e = s.set .endpoint (T.put e) := by
        unfold Store.put
        rw [Store.set_self, Store.set_eq_update, Store.set_eq_update, Store.set_eq_update,
          Function.update_idem]
        rfl
      rw [hset] at hput
      exact ih hput
  have howns : Tbl.endpoint.Owns (Tbl.endpoint.tag ++ keyServiceEndpointPrefix serviceID) :=
    Tbl.owns_prefix _ serviceID
  have hclear := kinds_clear h howns
  exact hputs hclear

end Sim

/-! ### Runs over the database -/

/-- A call whose key belongs to its kind, as every key that the store's methods build does. -/
def Call.Proper : Call → Prop
  | .get t k | .del t k | .list t k => t.Owns (t.tag ++ k)
  | _ => True

/-- The calls with which the store's methods look for, delete and list records are proper. -/
lemma Call.proper_methods (t : Tbl) (part rest : String) :
    Call.Proper (.get t (t.stem part ++ rest)) ∧ Call.Proper (.del t (t.stem part ++ rest)) ∧
      Call.Proper (.list t (t.stem part)) :=
  ⟨t.owns_stem part rest, t.owns_stem part rest, t.owns_prefix part⟩

/-- The database holds the tables. -/
def Stores (b : BadgerWorld) (w : World) : Prop := kinds.Sliced b.db w.store ∧ b.tick = w.tick

/-- **A call has the same answer and the same effect on the database as on the tables.** -/
lemma exec_badger (env : Env) {c : Call} (hc : c.Proper) {b : BadgerWorld} {w : World}
    (h : Stores b w) :
    (execBadger env c b).1 = (exec env c w).1 ∧
      Stores (execBadger env c b).2 (exec env c w).2 := by
  obtain ⟨hs, htick⟩ := h
  cases c with
  | now | rand | admission | external =>
    simp only [execBadger, exec, World.read, Stores, htick]
    exact ⟨trivial, hs, trivial⟩
  | lock | unlock => exact ⟨rfl, hs, htick⟩
  | get t k => exact ⟨kinds_get hs hc, hs, htick⟩
  | put t v => exact ⟨rfl, kinds_put hs v, htick⟩
  | del t k => exact ⟨rfl, kinds_del hs hc, htick⟩
  | list t pfx => exact ⟨kinds_list hs hc, hs, htick⟩
  | deleteDeployment id => exact ⟨rfl, kinds_deleteDeployment hs id, htick⟩
  | popAssignments n max => exact ⟨kinds_popped hs n max, kinds_popAssignments hs n max, htick⟩
  | replaceServiceEndpoints id eps =>
    exact ⟨rfl, kinds_replaceServiceEndpoints hs id eps, htick⟩

/-- **A function of the control plane gives the same result over the database as over the
tables.** -/
theorem run_badger (env : Env) {α : Type} {p : M α} (hp : p.Only Call.Proper fun _ => True)
    {b : BadgerWorld} {w : World} (h : Stores b w) :
    (p.run (execBadger env) b).1 = (p.run (exec env) w).1 ∧
      Stores (p.run (execBadger env) b).2 (p.run (exec env) w).2 := by
  induction p generalizing b w with
  | ret r => exact ⟨rfl, h⟩
  | call c k ih =>
    obtain ⟨hres, hnext⟩ := exec_badger env hp.1 h
    change (Prog.run (execBadger env) (k _) _).1 = (Prog.run (exec env) (k _) _).1 ∧ _
    rw [Prog.run, Prog.run, hres]
    exact ih _ (hp.2 _) hnext

/-- From a database with records of three kinds a workload is deleted, and the secrets of a
namespace are listed. -/
theorem run_badger_mixed :
    let env : Env := ⟨fun _ => 1, fun _ => 0, fun _ => none, fun _ _ _ => none⟩
    let n : Node := { id := "n1" }
    let v : Workload := { id := "w1", deploymentID := "d1", nodeID := "n1", status := .running }
    let k : Secret := { nameSpace := "prod", name := "key" }
    let b : BadgerWorld := ⟨((Badger.put Table.empty .node n).put .workload v).put .secret k, 0⟩
    let w : World := ⟨((Store.empty.put .node n).put .workload v).put .secret k, 0⟩
    let p := StateStore.deleteWorkload "w1" >>= fun _ => StateStore.listSecrets "prod"
    Stores b w ∧ (p.run (execBadger env) b).1 = .ok [k] ∧
      Stores (p.run (execBadger env) b).2 (p.run (exec env) w).2 := by
  intro env n v k b w p
  have hstart : Stores b w := ⟨kinds_put (t := .secret)
    (kinds_put (t := .workload) (kinds_put (t := .node) .empty n) v) k, rfl⟩
  obtain ⟨hres, hend⟩ := run_badger env (p := p) ⟨(Call.proper_methods .workload "" "w1").2.1,
    fun _ => ⟨(Call.proper_methods .secret "prod" "").2.2, fun _ => trivial⟩⟩ hstart
  exact ⟨hstart, hres.trans (by decide +kernel), hend⟩

end Orchestrator
