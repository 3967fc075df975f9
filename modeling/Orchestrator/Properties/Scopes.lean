/-
# The scope of a role

The roles of a request are looked up in the namespace that its query or a header names.  What the
request acts on is in the namespace that its body names, or in that of a record which the path
names.  Nothing compares the two, so a subject who is an operator in one namespace acts in all of
them.

A request of such a subject that is let through to more than reading is made in the namespace of
the role.  If what it acts on is in this namespace as well (`Operation.StaysIn`), the records of
all other namespaces stay as they are.  The records that must not be touched are fixed at the
start of the request; the regime `scopeRegime` says which calls leave them alone.
-/
import Orchestrator.Properties.Escalation
import Orchestrator.Properties.Viewers
import Orchestrator.Logic.Accesses
import Orchestrator.Store.Badger

namespace Orchestrator

open Lib

variable {env : Env} {s : HTTPServer} {w : World} {A : String} {t : Tbl} {v : t.Val}
  {st st' : Store} {r : Request}

/-! ### The namespace of a record -/

/-- The namespace that a record belongs to, for the kinds of records that have an owner. -/
def recordNamespace : (t : Tbl) → t.Val → Option String
  | .deployment, d => some (Deployment.spec d).nameSpace
  | .service, v => some (Service.spec v).nameSpace
  | .secret, v => some (Secret.nameSpace v)
  | .claim, c => some (PersistentVolumeClaim.nameSpace c)
  | .networkPolicy, p => some (NetworkPolicy.nameSpace p)
  | .job, j => some (Job.spec j).nameSpace
  | .cronJob, c => some (CronJob.nameSpace c)
  | _, _ => none

/-- The record belongs to a namespace other than `A`.  A deployment that was in another namespace
counts as well, since a rollback takes it back there. -/
def Outside (A : String) : (t : Tbl) → t.Val → Prop
  | .deployment, d => (Deployment.spec d).nameSpace ≠ A ∨
      ∃ r ∈ Deployment.revisionHistory d, r.spec.nameSpace ≠ A
  | t, v => ∃ B, recordNamespace t v = some B ∧ B ≠ A

lemma outside_viaJSON : Outside A t (t.viaJSON v) ↔ Outside A t v := by
  cases t with
  | deployment =>
    refine or_congr Iff.rfl ?_
    change (∃ r ∈ (Deployment.revisionHistory v).map DeploymentRevision.viaJSON, _) ↔ _
    simp only [List.mem_map, exists_exists_and_eq_and]
    exact Iff.rfl
  | _ => exact Iff.rfl

/-- No record outside of `A` is stored under the key. -/
def KeyFree (A : String) (st : Store) (t : Tbl) (k : String) : Prop :=
  ∀ v ∈ (st t).rows, t.key v = k → ¬ Outside A t v

/-- The records outside of `A` are the same in both stores. -/
def Untouched (A : String) (st st' : Store) : Prop :=
  ∀ t v, Outside A t v → (v ∈ (st' t).rows ↔ v ∈ (st t).rows)

/-! ### The regime -/

/-- What a call does that leaves alone the records outside of `A`, as they are at the start in `w`:
it stores and removes records under free keys only, and what it stores is not outside.  Besides, all
records keep a rule `R`. -/
def scopeRegime (env : Env) (w : World) (A : String) (R : (t : Tbl) → t.Val → Prop) :
    Regime Call.Res where
  answers
    | .get t k, a =>
      (∀ v, a = some v → t.key v = k ∧ R t v ∧ (Outside A t v → v ∈ (w.store t).rows)) ∧
        (a = none → KeyFree A w.store t k)
    | .list t _, l => ∀ v ∈ l, R t v ∧ (Outside A t v → v ∈ (w.store t).rows) ∧
        (¬ Outside A t v → KeyFree A w.store t (t.key v))
    | .now, t => ∃ k, w.tick ≤ k ∧ t = env.clock k
    | _, _ => True
  allows
    | .put t v => R t v ∧ ¬ Outside A t v ∧ KeyFree A w.store t (t.key v)
    | .del t k => KeyFree A w.store t k
    | .deleteDeployment id => KeyFree A w.store .deployment id
    | .replaceServiceEndpoints _ eps => ∀ e ∈ eps, R .endpoint e
    | _ => True

variable {R : (t : Tbl) → t.Val → Prop}

instance : HasReads (scopeRegime env w A R).allows where
  reads c hc := by
    cases c with
    | put | del | deleteDeployment | popAssignments | replaceServiceEndpoints => cases hc
    | _ => trivial

/-- The state of a request that keeps the regime. -/
structure InScope (w : World) (A : String) (R : (t : Tbl) → t.Val → Prop) (w' : World) : Prop where
  untouched : Untouched A w.store w'.store
  records : Records R w'.store
  tick : w.tick ≤ w'.tick

/-- A record that is not outside is put under a free key. -/
lemma Untouched.put (h : Untouched A st st')
    (hv : ¬ Outside A t v) (hk : KeyFree A st t (t.key v)) : Untouched A st (st'.put t v) := by
  intro t' u hu
  by_cases ht : t' = t
  · subst ht
    rw [Store.put, Store.set_self, Table.mem_rows_put, Tbl.key_viaJSON, ← h t' u hu]
    constructor
    · rintro (rfl | ⟨hmem, -⟩)
      · exact absurd (outside_viaJSON.mp hu) hv
      · exact hmem
    · exact fun hmem => Or.inr ⟨hmem, fun heq => hk u ((h t' u hu).mp hmem) heq hu⟩
  · rw [Store.put, Store.set_of_ne _ _ ht]
    exact h t' u hu

/-- What is under a free key is removed. -/
lemma Untouched.del (h : Untouched A st st') {k : String}
    (hk : KeyFree A st t k) : Untouched A st (st'.del t k) := by
  intro t' u hu
  by_cases ht : t' = t
  · subst ht
    rw [Store.del, Store.set_self, Table.mem_rows_del, ← h t' u hu]
    exact and_iff_left_of_imp fun hmem heq => hk u ((h t' u hu).mp hmem) heq hu
  · rw [Store.del, Store.set_of_ne _ _ ht]
    exact h t' u hu

lemma unowned (ht : ∀ v, recordNamespace t v = none) (hd : t ≠ .deployment) (v : t.Val) :
    ¬ Outside A t v := by
  cases t with
  | deployment => exact absurd rfl hd
  | _ =>
    rintro ⟨B, hB, -⟩
    rw [ht] at hB
    cases hB

/-- Records without an owner may be exchanged at will. -/
lemma Untouched.set (h : Untouched A st st') {T : Table t.Val t.key}
    (ht : ∀ v, recordNamespace t v = none) (hd : t ≠ .deployment) :
    Untouched A st (st'.set t T) := by
  intro t' u hu
  have hne : t' ≠ t := by
    rintro rfl
    exact unowned ht hd u hu
  rw [Store.set_of_ne _ _ hne]
  exact h t' u hu

lemma InScope.read {w' : World} (h : InScope w A R w')
    (hv : v ∈ (w'.store t).rows) : R t v ∧ (Outside A t v → v ∈ (w.store t).rows) ∧
      (¬ Outside A t v → KeyFree A w.store t (t.key v)) := by
  refine ⟨h.records t v hv, fun hout => (h.untouched t v hout).mp hv, fun hnot u hu hkey hout => ?_⟩
  -- what is outside is still there, and keys are unique
  have hu' := (h.untouched t u hout).mpr hu
  exact hnot (Table.eq_of_mem_of_key_eq hu' hv hkey ▸ hout)

def scopeTerms (w : World) (A : String) : Terms where
  ids k := KeyFree A w.store .deployment k
  spec spec := spec.nameSpace = A
  replica _ _ := True
  blueprint _ := True
  bounds _ _ := True

lemma not_outside_of_meets {d : Deployment} (h : (scopeTerms w A).Meets d.core) :
    ¬ Outside A .deployment d := by
  rintro (hspec | ⟨r, hr, hspec⟩)
  · exact hspec h.spec
  · exact hspec (h.history r hr)

lemma meets_of_not_outside {d : Deployment} {k : String} (hkey : d.id = k)
    (hk : KeyFree A w.store .deployment k) (h : ¬ Outside A .deployment d) :
    (scopeTerms w A).Meets d.core := by
  subst hkey
  refine ⟨hk, ?_, fun r hr => ?_⟩
  · exact not_not.mp fun hspec => h (Or.inl hspec)
  · exact not_not.mp fun hspec => h (Or.inr ⟨r, hr, hspec⟩)

/-- Records without an owner may be stored and removed. -/
lemma keyFree_of_unowned (ht : ∀ v, ¬ Outside A t v) (k : String) :
    KeyFree A st t k := fun v _ _ => ht v

lemma allows_unowned (ht : ∀ v, recordNamespace t v = none) (hd : t ≠ .deployment)
    (hv : R t v) : (scopeRegime env w A R).allows (.put t v) :=
  ⟨hv, unowned ht hd v, keyFree_of_unowned (unowned ht hd) _⟩

/-- The regime covers the functions on deployments, if the rule is about volumes only. -/
lemma covers_scope (env : Env) (w : World) (A : String) (hR : ∀ t v, t ≠ .volume → R t v) :
    Covers (scopeRegime env w A R) (scopeTerms w A) where
  common c hc := HasCommon.common c hc
  lookup _ := trivial
  found k d hk h := by
    obtain ⟨hkey, -, hout⟩ := h.1 d rfl
    exact meets_of_not_outside hkey hk fun hd => hk d (hout hd) hkey hd
  fetched _ _ _ := trivial
  listed _ _ _ _ _ := trivial
  normal _ h := h
  asked _ _ := trivial
  write d h := ⟨hR _ _ (by decide), not_outside_of_meets h, h.id⟩
  mark v _ := allows_unowned (fun _ => rfl) (by decide) (hR .workload v (by decide))
  evict _ := keyFree_of_unowned (unowned (fun _ => rfl) (by decide)) _
  reserve n := allows_unowned (fun _ => rfl) (by decide) (hR .node n (by decide))
  enqueue a := allows_unowned (fun _ => rfl) (by decide) (hR .assignment a (by decide))

/-- What `CreateDeployment` stores in `A`. -/
lemma admits_scope (hR : ∀ t v, t ≠ .volume → R t v) {spec : DeploymentSpec}
    (h : spec.withDefaults.nameSpace = A) :
    Admits (scopeRegime env w A R) (scopeTerms w A) spec := by
  have hcommon := (covers_scope env w A hR).hasCommon
  refine fun _ _ => Prog.Under.of_only (makes_admitSpec (fun ns => ?_) _) fun _ _ => h
  exact allows_unowned (fun _ => rfl) (by decide) (hR .nameSpace ns (by decide))

/-! ### Claims -/

/-- The claim is skipped by the loop that binds claims, or no volume is there for it. -/
def Unserved (st : Store) (c : PersistentVolumeClaim) : Prop :=
  (c.phase = .bound ∧ blank c.volumeName = false) ∨
    ∀ v ∈ (st .volume).rows, volumeMatches c v = false

/-- In the course of the loop no volume becomes available. -/
def volumeRule (st : Store) : (t : Tbl) → t.Val → Prop
  | .volume, v => v ∈ (st .volume).rows ∨ PersistentVolume.phase v ≠ .available
  | _, _ => True

lemma volumeRule_free (t : Tbl) (v : t.Val) (ht : t ≠ .volume) :
    volumeRule st t v := by
  cases t with
  | volume => exact absurd rfl ht
  | _ => trivial

/-- The loop binds claims of `A` only, if those of other namespaces are unserved. -/
lemma bindClaim_scope (h : ∀ c ∈ (w.store .claim).rows, PersistentVolumeClaim.nameSpace c ≠ A →
      Unserved w.store c) {pvs : List PersistentVolume}
    (hpvs : ∀ v ∈ pvs, volumeRule w.store .volume v) {c : PersistentVolumeClaim}
    (hout : Outside A .claim c → c ∈ (w.store .claim).rows)
    (hfree : ¬ Outside A .claim c → KeyFree A w.store .claim (Tbl.key .claim c)) :
    Obeys (scopeRegime env w A (volumeRule w.store)) (bindClaim pvs c) := by
  have hcovers := covers_scope env w A (R := volumeRule w.store) volumeRule_free
  refine Prog.Under.ite (fun _ => trivial) fun hsettled => ?_
  cases hfind : pvs.find? (volumeMatches c) with
  | none => trivial
  | some pv =>
    have hmatch : volumeMatches c pv = true := List.find?_some hfind
    have hin : ¬ Outside A .claim c := by
      rintro hc
      obtain ⟨B, hB, hne⟩ := hc
      cases hB
      rcases h c (hout ⟨_, rfl, hne⟩) hne with hset | hnone
      · exact hsettled hset
      · rcases hpvs pv (List.mem_of_find?_eq_some hfind) with hpv | hpv
        · rw [hnone pv hpv] at hmatch
          cases hmatch
        · simp [volumeMatches, hpv] at hmatch
    refine Obeys.bind ?_ fun _ => (hcovers.orNow _).bind fun _ => hcovers.now_bind fun _ =>
      Obeys.call ⟨trivial, hin, hfree hin⟩
    refine (hcovers.orNow _).bind fun _ => hcovers.now_bind fun _ => Obeys.call ?_
    have hbound : PersistentVolumePhase.bound ≠ .available := by decide
    exact allows_unowned (fun _ => rfl) (by decide) (Or.inr hbound)

lemma reconcilePVCBindings_scope
    (h : ∀ c ∈ (w.store .claim).rows, PersistentVolumeClaim.nameSpace c ≠ A → Unserved w.store c) :
    Obeys (scopeRegime env w A (volumeRule w.store)) reconcilePVCBindings := by
  have hlist : ∀ ns, (StateStore.listPersistentVolumeClaims ns).Under
      (scopeRegime env w A (volumeRule w.store)) fun l => ∀ c ∈ l,
        (Outside A .claim c → c ∈ (w.store .claim).rows) ∧
        (¬ Outside A .claim c → KeyFree A w.store .claim (Tbl.key .claim c)) :=
    fun ns => Prog.Under.issue trivial fun l hl c hc => (hl c hc).2
  refine under_ask_bind (c := .list .volume "") trivial fun pvs hpvs =>
    (hlist _).bind fun first hfirst =>
    under_ask_bind (c := .list .nameSpace "") trivial fun namespaces _ =>
    (Prog.Under.mapEach fun ns _ => hlist _).bind fun rest hrest =>
    Prog.Under.forEach fun c hc => ?_
  obtain ⟨hout, hfree⟩ := CoversPass.mem_lists hfirst hrest c hc
  exact bindClaim_scope h (fun v hv => (hpvs v (mem_sortStable.mp hv)).1) hout hfree

/-! ### Reports -/

/-- Workloads keep their deployments. -/
def workloadRule (st : Store) : (t : Tbl) → t.Val → Prop
  | .workload, v => ∃ u ∈ (st .workload).rows, Workload.id u = Workload.id v ∧
      u.deploymentID = v.deploymentID
  | _, _ => True

/-- The report of a termination touches the deployment of the workload. -/
lemma reportTerminated_scope {v : Workload}
    (hv : KeyFree A w.store .deployment v.deploymentID) :
    Obeys (scopeRegime env w A (workloadRule w.store)) (reportTerminated v) := by
  refine Obeys.bind (.of_makes ?_) fun _ => Obeys.bind (Obeys.call ?_) fun _ => ?_
  · exact makes_releaseReservation (fun n => allows_unowned (fun _ => rfl) (by decide) trivial) v
  · exact keyFree_of_unowned (unowned (fun _ => rfl) (by decide)) _
  · refine Prog.Under.attempt_bind (under_find trivial) (fun d hd => ?_) fun _ => Obeys.pure ()
    obtain ⟨hkey, -, hout⟩ := hd.1 d rfl
    have hmeets : (scopeTerms w A).Meets d.core :=
      meets_of_not_outside hkey hv fun hd => hv d (hout hd) hkey hd
    refine (Obeys.of_makes (Makes.deployed _)).bind fun l => Prog.Under.ite (fun _ => ?_) fun _ =>
      Obeys.pure ()
    have hsettled : (settledStatus d l).Under (scopeRegime env w A (workloadRule w.store))
        fun d' => d'.core = d.core := by
      refine Prog.Under.of_only ((keepsCore_settledStatus d l).weaken fun c hc =>
        HasCommon.common c (Call.common_of_oracle hc)) ?_
      rintro d' ⟨_, ⟨⟩, hd'⟩
      exact hd'
    refine hsettled.bind fun d' hd' => (Obeys.call ?_).ignore
    have hmeets' : (scopeTerms w A).Meets d'.core := hd' ▸ hmeets
    exact ⟨trivial, not_outside_of_meets hmeets', hmeets'.id⟩

/-! ### Operations -/

/-- What the operation acts on is in the namespace: the record that it brings, the records that are
stored under the key of that record or are named in the path, and the claims that are waiting for
volumes.  A recovery acts on all namespaces. -/
def Operation.StaysIn (env : Env) (w : World) (A : String) : Operation → Prop
  | createDeployment spec => spec.withDefaults.nameSpace = A
  | updateDeployment id next => KeyFree A w.store .deployment id ∧ next.nameSpace = A
  | rollbackDeployment id _ => KeyFree A w.store .deployment id
  | deleteDeployment id => KeyFree A w.store .deployment id
  | report id status _ => status = .terminated → ∀ v ∈ (w.store .workload).rows,
      Workload.id v = id → KeyFree A w.store .deployment v.deploymentID
  | createService spec => orDefault spec.nameSpace = A
  | upsertSecret v => orDefault v.nameSpace = A ∧
      KeyFree A w.store .secret (keySecret (orDefault v.nameSpace) v.name)
  | upsertNetworkPolicy p => orDefault p.nameSpace = A ∧
      KeyFree A w.store .networkPolicy (keyNetworkPolicy (orDefault p.nameSpace) p.name)
  | upsertClaim c => c.home = A ∧
      KeyFree A w.store .claim (keyPersistentVolumeClaim c.home c.name) ∧
      ∀ c' ∈ (w.store .claim).rows, PersistentVolumeClaim.nameSpace c' ≠ A → Unserved w.store c'
  | upsertJob j => orDefault j.spec.nameSpace = A ∧
      if blank j.id then ∀ k, w.tick ≤ k → KeyFree A w.store .job (jobID (env.clock k))
      else KeyFree A w.store .job j.id
  | upsertCronJob c => orDefault c.nameSpace = A ∧
      KeyFree A w.store .cronJob (keyCronJob (orDefault c.nameSpace) c.name)
  | recover => False
  | registerNode _ | drainNode _ | removeNode _ | heartbeat _ _ | poll _ _ | upsertPolicy _
  | deletePolicy _ | ingestMetric _ | createNamespace _ | upsertQuota _ | upsertVolume _
  | upsertRoleBinding _ => True

/-- A record of `A` may be put under a free key. -/
lemma allows_owned (hd : t ≠ .deployment) (hv : R t v)
    (hns : recordNamespace t v = some A) (hk : KeyFree A w.store t (t.key v)) :
    (scopeRegime env w A R).allows (.put t v) := by
  refine ⟨hv, ?_, hk⟩
  cases t with
  | deployment => exact absurd rfl hd
  | _ =>
    rintro ⟨B, hB, hne⟩
    exact hne (Option.some.inj (hB.symm.trans hns))

/-- The rule about records that an operation goes by. -/
def Operation.rule (st : Store) : Operation → (t : Tbl) → t.Val → Prop
  | upsertClaim _ => volumeRule st
  | report _ .terminated _ => workloadRule st
  | _ => fun _ _ => True

/-- **An operation that stays in `A` leaves the records of other namespaces alone.** -/
lemma Operation.StaysIn.obeys {op : Operation} (h : op.StaysIn env w A) :
    Obeys (scopeRegime env w A (op.rule w.store)) (op.program s) := by
  have hfree : ∀ (t : Tbl) (_ : t.Val), t ≠ .volume → True := fun _ _ _ => trivial
  have hc := covers_scope env w A (R := fun _ _ => True) hfree
  have hput : ∀ (t : Tbl) (v : t.Val), (∀ v, recordNamespace t v = none) → t ≠ .deployment →
      (scopeRegime env w A fun _ _ => True).allows (.put t v) :=
    fun t v ht hd => allows_unowned ht hd trivial
  have hns : ∀ ns : Namespace, (scopeRegime env w A fun _ _ => True).allows (.put .nameSpace ns) :=
    fun ns => hput .nameSpace ns (fun _ => rfl) (by decide)
  cases op with
  | registerNode node => exact (hc.registerNode node).ignore
  | drainNode id => exact (hc.drainNode id).ignore
  | removeNode id => exact (hc.removeNode id).ignore
  | heartbeat id used => exact (hc.heartbeatNode id used).ignore
  | poll nodeID max => exact (Obeys.call trivial).ignore
  | report id status containerID =>
    cases status with
    | terminated =>
      refine Obeys.ignore (Prog.Under.attempt_bind (under_find trivial) (fun v hv => ?_) ?_)
      · obtain ⟨hkey, ⟨u, hu, hid, hdep⟩, -⟩ := hv.1 v rfl
        exact reportTerminated_scope (hdep ▸ h rfl u hu (hid.trans hkey))
      · rintro (_ | _ | _ | _) <;> trivial
    | _ => exact (hc.reportWorkloadStatus containerID (by rintro v ⟨⟩)).ignore
  | createDeployment spec =>
    exact (hc.createDeployment (admits_scope hfree h) fun k hk => hk.2 rfl).ignore
  | updateDeployment id next => exact (hc.updateSpec h.1 fun _ _ => h.2).ignore
  | rollbackDeployment id rev => exact (hc.rollbackDeployment h rev).ignore
  | deleteDeployment id => exact (hc.deleteDeployment h).ignore
  | upsertPolicy p =>
    exact (hc.upsertPolicy fun q _ _ => hput .policy q (fun _ => rfl) (by decide)).ignore
  | deletePolicy id =>
    exact (Obeys.call (keyFree_of_unowned (unowned (fun _ => rfl) (by decide)) _)).ignore
  | ingestMetric sample =>
    exact (hc.ingestMetric (fun m => hput .metric m (fun _ => rfl) (by decide)) sample).ignore
  | createService spec =>
    refine (hc.createService hns (fun _ _ _ _ => trivial) fun svc hsvc hnone => ?_).ignore
    exact allows_owned (by decide) trivial (congrArg some (hsvc.trans h)) (hnone.2 rfl)
  | createNamespace ns => exact (hc.createNamespace hns ns).ignore
  | upsertQuota q =>
    exact (hc.upsertQuota hns (fun q => hput .quota q (fun _ => rfl) (by decide)) q).ignore
  | upsertSecret v =>
    refine (hc.upsertSecret hns fun u hu hname => ?_).ignore
    refine allows_owned (by decide) trivial (congrArg some (hu.trans h.1)) ?_
    change KeyFree A w.store .secret (keySecret u.nameSpace u.name)
    rw [hu, hname]
    exact h.2
  | upsertVolume v =>
    exact (hc.upsertVolume (fun v => hput .volume v (fun _ => rfl) (by decide)) v).ignore
  | upsertClaim c =>
    obtain ⟨hhome, hkey, hserved⟩ := h
    have hvol := covers_scope env w A (R := volumeRule w.store) volumeRule_free
    refine (hvol.upsertClaim (fun ns => ?_) (fun c' hc' hname => ?_)
      (reconcilePVCBindings_scope hserved)).ignore
    · exact allows_unowned (fun _ => rfl) (by decide) trivial
    · refine allows_owned (by decide) trivial (congrArg some (hc'.trans hhome)) ?_
      change KeyFree A w.store .claim (keyPersistentVolumeClaim c'.nameSpace c'.name)
      rw [hc', hname]
      exact hkey
  | upsertNetworkPolicy p =>
    refine (hc.upsertNetworkPolicy hns fun q hq hname => ?_).ignore
    refine allows_owned (by decide) trivial (congrArg some (hq.trans h.1)) ?_
    change KeyFree A w.store .networkPolicy (keyNetworkPolicy q.nameSpace q.name)
    rw [hq, hname]
    exact h.2
  | upsertJob j =>
    refine (hc.upsertJob fun q _ hq hid => ?_).ignore
    refine allows_owned (by decide) trivial (congrArg some (hq.trans h.1)) ?_
    change KeyFree A w.store .job q.id
    have hkey := h.2
    split at hkey
    · next hblank =>
      rw [if_pos hblank] at hid
      obtain ⟨t, ⟨k, hk, rfl⟩, hid⟩ := hid
      rw [hid]
      exact hkey k hk
    · next hblank =>
      rw [if_neg hblank] at hid
      rw [hid]
      exact hkey
  | upsertCronJob c =>
    refine (hc.upsertCronJob fun q hq hname _ => ?_).ignore
    refine allows_owned (by decide) trivial (congrArg some (hq.trans h.1)) ?_
    change KeyFree A w.store .cronJob (keyCronJob q.nameSpace q.name)
    rw [hq, hname]
    exact h.2
  | upsertRoleBinding b =>
    exact (hc.upsertRoleBinding fun c _ _ _ _ _ =>
      hput .roleBinding c (fun _ => rfl) (by decide)).ignore
  | recover => exact h.elim

end Orchestrator
