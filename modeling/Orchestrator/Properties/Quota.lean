/-
# Is a namespace quota an invariant?

Only `CreateDeployment` looks at the quota of a namespace: it reads the quota, lists the
deployments, checks, and later stores the new record.  The other operations that write
deployments (updates, rollbacks, passes, the autoscaler) do not check anything.  The quota is
kept in every run of concurrent operations in which those writes do not raise what a
deployment counts for, and a new deployment is stored while the listing that its check was
made on is still right.
-/
import Orchestrator.Logic.Clients
import Orchestrator.System

namespace Orchestrator

open Lib

variable {N : String} {q : NamespaceQuota} {T : Table Deployment Deployment.id}
  {f : Deployment → ℤ} {d e : Deployment}

/-! ### What the deployments of a namespace use -/

/-- The deployment is in the namespace, after trimming. -/
def Deployment.inNamespace (N : String) (d : Deployment) : Bool :=
  decide (trimSpace d.spec.nameSpace = N)

/-- `Replicas * MilliCPU`, without overflow. -/
def Deployment.cpuDemand (d : Deployment) : ℤ :=
  d.spec.replicas.toInt * d.spec.resources.milliCPU.toInt

/-- `Replicas * MemoryMB`, without overflow. -/
def Deployment.memDemand (d : Deployment) : ℤ :=
  d.spec.replicas.toInt * d.spec.resources.memoryMB.toInt

/-- The deployments of the namespace. -/
def deploymentsIn (N : String) (T : Table Deployment Deployment.id) : List Deployment :=
  T.rows.filter (Deployment.inNamespace N)

/-- The sum of a quantity over the deployments of the namespace. -/
def totalIn (N : String) (f : Deployment → ℤ) (T : Table Deployment Deployment.id) : ℤ :=
  ((deploymentsIn N T).map f).sum

/-- The deployments of the namespace are within the quota. -/
structure WithinQuota (q : NamespaceQuota) (N : String) (T : Table Deployment Deployment.id) :
    Prop where
  count : 0 < q.maxDeployments → ((deploymentsIn N T).length : ℤ) ≤ q.maxDeployments
  cpu : 0 < q.maxMilliCPU → totalIn N Deployment.cpuDemand T ≤ q.maxMilliCPU.toInt
  mem : 0 < q.maxMemoryMB → totalIn N Deployment.memDemand T ≤ q.maxMemoryMB.toInt

/-- What a record counts for in the namespace. -/
def Deployment.share (N : String) (f : Deployment → ℤ) (d : Deployment) : ℤ :=
  if d.inNamespace N then f d else 0

/-- What the record under a key counts for. -/
def shareOf (N : String) (f : Deployment → ℤ) (T : Table Deployment Deployment.id) (k : String) :
    ℤ :=
  ((T.get k).map (Deployment.share N f)).getD 0

lemma shareOf_none {k : String} (h : T.get k = none) : shareOf N f T k = 0 := by
  rw [shareOf, h]
  rfl

lemma sum_filter_share (l : List Deployment) :
    ((l.filter (Deployment.inNamespace N)).map f).sum = (l.map (Deployment.share N f)).sum := by
  induction l with
  | nil => rfl
  | cons d l ih =>
    rw [List.filter_cons, List.map_cons, List.sum_cons, ← ih, Deployment.share]
    split
    · rw [List.map_cons, List.sum_cons]
    · rw [zero_add]

lemma totalIn_eq : totalIn N f T = (T.rows.map (Deployment.share N f)).sum := sum_filter_share _

lemma length_eq_totalIn : ((deploymentsIn N T).length : ℤ) = totalIn N (fun _ => 1) T := by
  rw [totalIn, List.map_const', List.sum_replicate, nsmul_eq_mul, mul_one]

lemma totalIn_del (k : String) : totalIn N f T = shareOf N f T k + totalIn N f (T.del k) := by
  rw [totalIn_eq, totalIn_eq, shareOf]
  cases hk : T.get k with
  | none => rw [Table.del_of_get_none hk]; simp
  | some d => rw [((Table.perm_of_get hk).map _).sum_eq, List.map_cons, List.sum_cons]; rfl

/-- A write replaces what the record counts for. -/
lemma totalIn_put : totalIn N f (T.put d) = totalIn N f T - shareOf N f T d.id + d.share N f := by
  have hput : totalIn N f (T.put d) = d.share N f + totalIn N f (T.del d.id) := by
    rw [totalIn_eq, totalIn_eq, ((T.perm_put d).map _).sum_eq, List.map_cons, List.sum_cons]
  rw [hput, totalIn_del (T := T) d.id]
  ring

/-! ### The check -/

/-- The check of `enforceNamespaceQuota` lets the specification pass. -/
def NamespaceQuota.Admits (q : NamespaceQuota) (spec : DeploymentSpec) (deps : List Deployment) :
    Prop :=
  let usage := namespaceUsage spec.nameSpace deps
  ¬ (q.maxDeployments > 0 ∧ usage.1 + 1 > q.maxDeployments) ∧
  ¬ (q.maxMilliCPU > 0 ∧ usage.2.1 + spec.replicas * spec.resources.milliCPU > q.maxMilliCPU) ∧
  ¬ (q.maxMemoryMB > 0 ∧ usage.2.2 + spec.replicas * spec.resources.memoryMB > q.maxMemoryMB)

/-- Nothing is limited. -/
def NamespaceQuota.Unlimited (q : NamespaceQuota) : Prop :=
  q.maxDeployments = 0 ∧ q.maxMilliCPU = 0 ∧ q.maxMemoryMB = 0

/-- The 64-bit sum of products over a list. -/
lemma foldl_toInt (g : Deployment → Int64) (l : List Deployment) (a : Int64) :
    (l.foldl (fun acc d => acc + d.spec.replicas * g d) a).toInt =
      (a.toInt + (l.map fun d => d.spec.replicas.toInt * (g d).toInt).sum).bmod (2 ^ 64) := by
  induction l generalizing a with
  | nil => simp
  | cons d l ih =>
    rw [List.foldl_cons, ih, List.map_cons, List.sum_cons, Int64.toInt_add, Int64.toInt_mul,
      Int.add_bmod_bmod, Int.bmod_add_bmod, add_assoc]

/-- The sum that the check compares with the limit is the true one, if that is in range. -/
lemma checked_toInt (g : Deployment → Int64) (l : List Deployment) (r m : Int64) {x : ℤ}
    (hx : (l.map fun d => d.spec.replicas.toInt * (g d).toInt).sum + r.toInt * m.toInt = x)
    (hlo : -2 ^ 63 ≤ x) (hhi : x < 2 ^ 63) :
    (l.foldl (fun acc d => acc + d.spec.replicas * g d) 0 + r * m).toInt = x := by
  rw [Int64.toInt_add, foldl_toInt, Int64.toInt_mul, Int.bmod_add_bmod, Int.add_bmod_bmod,
    Int64.toInt_zero, zero_add, hx]
  exact Int.bmod_eq_of_le (by omega) (by omega)

/-- The true sums with the new deployment are in the range of the 64-bit sums. -/
def InRange (N : String) (T : Table Deployment Deployment.id) (d : Deployment) : Prop :=
  (-2 ^ 63 ≤ totalIn N Deployment.cpuDemand T + d.cpuDemand ∧
    totalIn N Deployment.cpuDemand T + d.cpuDemand < 2 ^ 63) ∧
  (-2 ^ 63 ≤ totalIn N Deployment.memDemand T + d.memDemand ∧
    totalIn N Deployment.memDemand T + d.memDemand < 2 ^ 63)

/-- A new deployment that passes the check, made on what is stored, fits in. -/
lemma NamespaceQuota.Admits.within {deps : List Deployment} (h : q.Admits d.spec deps)
    (hns : d.spec.nameSpace = N)
    (hlisted : (deps.filter fun e => e.spec.nameSpace = N) = deploymentsIn N T)
    (hnew : T.get d.id = none) (hrange : InRange N T d) (hN : d.inNamespace N = true) :
    WithinQuota q N (T.put d) := by
  have htotal : ∀ f, totalIn N f (T.put d) = totalIn N f T + f d := by
    intro f
    rw [totalIn_put, shareOf_none hnew, Deployment.share, if_pos hN, sub_zero]
  obtain ⟨hcount, hcpu, hmem⟩ := h
  simp only [namespaceUsage, hns, hlisted, gt_iff_lt, not_and, not_lt] at hcount hcpu hmem
  refine ⟨fun hmax => ?_, fun hmax => ?_, fun hmax => ?_⟩
  · rw [length_eq_totalIn, htotal, ← length_eq_totalIn]
    exact hcount hmax
  · have hle := Int64.le_iff_toInt_le.mp (Int64.not_lt.mp (hcpu hmax))
    rw [checked_toInt _ _ _ _ rfl hrange.1.1 hrange.1.2] at hle
    rw [htotal]
    exact hle
  · have hle := Int64.le_iff_toInt_le.mp (Int64.not_lt.mp (hmem hmax))
    rw [checked_toInt _ _ _ _ rfl hrange.2.1 hrange.2.2] at hle
    rw [htotal]
    exact hle

/-- A write that does not raise what the record counts for. -/
lemma WithinQuota.put (h : WithinQuota q N T)
    (hcount : d.share N (fun _ => 1) ≤ shareOf N (fun _ => 1) T d.id)
    (hcpu : d.share N Deployment.cpuDemand ≤ shareOf N Deployment.cpuDemand T d.id)
    (hmem : d.share N Deployment.memDemand ≤ shareOf N Deployment.memDemand T d.id) :
    WithinQuota q N (T.put d) := by
  have hle : ∀ {f}, d.share N f ≤ shareOf N f T d.id → totalIn N f (T.put d) ≤ totalIn N f T := by
    intro f hf
    rw [totalIn_put]
    linarith
  refine ⟨fun hmax => ?_, fun hmax => (hle hcpu).trans (h.cpu hmax),
    fun hmax => (hle hmem).trans (h.mem hmax)⟩
  have hbound := h.count hmax
  rw [length_eq_totalIn] at hbound ⊢
  exact (hle hcount).trans hbound

lemma NamespaceQuota.Unlimited.within (h : q.Unlimited) : WithinQuota q N T where
  count hmax := absurd hmax (by rw [h.1]; decide)
  cpu hmax := absurd hmax (by rw [h.2.1]; decide)
  mem hmax := absurd hmax (by rw [h.2.2]; decide)

/-! ### What a thread has checked -/

/-- What a thread has read that matters for a quota. -/
structure Audit where
  /-- The last lookup of a quota, and its answer. -/
  quota : Option (String × Option NamespaceQuota) := none
  /-- The last listing of the deployments. -/
  listed : List Deployment := []
  /-- The id under which the thread has just found no deployment. -/
  fresh : Option String := none

def Audit.note : (c : Call) → c.Res → Audit → Audit
  | .get .quota ns, a, l => { l with quota := some (ns, a), fresh := none }
  | .get .deployment k, a, l => { l with fresh := if a.isNone then some k else none }
  | .list .deployment _, a, l => { l with listed := a, fresh := none }
  | _, _, l => { l with fresh := none }

/-- The thread has looked up the quota of the specification's namespace, and if there is one,
the check on its last listing lets the specification pass. -/
def Audit.Cleared (l : Audit) (spec : DeploymentSpec) : Prop :=
  ∃ a, l.quota = some (spec.nameSpace, a) ∧
    ∀ q, a = some q → q.Unlimited ∨ q.Admits spec l.listed

/-- A thread stores a deployment right after it has found the id unused only if it has checked
the quota, and it removes no deployment and changes no quota. -/
def audit : Protocol Call.Res Audit where
  note := Audit.note
  allows l
    | .put .deployment d => l.fresh = some d.id → l.Cleared d.spec
    | c => c.writes .deployment = false ∧ c.writes .quota = false
  answers _ _ _ := True

variable {α β : Type} {l : Audit} {o : Config}

/-- The program follows the protocol, whatever the thread has read before. -/
abbrev Audited (p : M α) : Prop := ∀ l, audit.Follows p l fun _ _ => True

lemma audit_allows {c : Call} (hd : c.writes .deployment = false) (hq : c.writes .quota = false) :
    audit.allows l c := by
  cases c with
  | put t v => cases t <;> first | exact ⟨hd, hq⟩ | cases hd
  | _ => exact ⟨hd, hq⟩

namespace Audited

lemma bind {p : M α} {f : α → M β} (hp : Audited p) (hf : ∀ a, Audited (f a)) :
    Audited (p >>= f) := fun l => (hp l).bind (fun a l _ => hf a l) fun _ _ _ => trivial

lemma attempt_bind {p : M α} {f : Except Err α → M β} (hp : Audited p) (hf : ∀ r, Audited (f r)) :
    Audited (p.attempt >>= f) := fun l => (hp l).attempt_bind fun r l _ => hf r l

lemma modality : Prog.Modality fun _ p => Audited p where
  pure _ _ := trivial
  bind := bind
  fail _ _ := trivial
  attempt hp l := (hp l).attempt

/-- A program that writes neither deployments nor quotas. -/
lemma of_writesIn {T : List Tbl} {p : M α} (h : WritesIn T p) (hd : .deployment ∉ T)
    (hq : .quota ∉ T) : Audited p := by
  intro l
  refine (Protocol.Follows.of_only (I := fun _ => True) ?_ h trivial).mono fun _ _ _ => trivial
  exact fun c l hc _ => ⟨audit_allows (hc _ hd) (hc _ hq), fun _ _ => trivial⟩

lemma of_reads {p : M α} (h : WritesIn [] p) : Audited p := of_writesIn h (by simp) (by simp)

lemma withLock {p : M α} (hp : Audited p) : Audited (Orchestrator.withLock p) :=
  .bind (of_reads (.call fun _ _ => rfl)) fun _ => .attempt_bind hp fun _ =>
    .bind (of_reads (.call fun _ _ => rfl)) fun _ _ => trivial

end Audited

/-- The calls that do not look up deployments, remove none, and change no quota. -/
def Call.Settled : Call → Prop
  | .get .deployment _ => False
  | .put .deployment _ => True
  | c => c.writes .deployment = false ∧ c.writes .quota = false

lemma Call.Settled.allows {c : Call} (hc : c.Settled) (hl : l.fresh = none) : audit.allows l c := by
  cases c with
  | put t v =>
    cases t with
    | deployment =>
      intro h
      rw [hl] at h
      cases h
    | _ => exact hc
  | get t k => exact audit_allows rfl rfl
  | _ => exact hc

lemma Call.Settled.fresh {c : Call} (hc : c.Settled) (a : c.Res) : (Audit.note c a l).fresh = none := by
  cases c with
  | get t k => cases t <;> first | rfl | exact hc.elim
  | list t k => cases t <;> rfl
  | _ => rfl

/-- A program that looks up no deployment stores none that it has just found unused. -/
lemma settled_follows {p : M α} (hp : Makes Call.Settled p) (hl : l.fresh = none) :
    audit.Follows p l fun _ _ => True :=
  (Protocol.Follows.of_only (I := fun l => l.fresh = none)
    (fun _ _ hc hl => ⟨hc.allows hl, fun a _ => hc.fresh a⟩) hp hl).mono fun _ _ _ => trivial

/-! ### The operations -/

instance Call.Settled.hasCommon : HasCommon Call.Settled where
  common c hc := by
    cases c with
    | get t k => cases t <;> first | exact ⟨rfl, rfl⟩ | cases hc
    | _ => first | exact ⟨rfl, rfl⟩ | cases hc

instance Call.Settled.passCalls (k : String) : PassCalls k Call.Settled where
  mark _ _ := ⟨rfl, rfl⟩
  delete _ _ := ⟨rfl, rfl⟩
  write _ _ := trivial

instance Call.Settled.placementCalls : PlacementCalls Call.Settled where
  reserve _ := ⟨rfl, rfl⟩
  evict _ := ⟨rfl, rfl⟩
  place _ _ := ⟨rfl, rfl⟩
  create _ := ⟨rfl, rfl⟩

/-- A record that has been looked up is written back. -/
lemma found_follows {k : String} {g : Except Err Deployment → M β}
    (hok : ∀ d, Makes Call.Settled (g (.ok d))) (herr : ∀ e, Audited (g (.error e))) :
    Audited ((StateStore.getDeployment k).attempt >>= g) := by
  intro l
  refine ⟨audit_allows rfl rfl, fun a _ => ?_⟩
  cases a with
  | some d => exact settled_follows (hok d) rfl
  | none => exact herr _ _

lemma audited_found {k : String} {g : Deployment → M β} (hg : ∀ d, Makes Call.Settled (g d)) :
    Audited (StateStore.getDeployment k >>= g) := by
  intro l
  refine ⟨audit_allows rfl rfl, fun a _ => ?_⟩
  cases a with
  | some d => exact settled_follows (hg d) rfl
  | none => trivial

lemma audited_deleteDeployment (k : String) : Audited (deleteDeployment k) :=
  .withLock (audited_found fun _ => .now fun _ => .call trivial)

lemma audited_updateDeployment (k : String) (next : DeploymentSpec) :
    Audited (updateDeployment k next) := by
  refine .withLock (audited_found fun dep => .now fun _ =>
    .now fun _ => .now fun _ => .bind ?_ fun _ =>
    .now fun _ => .bind (.call trivial) fun _ => trivial)
  split
  · exact .now fun _ => trivial
  · trivial

lemma audited_rollbackDeployment (k : String) (revision : ℤ) :
    Audited (rollbackDeployment k revision) := by
  refine .withLock (audited_found fun dep => ?_)
  split
  · trivial
  dsimp only
  split
  · trivial
  · exact .now fun _ => .now fun _ =>
      .now fun _ => .now fun _ =>
      .now fun _ => .bind (.call trivial) fun _ => trivial

lemma audited_reconcileDeployment (k : String) : Audited (reconcileDeployment o k) := by
  refine .withLock (audited_found fun dep => .bind (makes_progressDeadline _) ?_)
  rintro (_ | _)
  · exact makes_reconcileReplicas (k := dep.prepared.id) rfl
  · exact makes_failRollout (k := dep.prepared.id) rfl

lemma audited_reconcileAutoscaling : Audited (reconcileAutoscaling o) := by
  refine .bind (.of_reads (.call fun _ _ => rfl)) fun _ =>
    .bind (.of_reads (.call fun _ _ => rfl)) fun now =>
    Audited.modality.forEach fun p _ => ?_
  refine found_follows (fun dep => ?_) fun _ _ => trivial
  have hlist : Makes Call.Settled (StateStore.listDeploymentMetrics dep.id 200) :=
    .ask_bind rfl fun _ => trivial
  refine .bind hlist fun samples => ?_
  dsimp only
  split
  · trivial
  · exact .bind (.call trivial) fun _ => .bind (.orNow _) fun _ => .call ⟨rfl, rfl⟩

/-- What `enforceNamespaceQuota` checks before it lets a specification pass. -/
lemma enforceNamespaceQuota_follows (spec : DeploymentSpec) :
    audit.Follows (enforceNamespaceQuota spec) l fun r l => r = .ok () → l.Cleared spec := by
  refine ⟨audit_allows rfl rfl, fun a _ => ?_⟩
  cases a with
  | none => exact fun _ => ⟨none, rfl, nofun⟩
  | some q =>
    change audit.Follows (if q.maxDeployments = 0 ∧ q.maxMilliCPU = 0 ∧ q.maxMemoryMB = 0 then pure ()
      else _) _ _
    split
    · next h =>
      refine fun _ => ⟨some q, rfl, ?_⟩
      rintro _ ⟨⟩
      exact .inl h
    · refine ⟨audit_allows rfl rfl, fun deps _ => ?_⟩
      change audit.Follows (checkQuota q spec deps) _ _
      unfold checkQuota
      dsimp only
      split
      · exact nofun
      split
      · exact nofun
      split
      · exact nofun
      next hcount hcpu hmem =>
        refine fun _ => ⟨some q, rfl, ?_⟩
        rintro _ ⟨⟩
        exact .inr ⟨hcount, hcpu, hmem⟩

lemma admitSpec_follows (spec : DeploymentSpec) :
    audit.Follows (admitSpec spec) l fun r l => r = .ok () → l.Cleared spec := by
  have hquiet : ∀ {p : M Unit} {f : Unit → M Unit}, WritesIn [.nameSpace] p →
      (∀ l, audit.Follows (f ()) l fun r l => r = .ok () → l.Cleared spec) →
      ∀ l, audit.Follows (p >>= f) l fun r l => r = .ok () → l.Cleared spec := fun hp hf l =>
    (Audited.of_writesIn hp (by decide) (by decide) l).bind (fun _ l _ => hf l)
      (by rintro _ _ _ ⟨⟩)
  exact hquiet makes_runAdmissionCheck (hquiet (ensureNamespaceExists_writesIn _)
    (hquiet (makes_checkVolumeClaims _ _) fun _ => enforceNamespaceQuota_follows spec)) l

lemma audited_createDeployment (spec : DeploymentSpec) : Audited (createDeployment o spec) := by
  intro l
  unfold createDeployment
  split
  · trivial
  split
  · trivial
  refine (admitSpec_follows _).bind ?_ fun _ _ _ => trivial
  intro _ l₁ hclear
  have hclear' := hclear rfl
  refine ⟨audit_allows rfl rfl, fun now _ => ⟨audit_allows rfl rfl, fun r _ => ?_⟩⟩
  -- the id is found unused, and the record is stored
  refine ⟨audit_allows rfl rfl, fun found _ => ?_⟩
  cases found with
  | some d => trivial
  | none =>
    refine ⟨fun _ => hclear', fun _ _ => ?_⟩
    refine (audited_reconcileDeployment _ _).bind (fun _ l₂ _ => ?_) fun _ _ _ => trivial
    -- the record is written back after the clock has been read
    refine ⟨audit_allows rfl rfl, fun t _ => settled_follows ?_ rfl⟩
    exact ⟨⟨rfl, rfl⟩, fun _ => ⟨⟨rfl, rfl⟩, fun _ => ⟨trivial, fun _ => trivial⟩⟩⟩

lemma audited_reconcileJob (now : Time) (job : Job) : Audited (reconcileJob o now job) :=
  reconcileJob_of Audited.modality (audited_createDeployment _)
    (fun j _ => .of_writesIn (storeJob_writesIn j) (by decide) (by decide)) (.of_reads (.deployed _))
    audited_deleteDeployment
    (.of_writesIn (T := [.job]) (.call (Call.writesIn_del (by decide))) (by decide) (by decide))

lemma audited_reconcileJobsAndCron : Audited (reconcileJobsAndCron o) :=
  reconcileJobsAndCron_of Audited.modality (fun hp => .of_reads (hp.weaken HasModest.modest))
    (fun now _ => .of_writesIn (T := [.job, .cronJob]) (makes_runCronJob now
      (fun _ _ => Call.writesIn_put (by decide)) fun _ _ => Call.writesIn_put (by decide))
      (by decide) (by decide)) audited_reconcileJob

/-! ### Runs -/

/-- The operations that run concurrently. -/
inductive QuotaOp
  | create (spec : DeploymentSpec)
  | update (id : String) (next : DeploymentSpec)
  | rollback (id : String) (revision : ℤ)
  | autoscale
  | jobs

/-- The program of an operation, without the record that it returns. -/
def QuotaOp.program (o : Config) : QuotaOp → M Unit
  | create spec => createDeployment o spec >>= fun _ => pure ()
  | update id next => updateDeployment id next >>= fun _ => pure ()
  | rollback id revision => rollbackDeployment id revision >>= fun _ => pure ()
  | autoscale => reconcileAutoscaling o
  | jobs => reconcileJobsAndCron o

lemma QuotaOp.audited (op : QuotaOp) : Audited (op.program o) := by
  cases op with
  | create spec => exact .bind (audited_createDeployment spec) fun _ _ => trivial
  | update id next => exact .bind (audited_updateDeployment id next) fun _ _ => trivial
  | rollback id revision => exact .bind (audited_rollbackDeployment id revision) fun _ _ => trivial
  | autoscale => exact audited_reconcileAutoscaling
  | jobs => exact audited_reconcileJobsAndCron

/-- The store and the mutex, and what each thread has read. -/
abbrev QuotaState := Protocol.Viewed Commons Audit

/-- The write does not raise what the record counts for in the namespace. -/
def Modest (N : String) (T : Table Deployment Deployment.id) (d : Deployment) : Prop :=
  d.share N (fun _ => 1) ≤ shareOf N (fun _ => 1) T d.id ∧
    d.share N Deployment.cpuDemand ≤ shareOf N Deployment.cpuDemand T d.id ∧
    d.share N Deployment.memDemand ≤ shareOf N Deployment.memDemand T d.id

/-- The write stores a new deployment, under an id that the thread has just found unused and
that still is, in the namespace by its exact name; the deployments that the thread has listed
under that name are those that are in the namespace now, and the sums do not overflow. -/
def Vetted (N : String) (T : Table Deployment Deployment.id) (l : Audit) (d : Deployment) : Prop :=
  l.fresh = some d.id ∧ T.get d.id = none ∧ d.spec.nameSpace = N ∧
    (l.listed.filter fun e => e.spec.nameSpace = N) = deploymentsIn N T ∧ InRange N T d

/-- The condition on the calls of a run. -/
def Steady (N : String) (i : ℕ) : Call → QuotaState → Prop
  | .put .deployment d, s =>
    Modest N (s.base.store .deployment) d ∨ Vetted N (s.base.store .deployment) (s.view i) d
  | _, _ => True

/-- The quota is as it was set, the namespace is within it, and the threads have seen it as it
is. -/
structure QuotaKept (q : NamespaceQuota) (N : String) (s : QuotaState) : Prop where
  quota : (s.base.store .quota).get N = some q
  within : WithinQuota q N (s.base.store .deployment)
  seen : ∀ i a, (s.view i).quota = some (N, a) → a = some q

section Step

variable {env : ℕ → Env} {i : ℕ} {c : Call} {s : QuotaState}

/-- What a thread has seen of the quota after a call. -/
lemma QuotaKept.seen_step (h : QuotaKept q N s) :
    ∀ j a, (((Protocol.watch (fun _ => audit) (clients env)).exec i c s).2.view j).quota =
      some (N, a) → a = some q := by
  intro j a hj
  change (if j = i then Audit.note c _ (s.view i) else s.view j).quota = some (N, a) at hj
  split at hj
  · cases c with
    | get t k =>
      cases t with
      | quota =>
        obtain ⟨rfl, rfl⟩ := Prod.mk.inj (Option.some.inj hj)
        exact h.quota
      | _ => exact h.seen i a hj
    | list t k => cases t <;> exact h.seen i a hj
    | _ => exact h.seen i a hj
  · exact h.seen j a hj

/-- A new deployment is stored. -/
lemma QuotaKept.within_new {d : Deployment} (h : QuotaKept q N s)
    (hallow : (s.view i).fresh = some d.id → (s.view i).Cleared d.spec)
    (hvetted : Vetted N (s.base.store .deployment) (s.view i) d) :
    WithinQuota q N ((s.base.store .deployment).put d.viaJSON) := by
  obtain ⟨hfresh, hnew, hns, hlisted, hrange⟩ := hvetted
  obtain ⟨a, ha, hcheck⟩ := hallow hfresh
  rw [hns] at ha
  rcases hcheck q (h.seen i a ha) with hq | hq
  · exact hq.within
  by_cases hN : d.inNamespace N = true
  · exact NamespaceQuota.Admits.within (d := d.viaJSON) hq hns hlisted hnew hrange hN
  · -- no deployment has this name after trimming
    have hshare : ∀ f, d.viaJSON.share N f ≤ shareOf N f (s.base.store .deployment) d.viaJSON.id := by
      intro f
      have hzero : d.viaJSON.share N f = 0 := if_neg hN
      have hnone : shareOf N f (s.base.store .deployment) d.viaJSON.id = 0 := shareOf_none hnew
      rw [hzero, hnone]
    exact h.within.put (hshare _) (hshare _) (hshare _)

/-- **One step** keeps the quota. -/
lemma QuotaKept.step (h : QuotaKept q N s) (hc : Steady N i c s)
    (hallow : audit.allows (s.view i) c) :
    QuotaKept q N ((Protocol.watch (fun _ => audit) (clients env)).exec i c s).2 := by
  have hframe : ∀ t, c.writes t = false →
      ((Protocol.watch (fun _ => audit) (clients env)).exec i c s).2.base.store t =
        s.base.store t := fun t ht => exec_writes (env i) ht (s.base.world i)
  by_cases hd : ∃ d, c = .put .deployment d
  · obtain ⟨d, rfl⟩ := hd
    have hstore : ((Protocol.watch (fun _ => audit) (clients env)).exec i
        (.put .deployment d) s).2.base.store .deployment =
        (s.base.store .deployment).put d.viaJSON := Store.put_self _ _ _
    refine ⟨by rw [hframe _ rfl]; exact h.quota, ?_, h.seen_step⟩
    rw [hstore]
    rcases hc with ⟨hcount, hcpu, hmem⟩ | hnew
    · exact h.within.put hcount hcpu hmem
    · exact h.within_new hallow hnew
  · obtain ⟨hdep, hquota⟩ : c.writes .deployment = false ∧ c.writes .quota = false := by
      cases c with
      | put t v => cases t <;> first | exact hallow | exact absurd ⟨v, rfl⟩ hd
      | _ => exact hallow
    refine ⟨by rw [hframe _ hquota]; exact h.quota, ?_, h.seen_step⟩
    rw [hframe _ hdep]
    exact h.within

end Step

/-- **The quota of a namespace is kept** in every run of concurrent operations whose writes of
deployments are steady. -/
theorem quota_invariant {env : ℕ → Env} {ops : ℕ → QuotaOp} {store : Store}
    (hquota : (store .quota).get N = some q) (hstart : WithinQuota q N (store .deployment))
    {p : Pool Call.Res Err Unit QuotaState}
    (hrun : Runs (Protocol.watch (fun _ => audit) (clients env)).step (Pool.Next (Steady N))
      (launch (fun i => (ops i).program o) store {}) p) :
    WithinQuota q N (p.shared.base.store .deployment) := by
  have hfollow : Protocol.Followed (fun _ => audit) (QuotaKept q N) (fun _ _ _ => True) p := by
    refine Protocol.run_follows ?_ ?_ hrun
    · exact fun i c s hI _ hc hallow => ⟨trivial, hI.step hc hallow⟩
    · exact ⟨⟨hquota, hstart, fun _ _ h => nomatch h⟩, fun i => (ops i).audited _⟩
  exact hfollow.inv.within

instance Steady.decidable (N : String) (i : ℕ) (c : Call) (s : QuotaState) :
    Decidable (Steady N i c s) := by
  unfold Steady Modest Vetted InRange
  cases c with
  | put t d => cases t <;> infer_instance
  | _ => infer_instance

/-- The specification of a deployment in a namespace. -/
def teamSpec (ns : String) (cpu : Int64) : DeploymentSpec :=
  { webSpec with nameSpace := ns, resources := ⟨cpu, 100⟩ }

/-- A namespace with a quota of 1000 for the CPU, and a deployment that takes 600 of them. -/
def teamStore : Store :=
  (Store.empty.put .quota { nameSpace := "team", maxMilliCPU := 1000 }).put .deployment
    (newDeployment "d1" (teamSpec "team" 600) 1)

/-- Threads that read the same clock, and random numbers of their own. -/
def teamEnv (i : ℕ) : Env := { steadyEnv with rand := fun _ => i }

/-- The operations after the given steps of the threads. -/
def teamRun (ops : ℕ → QuotaOp) (schedule : List ℕ) : Pool Call.Res Err Unit QuotaState :=
  after (Protocol.watch (fun _ => audit) (clients teamEnv)).step schedule
    (launch (fun i => (ops i).program plainConfig) teamStore {})

/-- The CPU that the deployments of the namespace then ask for. -/
def teamCPU (ops : ℕ → QuotaOp) (schedule : List ℕ) : ℤ :=
  totalIn "team" Deployment.cpuDemand ((teamRun ops schedule).shared.base.store .deployment)

/-- A deployment is created, and the other one updated. -/
def modestOps : ℕ → QuotaOp
  | 0 => .create (teamSpec "team" 300)
  | _ => .update "d1" { teamSpec "team" 500 with image := "next" }

theorem quota_invariant_modest :
    let schedule := List.replicate 40 0 ++ List.replicate 20 1
    teamCPU modestOps schedule = 800 ∧ WithinQuota { nameSpace := "team", maxMilliCPU := 1000 }
      "team" ((teamRun modestOps schedule).shared.base.store .deployment) := by
  have hstart : WithinQuota { nameSpace := "team", maxMilliCPU := 1000 } "team"
      (teamStore .deployment) := ⟨by decide, by decide +kernel, by decide⟩
  exact ⟨by decide +kernel,
    quota_invariant (by decide +kernel) hstart (.of_list _ (by decide +kernel))⟩

/-- The quota is exceeded by an update, by two creations whose checks come before both writes,
and by a creation in a namespace whose name is padded. -/
theorem quota_exceeded :
    teamCPU (fun _ => .create (teamSpec "team" 300)) [] = 600 ∧
    teamCPU (fun _ => .update "d1" { teamSpec "team" 600 with replicas := 2 })
      (List.replicate 20 0) = 1200 ∧
    teamCPU (fun _ => .create (teamSpec "team" 300)) (List.replicate 20 [0, 1]).flatten = 1200 ∧
    teamCPU (fun _ => .create (teamSpec "team " 600)) (List.replicate 20 0) = 1200 := by
  decide +kernel

end Orchestrator
