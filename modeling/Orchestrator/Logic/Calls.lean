/-
# The calls of a program

What can be seen of a program without running it.  `Makes P p` says that every call of the
program `p` is in the class `P`, whatever its calls return.  The functions that are used in many
places are gone through once, for any class that has the calls they make: most need no more than
the clock and lookups of records other than deployments (`HasModest`).
-/
import Orchestrator.Logic.Effects
import Orchestrator.Service.Volumes

namespace Orchestrator

open Lib

variable {α β γ : Type} {P : Call → Prop} {o : Config}

/-- Every call of the program is in the class. -/
abbrev Makes (P : Call → Prop) (p : M α) : Prop := p.Only P fun _ => True

/-- The calls that only read, apart from lookups of deployments. -/
def Call.common : Call → Bool
  | .get t _ => decide (t ≠ .deployment)
  | c => c.reads

/-- The calls that only read, look at no deployment and leave the mutex alone. -/
def Call.modest : Call → Bool
  | .get t _ | .list t _ => decide (t ≠ .deployment)
  | c => c.oracle

lemma Call.reads_of_common {c : Call} (h : c.common = true) : c.reads = true := by
  cases c <;> first | rfl | exact h

lemma Call.common_of_modest {c : Call} (h : c.modest = true) : c.common = true := by
  cases c <;> first | rfl | exact h

lemma Call.modest_of_oracle {c : Call} (h : c.oracle = true) : c.modest = true := by
  cases c <;> first | rfl | cases h

lemma Call.common_of_oracle {c : Call} (h : c.oracle = true) : c.common = true :=
  Call.common_of_modest (Call.modest_of_oracle h)

/-- A class that has the calls that only read, apart from lookups of deployments. -/
class HasCommon (P : Call → Prop) : Prop where
  common : ∀ c : Call, c.common = true → P c

/-- A class that has the calls that only read. -/
class HasReads (P : Call → Prop) : Prop where
  reads : ∀ c : Call, c.reads = true → P c

/-- A class that has the modest calls. -/
class HasModest (P : Call → Prop) : Prop where
  modest : ∀ c : Call, c.modest = true → P c

/-- A class that has the modest calls, and the listing of all deployments. -/
class HasListing (P : Call → Prop) : Prop extends HasModest P where
  listing : P (.list .deployment "")

instance HasReads.hasCommon [HasReads P] : HasCommon P :=
  ⟨fun c hc => HasReads.reads c (Call.reads_of_common hc)⟩

instance HasCommon.hasListing [HasCommon P] : HasListing P where
  modest c hc := HasCommon.common c (Call.common_of_modest hc)
  listing := HasCommon.common _ rfl

namespace Makes

lemma bind {p : M α} {f : α → M β} (hp : Makes P p) (hf : ∀ a, Makes P (f a)) :
    Makes P (p >>= f) := Prog.Only.seq hp hf

lemma attempt_bind {p : M α} {f : Except Err α → M β} (hp : Makes P p)
    (hf : ∀ r, Makes P (f r)) : Makes P (p.attempt >>= f) :=
  Prog.Only.seq (Prog.Only.attempt hp) hf

lemma modality (P : Call → Prop) : Prog.Modality fun _ p => Makes P p where
  pure _ := trivial
  bind := bind
  fail _ := trivial
  attempt hp := Prog.Only.attempt hp

lemma ignore {p : M α} (hp : Makes P p) : Makes P p.ignore := (modality P).ignore hp

lemma forEach {l : List β} {f : β → M Unit} (hf : ∀ x ∈ l, Makes P (f x)) :
    Makes P (Prog.forEach l f) := (modality P).forEach hf

lemma mapEach {l : List β} {f : β → M γ} (hf : ∀ x ∈ l, Makes P (f x)) :
    Makes P (Prog.mapEach l f) := (modality P).mapEach hf

lemma ite {c : Prop} [Decidable c] {p q : M α} (hp : Makes P p) (hq : Makes P q) :
    Makes P (if c then p else q) := by
  split
  · exact hp
  · exact hq

lemma onlyIf {c : Prop} [Decidable c] {p : M Unit} (hp : Makes P p) :
    Makes P (Prog.onlyIf c p) := ite hp trivial

lemma call {c : Call} (hc : P c) : Makes P (ask c) := ⟨hc, fun _ => trivial⟩

lemma of_reads [HasReads P] {p : M α} {R : Except Err α → Prop} (h : Reads p R) : Makes P p :=
  (h.mono fun _ _ => trivial).weaken HasReads.reads

lemma find [HasReads P] (t : Tbl) (k : String) : Makes P (StateStore.find t k) := by
  refine (call (HasReads.reads (.get t k) rfl)).bind ?_
  rintro (_ | v) <;> trivial

lemma ask_bind [HasCommon P] {c : Call} (hc : c.common = true) {f : c.Res → M β}
    (hf : ∀ a, Makes P (f a)) : Makes P (ask c >>= f) := (call (HasCommon.common c hc)).bind hf

lemma withLock [HasCommon P] {p : M α} (hp : Makes P p) : Makes P (Orchestrator.withLock p) :=
  .ask_bind (c := .lock) rfl fun _ => .attempt_bind hp fun _ =>
    .ask_bind (c := .unlock) rfl fun _ => trivial

variable [HasModest P]

lemma modest_bind {c : Call} (hc : c.modest = true) {f : c.Res → M β} (hf : ∀ a, Makes P (f a)) :
    Makes P (ask c >>= f) := (call (HasModest.modest c hc)).bind hf

lemma now {f : Time → M β} (hf : ∀ t, Makes P (f t)) : Makes P (timeNow >>= f) :=
  modest_bind (c := .now) rfl hf

lemma lookup {t : Tbl} (ht : t ≠ .deployment) (k : String) : Makes P (StateStore.find t k) := by
  refine modest_bind (c := .get t k) (decide_eq_true ht) ?_
  rintro (_ | v) <;> trivial

lemma deployed (id : String) : Makes P (StateStore.listWorkloadsByDeployment id) :=
  modest_bind (c := .list .workload "") rfl fun _ => trivial

lemma orNow (time : Time) : Makes P (Orchestrator.orNow time) := by
  unfold Orchestrator.orNow
  split
  · exact call (HasModest.modest _ rfl)
  · trivial

lemma upsertNode {n : Node} (h : ∀ now, P (.put .node { n with lastSeen := now })) :
    Makes P (StateStore.upsertNode n) := (orNow _).bind fun _ => call (h _)

lemma upsertWorkload {v : Workload} (h : ∀ now, P (.put .workload { v with updatedAt := now })) :
    Makes P (StateStore.upsertWorkload v) := .now fun _ => call (h _)

lemma enqueueAssignment {a : Assignment} (h : ∀ id, P (.put .assignment { a with id := id })) :
    Makes P (StateStore.enqueueAssignment a) := by
  unfold StateStore.enqueueAssignment
  split
  · exact .now fun _ => call (h _)
  · exact call (h a.id)

end Makes


/-! ### Placement -/

/-- Only secrets are looked up. -/
lemma makes_collectSecretFiles_of (hP : ∀ k, P (.get .secret k)) (ns : String)
    (mounts : List SecretMountSpec) (files : List SecretFile) :
    Makes P (collectSecretFiles o ns mounts files) := by
  induction mounts generalizing files with
  | nil => trivial
  | cons sm rest ih =>
    unfold collectSecretFiles
    split
    · exact ih files
    · refine .bind (.bind (.call (hP _)) ?_) fun _ => ih _
      rintro (_ | v) <;> trivial

section Modest

variable [HasModest P]

lemma makes_resolveSecretFiles (dep : Deployment) :
    Makes P (resolveSecretFilesForDeployment o dep) :=
  .bind (makes_collectSecretFiles_of (fun _ => HasModest.modest _ rfl) _ _ _) fun _ => trivial

lemma makes_progressDeadline (dep : Deployment) : Makes P (progressDeadlineExceeded dep) := by
  unfold progressDeadlineExceeded
  split
  · exact .now fun _ => trivial
  · trivial

lemma makes_selectNode (dep : Deployment) : Makes P (selectNode o dep) :=
  .modest_bind (c := .list .node "") rfl fun _ => .modest_bind (c := .external) rfl fun _ => trivial

/-- A victim is evicted, and its reservation is given back. -/
lemma makes_tryPreempt (hn : ∀ n : Node, P (.put .node n)) (hv : ∀ id, P (.del .workload id))
    (dep : Deployment) (req : Resource) : Makes P (tryPreemptForPriority dep req) := by
  refine .modest_bind (c := .list .workload "") rfl fun workloads =>
    .modest_bind (c := .list .node "") rfl fun nodes => ?_
  split
  · exact .bind (.upsertNode fun _ => hn _) fun _ => .bind (.call (hv _)) fun _ => trivial
  · trivial

lemma makes_chooseNode (hn : ∀ n : Node, P (.put .node n)) (hv : ∀ id, P (.del .workload id))
    (dep : Deployment) : Makes P (chooseNode o dep) := by
  refine .bind (makes_selectNode dep) ?_
  rintro (_ | node)
  swap
  · trivial
  refine .bind ?_ ?_
  · split
    · exact makes_tryPreempt hn hv _ _
    · trivial
  · rintro (_ | _)
    · trivial
    · refine .bind (makes_selectNode dep) ?_
      rintro (_ | node) <;> trivial

lemma makes_releaseReservation (hn : ∀ n : Node, P (.put .node n)) (v : Workload) :
    Makes P (releaseReservation v) := by
  refine .attempt_bind (.lookup (by decide) _) ?_
  rintro (e | node)
  · trivial
  · exact .ignore (.upsertNode fun _ => hn _)

/-! ### The checks of the API -/

lemma makes_ensureNamespaceExists (h : ∀ ns, P (.put .nameSpace ns)) (ns : String) :
    Makes P (ensureNamespaceExists ns) := by
  refine .attempt_bind (.lookup (by decide) _) ?_
  rintro (e | v)
  swap
  · trivial
  refine .now fun t₁ => .now fun t₂ => .attempt_bind (.modest_bind rfl ?_) ?_
  · rintro (_ | v)
    · exact .bind (.orNow _) fun _ => .call (h _)
    · trivial
  · rintro (e | v)
    · refine .attempt_bind (.lookup (by decide) _) ?_
      rintro (e | v) <;> trivial
    · trivial

lemma makes_runAdmissionCheck : Makes P runAdmissionCheck := by
  refine .modest_bind rfl ?_
  rintro (_ | reason) <;> trivial

lemma makes_checkVolumeClaims (ns : String) (claims : List String) :
    Makes P (checkVolumeClaims ns claims) := by
  refine .forEach fun claim _ => .attempt_bind (.lookup (by decide) _) ?_
  rintro (e | pvc)
  · trivial
  · dsimp only
    split <;> trivial

/-! ### Claims -/

lemma makes_storeVolume (h : ∀ v : PersistentVolume, P (.put .volume v))
    (v : PersistentVolume) : Makes P (StateStore.upsertPersistentVolume v) :=
  .bind (.orNow _) fun _ => .now fun _ => .call (h _)

/-- A claim that is bound is stored as one. -/
lemma makes_bindClaim (hv : ∀ v : PersistentVolume, P (.put .volume v))
    (hc : ∀ c : PersistentVolumeClaim, c.phase = .bound → P (.put .claim c))
    (pvs : List PersistentVolume) (pvc : PersistentVolumeClaim) : Makes P (bindClaim pvs pvc) := by
  unfold bindClaim
  split
  · trivial
  split
  · trivial
  · exact .bind (makes_storeVolume hv _) fun _ => .bind (.orNow _) fun _ =>
      .now fun _ => .call (hc _ rfl)

lemma makes_reconcilePVCBindings (hv : ∀ v : PersistentVolume, P (.put .volume v))
    (hc : ∀ c : PersistentVolumeClaim, c.phase = .bound → P (.put .claim c)) :
    Makes P reconcilePVCBindings :=
  .modest_bind (c := .list .volume "") rfl fun _ => .modest_bind (c := .list .claim _) rfl fun _ =>
    .modest_bind (c := .list .nameSpace "") rfl fun _ =>
    .bind (.mapEach fun _ _ => .modest_bind (c := .list .claim _) rfl fun _ => trivial) fun _ =>
    .forEach fun pvc _ => makes_bindClaim hv hc _ pvc

/-! ### Jobs -/

/-- What the deployment of a job is made from: the namespace, with its default, and the template. -/
def Job.blueprint (job : Job) : String × DeploymentSpec :=
  (if blank job.spec.nameSpace then "default" else job.spec.nameSpace, job.spec.template)

/-- The same for the jobs that a cron job starts. -/
def CronJob.blueprint (cj : CronJob) : String × DeploymentSpec :=
  (if blank cj.nameSpace then "default" else cj.nameSpace, cj.template.template)

/-- A job is stored with the specification that it has. -/
lemma makes_storeJob {job : Job} (h : ∀ j : Job, j.spec = job.spec → P (.put .job j)) :
    Makes P (StateStore.upsertJob job) :=
  .bind (.orNow _) fun _ => .now fun _ => .call (h _ rfl)

lemma makes_upsertJob {job : Job}
    (h : ∀ j : Job, j.blueprint = job.blueprint → P (.put .job j)) :
    Makes P (upsertJob job) := by
  unfold upsertJob
  split
  · trivial
  refine .bind ?_ fun _ => .bind (makes_storeJob fun j hj => h j ?_) fun _ => .lookup (by decide) _
  · split
    · exact .now fun _ => trivial
    · trivial
  · rw [Job.blueprint, hj]
    by_cases hblank : blank job.spec.nameSpace = true <;> simp [Job.blueprint, hblank]

/-- The job and the cron job are stored with the blueprint that the cron job has. -/
lemma makes_runCronJob (now : Time) {cj : CronJob}
    (hj : ∀ j : Job, j.blueprint = cj.blueprint → P (.put .job j))
    (hc : ∀ c : CronJob, c.blueprint = cj.blueprint → P (.put .cronJob c)) :
    Makes P (runCronJob now cj) := by
  unfold runCronJob
  split
  · refine .attempt_bind (makes_upsertJob hj) ?_
    rintro (e | job)
    · trivial
    · exact .ignore (.bind (.orNow _) fun _ => .now fun _ => .call (hc _ rfl))
  · trivial

lemma makes_listJobs (ns : String) : Makes P (StateStore.listJobs ns) :=
  .modest_bind (c := .list .job "") rfl fun _ => .ite trivial trivial

lemma makes_listCronJobs (ns : String) : Makes P (StateStore.listCronJobs ns) :=
  .call (HasModest.modest _ rfl)

end Modest

lemma Job.afterFailure_blueprint (job : Job) (now : Time) :
    (job.afterFailure now).blueprint = job.blueprint := by
  unfold Job.afterFailure
  split <;> rfl

section Modality

variable {Φ : ∀ α : Type, M α → Prop} (h : Prog.Modality Φ)
include h

/-- What a property that passes through sequences needs, to hold of the pass over a job. -/
lemma reconcileJob_of {now : Time} {job : Job}
    (hcreate : Φ _ (createDeployment o job.deploymentSpec))
    (hstore : ∀ j : Job, j.blueprint = job.blueprint → Φ _ (StateStore.upsertJob j))
    (hlist : Φ _ (StateStore.listWorkloadsByDeployment job.deployment))
    (hdelete : ∀ k, Φ _ (deleteDeployment k)) (hremove : Φ _ (ask (.del .job job.id))) :
    Φ _ (reconcileJob o now job) := by
  have hforget : ∀ c : Prop, [Decidable c] →
      Φ _ (if c then (StateStore.deleteJob job.id).ignore else pure ()) := by
    intro c _
    split
    · exact h.ignore hremove
    · exact h.pure ()
  unfold reconcileJob
  split
  · unfold startJob
    split
    · refine h.bind (h.attempt hcreate) ?_
      rintro (e | dep)
      · exact h.pure ()
      · exact h.ignore (hstore _ rfl)
    · exact h.pure ()
  · unfold watchJob
    split
    · exact h.pure ()
    refine h.bind hlist fun workloads => ?_
    dsimp only
    split
    · exact h.pure ()
    · refine h.bind (h.ignore (hstore _ ?_)) fun _ => h.ignore (hdelete _)
      split
      · rfl
      · exact job.afterFailure_blueprint now
  · exact hforget _
  · exact hforget _
  · exact h.pure ()

/-- The same for the pass over the jobs and the cron jobs. -/
lemma reconcileJobsAndCron_of
    (hmodest : ∀ {α : Type} {p : M α}, Makes (fun c => c.modest = true) p → Φ α p)
    (hcron : ∀ now cj, Φ _ (runCronJob now cj)) (hjob : ∀ now job, Φ _ (reconcileJob o now job)) :
    Φ _ (reconcileJobsAndCron o) :=
  have : HasModest fun c : Call => c.modest = true := ⟨fun _ hc => hc⟩
  h.bind (hmodest (makes_listCronJobs _)) fun _ => h.bind (hmodest (.call rfl)) fun _ =>
    h.bind (hmodest (.mapEach fun _ _ => makes_listCronJobs _)) fun _ =>
    h.bind (hmodest (.call rfl)) fun now => h.bind (h.forEach fun cj _ => hcron now cj) fun _ =>
    h.bind (hmodest (makes_listJobs _)) fun _ =>
    h.bind (hmodest (.mapEach fun _ _ => makes_listJobs _)) fun _ =>
    h.forEach fun job _ => hjob now job

lemma createReplicas_of {dep : Deployment} (hcreate : Φ _ (createWorkloadForDeployment o dep))
    (n : ℕ) : Φ _ (createReplicas o dep n) := by
  induction n with
  | zero => exact h.pure none
  | succ n ih =>
    refine h.bind (h.attempt hcreate) ?_
    rintro (e | _)
    · exact h.pure (some e)
    · exact ih

end Modality

/-! ### Functions that list the deployments -/

section Listing

variable [HasListing P]

lemma makes_enforceNamespaceQuota (spec : DeploymentSpec) :
    Makes P (enforceNamespaceQuota spec) := by
  refine .attempt_bind (.lookup (by decide) _) ?_
  rintro (e | quota)
  · cases e <;> trivial
  · dsimp only
    split
    · trivial
    · refine .bind (.call HasListing.listing) fun deps => ?_
      unfold checkQuota
      dsimp only
      split
      · trivial
      split
      · trivial
      split <;> trivial

lemma makes_admitSpec (h : ∀ ns, P (.put .nameSpace ns)) (spec : DeploymentSpec) :
    Makes P (admitSpec spec) :=
  .bind makes_runAdmissionCheck fun _ => .bind (makes_ensureNamespaceExists h _) fun _ =>
    .bind (makes_checkVolumeClaims _ _) fun _ => makes_enforceNamespaceQuota spec

lemma makes_replaceServiceEndpoints
    (h : ∀ id eps, P (.replaceServiceEndpoints id eps)) (id : String)
    (eps : List ServiceEndpoint) : Makes P (StateStore.replaceServiceEndpoints id eps) := by
  have hfill : ∀ (l : List ServiceEndpoint) (k : List ServiceEndpoint → M Unit),
      (∀ l, Makes P (k l)) → Makes P (StateStore.replaceServiceEndpoints.fill l k) := by
    intro l
    induction l with
    | nil => exact fun k hk => hk []
    | cons ep l ih => exact fun k hk => .bind (.orNow _) fun _ => ih _ fun l => hk _
  exact hfill eps _ fun l => .call (h id l)

lemma makes_reconcileServiceEndpoints
    (h : ∀ id eps, P (.replaceServiceEndpoints id eps)) (id : String) :
    Makes P (reconcileServiceEndpoints id) := by
  refine .bind (.lookup (by decide) _) fun _ => .bind (.call HasListing.listing) fun _ =>
    .modest_bind (c := .list .workload "") rfl fun _ =>
    .modest_bind (c := .list .node "") rfl fun _ => .now fun _ =>
    .bind (.mapEach fun x _ => .bind ?_ fun _ => trivial) fun _ =>
    makes_replaceServiceEndpoints h _ _
  unfold endpointReady
  split
  · exact .now fun _ => trivial
  · trivial

lemma makes_reconcileAllServiceEndpoints
    (h : ∀ id eps, P (.replaceServiceEndpoints id eps)) : Makes P reconcileAllServiceEndpoints :=
  .modest_bind (c := .list .service "") rfl fun _ => .forEach fun _ _ =>
    makes_reconcileServiceEndpoints h _

end Listing

end Orchestrator
