/-
# What a specification refers to

A specification refers to a namespace and to volume claims.  `CreateDeployment` fills in the
namespace, has it recorded, and checks that the claims are bound.  What is recorded is the namespace
without the spaces around it, and what is stored has them, so that a namespace with spaces is not
found.  `UpdateDeployment` replaces the specification without any of this, so that an update which
leaves the namespace out stores a deployment without one.

Nothing else takes a reference away: namespaces are never removed and bound claims stay bound, the
passes only bind further ones, and a rollback goes back to a specification that was stored before.
So the references of all stored deployments resolve in every state of a run in which the updates
bring specifications whose references resolve and the namespaces of what is created are plain.
-/
import Orchestrator.Logic.Accesses
import Orchestrator.Properties.Escalation
import Orchestrator.System

namespace Orchestrator

open Lib

variable {env : Env} {s : HTTPServer}

/-! ### References -/

/-- The namespace is recorded. -/
def Store.Names (st : Store) (ns : String) : Prop := ((st .nameSpace).get ns).isSome = true

/-- There is a bound claim under the key. -/
def Store.BoundAt (st : Store) (k : String) : Prop :=
  ((st .claim).get k).any (fun p => decide (PersistentVolumeClaim.phase p = .bound)) = true

/-- The namespace is not blank and is recorded as it is written, and every volume claim is one of
the namespace that is bound. -/
def DeploymentSpec.Resolves (spec : DeploymentSpec) (st : Store) : Prop :=
  blank spec.nameSpace = false ∧ st.Names spec.nameSpace ∧
    ∀ claim ∈ spec.volumeClaims.getD [], st.BoundAt (keyPersistentVolumeClaim spec.nameSpace claim)

/-- No spaces stand around the namespace, or it is recorded with them. -/
def Store.Plain (st : Store) (ns : String) : Prop := trimSpace ns = ns ∨ st.Names ns

instance (st : Store) (ns : String) : Decidable (st.Names ns) :=
  inferInstanceAs (Decidable (_ = true))

instance (st : Store) (k : String) : Decidable (st.BoundAt k) :=
  inferInstanceAs (Decidable (_ = true))

instance (st : Store) (ns : String) : Decidable (st.Plain ns) :=
  inferInstanceAs (Decidable (_ ∨ _))

instance (spec : DeploymentSpec) (st : Store) : Decidable (spec.Resolves st) :=
  inferInstanceAs (Decidable (_ ∧ _ ∧ _))

/-- What is referred to does not go away. -/
structure Store.RefersOn (st st' : Store) : Prop where
  names : ∀ ns, st.Names ns → st'.Names ns
  bound : ∀ k, st.BoundAt k → st'.BoundAt k

namespace Store.RefersOn

variable {st st' st'' : Store}

lemma refl (st : Store) : st.RefersOn st := ⟨fun _ h => h, fun _ h => h⟩

lemma trans (h : st.RefersOn st') (h' : st'.RefersOn st'') : st.RefersOn st'' :=
  ⟨fun ns hns => h'.names ns (h.names ns hns), fun k hk => h'.bound k (h.bound k hk)⟩

lemma resolves (h : st.RefersOn st') {spec : DeploymentSpec} (hspec : spec.Resolves st) :
    spec.Resolves st' :=
  ⟨hspec.1, h.names _ hspec.2.1, fun claim hc => h.bound _ (hspec.2.2 claim hc)⟩

lemma plain (h : st.RefersOn st') {ns : String} (hns : st.Plain ns) : st'.Plain ns :=
  hns.imp_right (h.names ns)

end Store.RefersOn

/-- Two specifications with the same references. -/
lemma DeploymentSpec.Resolves.congr {spec spec' : DeploymentSpec} {st : Store}
    (h : spec.Resolves st) (hns : spec'.nameSpace = spec.nameSpace)
    (hclaims : spec'.volumeClaims.getD [] = spec.volumeClaims.getD []) : spec'.Resolves st := by
  unfold DeploymentSpec.Resolves
  rw [hns, hclaims]
  exact h

/-- What is not blank is not trimmed to nothing. -/
lemma trimSpace_ne_empty {x : String} (h : blank x = false) : trimSpace x ≠ "" := by
  intro hempty
  have hnil := congrArg String.toList hempty
  simp only [trimSpace, String.toList_ofList, String.toList_empty, List.reverse_eq_nil_iff,
    List.dropWhile_eq_nil_iff, List.mem_reverse] at hnil
  have hall : ∀ c ∈ x.toList, isSpace c = true := by
    intro c hc
    rw [← List.takeWhile_append_dropWhile (p := isSpace) (l := x.toList)] at hc
    rcases List.mem_append.mp hc with hc | hc
    · exact List.mem_takeWhile_imp hc
    · exact hnil c hc
  rw [blank, List.all_eq_true.mpr hall] at h
  cases h

/-! ### The regime -/

def referenceTerms (st : Store) : Terms where
  ids _ := True
  spec spec := spec.Resolves st
  replica _ _ := True
  blueprint b := st.Plain b.1
  bounds _ _ := True

/-- As seen from a later store: the references of the deployments that are read resolve there, and
so do namespaces and bound claims that are found and namespaces that are recorded; the jobs are in
plain namespaces; only such deployments and jobs may be stored, and a claim only as a bound one. -/
def referenceRegime (st : Store) : Regime Call.Res where
  answers
    | .get .deployment _, a => ∀ d, a = some d → (referenceTerms st).Meets (Deployment.core d)
    | .get .nameSpace k, a => a.isSome = true → st.Names k
    | .get .claim k, a => a.any (fun p => decide (PersistentVolumeClaim.phase p = .bound)) = true →
        st.BoundAt k
    | .list .job _, l => ∀ j ∈ l, st.Plain (Job.blueprint j).1
    | .list .cronJob _, l => ∀ c ∈ l, st.Plain (CronJob.blueprint c).1
    | .put .nameSpace n, _ => st.Names (Namespace.name n)
    | _, _ => True
  allows
    | .put .deployment d => (referenceTerms st).Meets (Deployment.core d)
    | .put .claim c => PersistentVolumeClaim.phase c = .bound
    | .put .job j => st.Plain (Job.blueprint j).1
    | .put .cronJob c => st.Plain (CronJob.blueprint c).1
    | .del .nameSpace _ => False
    | .del .claim _ => False
    | _ => True

variable {st : Store}

instance : HasReads (referenceRegime st).allows where
  reads c hc := by
    cases c with
    | put | del | deleteDeployment | popAssignments | replaceServiceEndpoints => cases hc
    | _ => trivial

/-- A namespace that has been ensured is recorded. -/
lemma ensureNamespaceExists_names {ns : String} (h : blank ns = false) :
    (ensureNamespaceExists ns).Under (referenceRegime st) fun _ => st.Names (trimSpace ns) := by
  unfold ensureNamespaceExists
  have hname : (if trimSpace ns = "" then "default" else trimSpace ns) = trimSpace ns :=
    if_neg (trimSpace_ne_empty h)
  simp only [hname]
  have hfind : (StateStore.getNamespace (trimSpace ns)).Under (referenceRegime st)
      fun _ => st.Names (trimSpace ns) :=
    (under_find trivial).mono fun n hn => hn rfl
  refine hfind.attempt_bind (fun _ hn => hn) fun _ => ?_
  refine under_ask_bind (c := .now) trivial fun _ _ => under_ask_bind (c := .now) trivial
    fun _ _ => ?_
  refine Prog.Under.attempt_bind (Q := fun _ => st.Names (trimSpace ns)) ?_ (fun _ hn => hn)
    fun _ => hfind.attempt_bind (fun _ hn => hn) fun _ => trivial
  refine under_ask_bind (c := .get .nameSpace _) trivial fun found _ => ?_
  cases found with
  | some _ => trivial
  | none =>
    refine Obeys.bind (Obeys.of_makes (Makes.orNow _)) fun _ => ?_
    exact Prog.Under.issue trivial fun _ hn => hn

/-- Claims that have been checked are bound. -/
lemma checkVolumeClaims_bound (ns : String) (claims : List String) :
    (checkVolumeClaims ns claims).Under (referenceRegime st) fun _ =>
      ∀ claim ∈ claims, st.BoundAt (keyPersistentVolumeClaim ns claim) := by
  refine Prog.Under.forEach_all fun claim _ => ?_
  refine Prog.Under.attempt_bind (under_find trivial) (fun p hp => ?_) fun _ => trivial
  refine Prog.Under.ite (fun _ => trivial) fun hbound => ?_
  exact hp (decide_eq_true (not_not.mp hbound))

/-- **What `CreateDeployment` stores has references that resolve,** if its namespace is plain. -/
lemma admits_references {spec : DeploymentSpec} (hplain : st.Plain spec.withDefaults.nameSpace) :
    Admits (referenceRegime st) (referenceTerms st) spec := by
  intro _ _
  have hns : blank spec.withDefaults.nameSpace = false := by
    change blank (if blank spec.nameSpace then "default" else spec.nameSpace) = false
    split
    · decide
    · next h => exact Bool.eq_false_of_not_eq_true h
  refine Obeys.bind (Obeys.of_makes makes_runAdmissionCheck) fun _ =>
    (ensureNamespaceExists_names hns).bind fun _ hnames =>
    (checkVolumeClaims_bound _ _).bind fun _ hbound =>
    (Obeys.of_makes (makes_enforceNamespaceQuota _)).mono fun _ _ => ?_
  refine ⟨hns, hplain.elim (fun heq => ?_) fun h => h, hbound⟩
  rwa [heq] at hnames

lemma coversOps_references (st : Store) :
    CoversOps (referenceRegime st) (referenceTerms st) where
  common c hc := HasCommon.common c hc
  lookup _ := trivial
  found _ d _ h := h d rfl
  fetched _ _ _ := trivial
  listed _ _ _ _ _ := trivial
  normal _ h := h.congr rfl rfl
  asked _ _ := trivial
  write _ h := h
  mark _ _ := trivial
  evict _ := trivial
  reserve _ := trivial
  enqueue _ := trivial
  everyID _ := trivial
  remove _ := trivial
  nameSpace _ := trivial
  endpoints _ _ := trivial
  volume _ := trivial
  bind _ h := h
  policies _ _ _ _ _ := trivial
  policy _ _ := trivial
  scale _ _ _ _ _ h _ := h.congr rfl rfl
  jobs _ _ h := h
  job _ h := h
  removeJob _ := trivial
  cronJobs _ _ h := h
  cronJob _ h := h
  start _ h := admits_references h
  incidental t v ht hne := by
    cases t with
    | deployment => cases ht
    | claim => exact absurd rfl hne
    | _ => trivial
  poll _ _ := trivial
  removePolicy _ := trivial
  defaults _ := trivial

/-! ### Runs of the API server -/

/-- An update brings a specification whose references resolve, and what deployments are made from is
in a plain namespace. -/
def Operation.Refers (st : Store) : Operation → Prop
  | createDeployment spec => st.Plain spec.withDefaults.nameSpace
  | updateDeployment _ next => next.Resolves st
  | upsertJob job => st.Plain job.blueprint.1
  | upsertCronJob cj => st.Plain cj.blueprint.1
  | _ => True

def Access.Refers (st : Store) : Access → Prop
  | .http _ r => ∀ op, r.versioned.operation = some op → op.Refers st
  | .grpcCreate spec => st.Plain (fromPBDeploymentSpec spec).withDefaults.nameSpace
  | _ => True

lemma Access.Refers.fits {a : Access} {st st' : Store} (h : a.Refers st)
    (hlater : st.RefersOn st') : a.Fits (referenceRegime st') (referenceTerms st') := by
  cases a with
  | http m r =>
    intro op hop
    have hrefers := h op hop
    cases op with
    | createDeployment spec => exact admits_references (hlater.plain hrefers)
    | updateDeployment id next => exact fun _ _ => (hlater.resolves hrefers).congr rfl rfl
    | upsertJob job => exact hlater.plain hrefers
    | upsertCronJob cj => exact hlater.plain hrefers
    | upsertRoleBinding b =>
      exact (coversOps_references st').toCovers.upsertRoleBinding fun _ _ _ _ _ _ => trivial
    | _ => trivial
  | grpcCreate spec => exact admits_references (hlater.plain h)
  | _ => trivial

end Orchestrator
