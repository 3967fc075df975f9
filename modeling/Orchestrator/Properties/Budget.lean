/-
# The arithmetic of a quota

`enforceNamespaceQuota` adds up products in 64 bits and compares the sum with the limit.  What it
compares is therefore the true total reduced to the range of an `int64`.  A total that is within
its limit is in that range, so nothing is rejected that fits.  A total of at least `2 ^ 63` can
come out small or negative, and then a deployment is let in that does not fit, if no other limit
stops it.
-/
import Mathlib.Algebra.Order.BigOperators.Group.List
import Orchestrator.Properties.Quota

namespace Orchestrator

open Lib

variable {env : Env} {w : World} {q : NamespaceQuota} {spec : DeploymentSpec}
  {deps : List Deployment}

/-! ### Totals -/

/-- The specifications of a namespace together with the new one. -/
def specsWith (spec : DeploymentSpec) (deps : List Deployment) : List DeploymentSpec :=
  ((deps.filter fun d => d.spec.nameSpace = spec.nameSpace).map Deployment.spec) ++ [spec]

/-- The total of `Replicas` times a resource, over unbounded integers. -/
def totalOf (g : Resource → Int64) (specs : List DeploymentSpec) : ℤ :=
  (specs.map fun s => s.replicas.toInt * (g s.resources).toInt).sum

/-- The number of deployments and the totals respect the positive limits. -/
def NamespaceQuota.Fits (q : NamespaceQuota) (specs : List DeploymentSpec) : Prop :=
  (0 < q.maxDeployments → (specs.length : ℤ) ≤ q.maxDeployments) ∧
  (0 < q.maxMilliCPU → totalOf Resource.milliCPU specs ≤ q.maxMilliCPU.toInt) ∧
  (0 < q.maxMemoryMB → totalOf Resource.memoryMB specs ≤ q.maxMemoryMB.toInt)

/-- The same for the totals reduced to 64 bits. -/
def NamespaceQuota.FitsWrapped (q : NamespaceQuota) (specs : List DeploymentSpec) : Prop :=
  (0 < q.maxDeployments → (specs.length : ℤ) ≤ q.maxDeployments) ∧
  (0 < q.maxMilliCPU → (totalOf Resource.milliCPU specs).bmod (2 ^ 64) ≤ q.maxMilliCPU.toInt) ∧
  (0 < q.maxMemoryMB → (totalOf Resource.memoryMB specs).bmod (2 ^ 64) ≤ q.maxMemoryMB.toInt)

/-- A total with a limit is beyond the range of an `int64`. -/
def NamespaceQuota.Overflows (q : NamespaceQuota) (specs : List DeploymentSpec) : Prop :=
  0 < q.maxMilliCPU ∧ 2 ^ 63 ≤ totalOf Resource.milliCPU specs ∨
    0 < q.maxMemoryMB ∧ 2 ^ 63 ≤ totalOf Resource.memoryMB specs

/-- The values that are added up are not negative. -/
def NonNegative (specs : List DeploymentSpec) : Prop :=
  ∀ s ∈ specs, 0 ≤ s.replicas ∧ 0 ≤ s.resources.milliCPU ∧ 0 ≤ s.resources.memoryMB

instance (q : NamespaceQuota) (specs : List DeploymentSpec) : Decidable (q.Fits specs) :=
  inferInstanceAs (Decidable (_ ∧ _))

instance (q : NamespaceQuota) (specs : List DeploymentSpec) : Decidable (q.FitsWrapped specs) :=
  inferInstanceAs (Decidable (_ ∧ _))

instance (q : NamespaceQuota) (specs : List DeploymentSpec) : Decidable (q.Overflows specs) :=
  inferInstanceAs (Decidable (_ ∨ _))

instance (specs : List DeploymentSpec) : Decidable (NonNegative specs) :=
  inferInstanceAs (Decidable (∀ s ∈ specs, _))

lemma totalOf_nonneg {g : Resource → Int64} {specs : List DeploymentSpec}
    (h : ∀ s ∈ specs, 0 ≤ s.replicas ∧ 0 ≤ g s.resources) : 0 ≤ totalOf g specs := by
  refine List.sum_nonneg fun x hx => ?_
  obtain ⟨s, hs, rfl⟩ := List.mem_map.mp hx
  obtain ⟨hreplicas, hg⟩ := h s hs
  exact mul_nonneg (Int64.le_iff_toInt_le.mp hreplicas) (Int64.le_iff_toInt_le.mp hg)

/-! ### The check -/

/-- The sum that the check compares with a limit. -/
lemma usage_toInt (g : Resource → Int64) (spec : DeploymentSpec) (deps : List Deployment) :
    ((deps.filter fun d => d.spec.nameSpace = spec.nameSpace).foldl
        (fun acc d => acc + d.spec.replicas * g d.spec.resources) 0 +
      spec.replicas * g spec.resources).toInt =
      (totalOf g (specsWith spec deps)).bmod (2 ^ 64) := by
  rw [Int64.toInt_add, foldl_toInt fun d => g d.spec.resources, Int64.toInt_mul,
    Int.bmod_add_bmod, Int.add_bmod_bmod, Int64.toInt_zero, zero_add, totalOf, specsWith,
    List.map_append, List.sum_append, List.map_map]
  simp only [List.map_cons, List.map_nil, List.sum_singleton]
  rfl

/-- The check goes by the wrapped totals. -/
lemma admits_iff : q.Admits spec deps ↔ q.FitsWrapped (specsWith spec deps) := by
  have hle : ∀ (limit x : Int64) (y : ℤ), x.toInt = y →
      (¬ (limit > 0 ∧ x > limit) ↔ (0 < limit → y ≤ limit.toInt)) := by
    rintro limit x _ rfl
    rw [not_and, gt_iff_lt, gt_iff_lt, Int64.not_lt, Int64.le_iff_toInt_le]
  have hlen : ((specsWith spec deps).length : ℤ) =
      ((deps.filter fun d => d.spec.nameSpace = spec.nameSpace).length : ℤ) + 1 := by
    simp [specsWith]
  unfold NamespaceQuota.Admits NamespaceQuota.FitsWrapped namespaceUsage
  dsimp only
  rw [hle _ _ _ (usage_toInt Resource.milliCPU spec deps),
    hle _ _ _ (usage_toInt Resource.memoryMB spec deps), hlen, not_and, gt_iff_lt, gt_iff_lt, not_lt]

lemma checkQuota_iff : (checkQuota q spec deps).result (exec env) w = .ok () ↔
    q.Admits spec deps := by
  unfold checkQuota NamespaceQuota.Admits
  dsimp only
  split_ifs with hcount hcpu hmem
  · exact iff_of_false (fun h => by cases h) fun h => h.1 hcount
  · exact iff_of_false (fun h => by cases h) fun h => h.2.1 hcpu
  · exact iff_of_false (fun h => by cases h) fun h => h.2.2 hmem
  · exact iff_of_true rfl ⟨hcount, hcpu, hmem⟩

lemma NamespaceQuota.Unlimited.fitsWrapped {specs : List DeploymentSpec} (h : q.Unlimited) :
    q.FitsWrapped specs :=
  ⟨fun hmax => absurd hmax (by rw [h.1]; decide), fun hmax => absurd hmax (by rw [h.2.1]; decide),
    fun hmax => absurd hmax (by rw [h.2.2]; decide)⟩

/-- What `enforceNamespaceQuota` lets pass. -/
lemma enforceNamespaceQuota_iff : (enforceNamespaceQuota spec).result (exec env) w = .ok () ↔
    ∀ q ∈ (w.store .quota).get spec.nameSpace,
      q.FitsWrapped (specsWith spec (w.store .deployment).rows) := by
  rw [enforceNamespaceQuota, Prog.result, Prog.run_bind, Prog.run_attempt,
    StateStore.getNamespaceQuota, find_run]
  cases (w.store .quota).get spec.nameSpace with
  | none => exact iff_of_true rfl fun q hq => by cases hq
  | some q =>
    have hmem : (∀ q' ∈ some q, q'.FitsWrapped (specsWith spec (w.store .deployment).rows)) ↔
        q.FitsWrapped (specsWith spec (w.store .deployment).rows) := by simp
    rw [hmem]
    dsimp only [Option.elim]
    split_ifs with hunlimited
    · exact iff_of_true rfl (NamespaceQuota.Unlimited.fitsWrapped hunlimited)
    · exact checkQuota_iff.trans admits_iff

/-! ### Exactness -/

/-- A total within a limit is compared as it is. -/
lemma bmod_le_of_le {x : ℤ} {limit : Int64} (h0 : 0 ≤ x) (h : x ≤ limit.toInt) :
    x.bmod (2 ^ 64) ≤ limit.toInt := by
  have hlimit := limit.toInt_lt
  rwa [Int.bmod_eq_of_le (by omega) (by omega)]

/-- A total that is compared as something smaller is out of range. -/
lemma le_of_bmod_le {x : ℤ} {limit : Int64} (h0 : 0 ≤ x) (h : x.bmod (2 ^ 64) ≤ limit.toInt)
    (hlt : x < 2 ^ 63) : x ≤ limit.toInt := by
  rwa [Int.bmod_eq_of_le (by omega) (by omega)] at h

section Exact

variable {specs : List DeploymentSpec} (hnonneg : NonNegative specs)

include hnonneg

lemma cpu_nonneg : 0 ≤ totalOf Resource.milliCPU specs :=
  totalOf_nonneg fun s hs => ⟨(hnonneg s hs).1, (hnonneg s hs).2.1⟩

lemma mem_nonneg : 0 ≤ totalOf Resource.memoryMB specs :=
  totalOf_nonneg fun s hs => ⟨(hnonneg s hs).1, (hnonneg s hs).2.2⟩

lemma NamespaceQuota.Fits.wrapped (h : q.Fits specs) : q.FitsWrapped specs :=
  ⟨h.1, fun hmax => bmod_le_of_le (cpu_nonneg hnonneg) (h.2.1 hmax),
    fun hmax => bmod_le_of_le (mem_nonneg hnonneg) (h.2.2 hmax)⟩

lemma NamespaceQuota.FitsWrapped.fits_iff (h : q.FitsWrapped specs) :
    q.Fits specs ↔ ¬ q.Overflows specs := by
  constructor
  · rintro ⟨-, hcpu, hmem⟩ (⟨hmax, hbig⟩ | ⟨hmax, hbig⟩)
    · exact absurd (hbig.trans (hcpu hmax)) (not_le.mpr q.maxMilliCPU.toInt_lt)
    · exact absurd (hbig.trans (hmem hmax)) (not_le.mpr q.maxMemoryMB.toInt_lt)
  · intro hrange
    obtain ⟨hcpu, hmem⟩ := not_or.mp hrange
    refine ⟨h.1, fun hmax => ?_, fun hmax => ?_⟩
    · exact le_of_bmod_le (cpu_nonneg hnonneg) (h.2.1 hmax)
        (not_le.mp fun hbig => hcpu ⟨hmax, hbig⟩)
    · exact le_of_bmod_le (mem_nonneg hnonneg) (h.2.2 hmax)
        (not_le.mp fun hbig => hmem ⟨hmax, hbig⟩)

end Exact

/-- **The arithmetic of a quota is exact**, if and only if no total with a limit is beyond the range
of an `int64` while all of them, reduced to that range, are within their limits. -/
theorem quota_exact_iff (env : Env) (w : World) (spec : DeploymentSpec)
    (hnonneg : NonNegative (specsWith spec (w.store .deployment).rows)) :
    ((enforceNamespaceQuota spec).result (exec env) w = .ok () ↔
      ∀ q ∈ (w.store .quota).get spec.nameSpace,
        q.Fits (specsWith spec (w.store .deployment).rows)) ↔
    ∀ q ∈ (w.store .quota).get spec.nameSpace,
      ¬ (q.FitsWrapped (specsWith spec (w.store .deployment).rows) ∧
        q.Overflows (specsWith spec (w.store .deployment).rows)) := by
  rw [enforceNamespaceQuota_iff]
  constructor
  · rintro hexact q hq ⟨hwrapped, hover⟩
    have hall : ∀ q' ∈ (w.store .quota).get spec.nameSpace,
        q'.FitsWrapped (specsWith spec (w.store .deployment).rows) := by
      intro q' hq'
      rwa [Option.mem_unique hq' hq]
    exact (hwrapped.fits_iff hnonneg).mp (hexact.mp hall q hq) hover
  · intro hrange
    refine ⟨fun hall q hq => ?_, fun hall q hq => (hall q hq).wrapped hnonneg⟩
    exact ((hall q hq).fits_iff hnonneg).mpr fun hover => hrange q hq ⟨hall q hq, hover⟩

/-- A specification of two replicas. -/
def pairSpec (milliCPU : Int64) : DeploymentSpec :=
  { nameSpace := "team", name := "big", image := "img", replicas := 2,
    resources := { milliCPU := milliCPU, memoryMB := 1 } }

/-- A quota of one core for the namespace, and no deployments. -/
def coreWorld : World :=
  { store := Store.empty.put .quota { nameSpace := "team", maxMilliCPU := 1000 }, tick := 0 }

/-- A specification of two times six hundred milli-cores is rejected, and does not fit. -/
theorem quota_exact_iff_core :
    (enforceNamespaceQuota (pairSpec 600)).result (exec steadyEnv) coreWorld ≠ .ok () ∧
      ((enforceNamespaceQuota (pairSpec 600)).result (exec steadyEnv) coreWorld = .ok () ↔
        ∀ q ∈ (coreWorld.store .quota).get "team",
          q.Fits (specsWith (pairSpec 600) (coreWorld.store .deployment).rows)) :=
  ⟨by decide +kernel, (quota_exact_iff steadyEnv coreWorld (pairSpec 600) (by decide +kernel)).mpr
    (by decide +kernel)⟩

/-- One of two times `2 ^ 63 - 1` milli-cores is let in: the product is `-2` in 64 bits. -/
theorem huge_request_admitted :
    NonNegative (specsWith (pairSpec 9223372036854775807) (coreWorld.store .deployment).rows) ∧
      (enforceNamespaceQuota (pairSpec 9223372036854775807)).result (exec steadyEnv) coreWorld =
        .ok () ∧
      ¬ ∀ q ∈ (coreWorld.store .quota).get "team",
        q.Fits (specsWith (pairSpec 9223372036854775807) (coreWorld.store .deployment).rows) := by
  decide +kernel

end Orchestrator
