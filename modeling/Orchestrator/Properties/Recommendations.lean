/-
# What the autoscaler recommends

The recommendation goes from the current count through CPU, memory and the custom metric.  A
metric above its target raises the count in proportion; CPU or memory below 65 percent of the
target lowers it to one less than the current count, whatever the metrics before have asked for.
So idle memory undoes what an overloaded CPU asks for (`overloaded_kept_iff`), and a metric that
rises from zero to a little lowers the count (`recommendation_mono_iff`).

All arithmetic is exact here: there is no rounding (`fl` is the identity), and the proportional
counts are in the range of `int` (`Exact`).
-/
import Mathlib.Algebra.Order.Floor.Ring
import Mathlib.Data.Rat.Floor
import Orchestrator.Logic.Scaling
import Orchestrator.System

namespace Orchestrator

open Lib

/-! ### Metrics -/

inductive Metric
  | cpu
  | memory
  | custom
deriving DecidableEq, Repr

/-- The value of a metric. -/
def Usage.of (u : Usage) : Metric → ℚ
  | .cpu => u.cpu
  | .memory => u.mem
  | .custom => u.custom

/-- Another value for one metric. -/
def Usage.set (u : Usage) (x : ℚ) : Metric → Usage
  | .cpu => { u with cpu := x }
  | .memory => { u with mem := x }
  | .custom => { u with custom := x }

namespace AutoscalerPolicy

def target (p : AutoscalerPolicy) : Metric → ℚ
  | .cpu => p.targetCPUUtilization
  | .memory => p.targetMemoryUtilization
  | .custom => p.targetCustomMetricValue

/-- The policy goes by the metric. -/
def Enabled (p : AutoscalerPolicy) (m : Metric) : Prop :=
  0 < p.target m ∧ (m = .custom → blank p.customMetricName = false)

end AutoscalerPolicy

/-- The count at which the load of each replica would be on target. -/
def proportional (current : ℤ) (usage target : ℚ) : ℤ := ⌈(current : ℚ) * (usage / target)⌉

namespace AutoscalerPolicy

variable (p : AutoscalerPolicy)

/-- The metric asks for at least `n` replicas. -/
def Asks (current : ℤ) (m : Metric) (v : ℚ) (n : ℤ) : Prop :=
  p.Enabled m ∧ 0 < v ∧ n ≤ proportional current v (p.target m)

/-- The metric is below 65 percent of its target. -/
def Idle (m : Metric) (v : ℚ) : Prop := p.Enabled m ∧ 0 < v ∧ v < p.target m * (65 / 100)

/-- The proportional counts are numbers of 64 bits. -/
def Exact (current : ℤ) (u : Usage) : Prop :=
  ∀ m, p.Enabled m → 0 < u.of m → -2 ^ 63 ≤ proportional current (u.of m) (p.target m) ∧
    proportional current (u.of m) (p.target m) < 2 ^ 63

end AutoscalerPolicy

section Proportional

variable {c : ℤ} {t v v' : ℚ}

lemma proportional_mono (hc : 0 ≤ c) (ht : 0 < t) (h : v ≤ v') :
    proportional c v t ≤ proportional c v' t := by
  have hc' : (0 : ℚ) ≤ c := by exact_mod_cast hc
  exact Int.ceil_mono (mul_le_mul_of_nonneg_left (div_le_div_of_nonneg_right h ht.le) hc')

lemma lt_proportional (hc : 0 < c) (ht : 0 < t) (h : t < v) : c < proportional c v t := by
  have hc' : (0 : ℚ) < c := by exact_mod_cast hc
  refine Int.lt_ceil.mpr ?_
  calc (c : ℚ) = c * 1 := (mul_one _).symm
    _ < c * (v / t) := mul_lt_mul_of_pos_left ((one_lt_div ht).mpr h) hc'

lemma proportional_nonpos (hc : c ≤ 0) (ht : 0 < t) (hv : 0 < v) : proportional c v t ≤ 0 := by
  have hc' : (c : ℚ) ≤ 0 := by exact_mod_cast hc
  exact Int.ceil_le.mpr (by simpa using mul_nonpos_of_nonpos_of_nonneg hc' (div_pos hv ht).le)

end Proportional

/-! ### The three steps -/

section Steps

variable {c r : ℤ} {t v : ℚ}

lemma replicaCandidate_eq (hlow : -2 ^ 63 ≤ proportional c v t) (hhigh : proportional c v t < 2 ^ 63) :
    replicaCandidate id c v t = proportional c v t :=
  if_pos ⟨hlow, hhigh⟩

lemma recommendFor_off (h : ¬ (0 < t ∧ 0 < v)) : recommendFor id c r v t = r := if_neg h

/-- A metric that is idle lowers the count. -/
lemma recommendFor_idle (ht : 0 < t) (hv : 0 < v) (h : v < t * (65 / 100)) (hr : c - 1 ≤ r) :
    recommendFor id c r v t = c - 1 := by
  have hidle : v < id (t * id (65 / 100)) := h
  rw [recommendFor, if_pos ⟨ht, hv⟩]
  dsimp only
  rw [if_pos hidle]
  omega

/-- A metric that is not idle raises the count to what it asks for. -/
lemma recommendFor_busy (ht : 0 < t) (hv : 0 < v) (h : ¬ v < t * (65 / 100))
    (hlow : -2 ^ 63 ≤ proportional c v t) (hhigh : proportional c v t < 2 ^ 63) :
    recommendFor id c r v t = max r (proportional c v t) := by
  have hbusy : ¬ v < id (t * id (65 / 100)) := h
  rw [recommendFor, if_pos ⟨ht, hv⟩]
  dsimp only
  rw [if_neg hbusy, replicaCandidate_eq hlow hhigh]

end Steps

/-! ### The counts that are reached -/

section Reaches

variable {p : AutoscalerPolicy} {c n : ℤ} {u : Usage}

/-- The recommended count is at least `n`. -/
def AutoscalerPolicy.Reaches (p : AutoscalerPolicy) (c : ℤ) (u : Usage) (n : ℤ) : Prop :=
  n ≤ p.minReplicas.toInt ∨ n ≤ p.maxReplicas.toInt ∧
    (p.Asks c .custom u.custom n ∨ n ≤ c - 1 ∨ ¬ p.Idle .memory u.mem ∧
      (p.Asks c .memory u.mem n ∨ ¬ p.Idle .cpu u.cpu ∧ (p.Asks c .cpu u.cpu n ∨ n ≤ c)))

/-- What a step for CPU or memory makes of a count that it does not lower much. -/
lemma le_recommendFor_iff {m : Metric} (hm : m ≠ .custom) (hexact : p.Exact c u) {r : ℤ}
    (hr : c - 1 ≤ r) : n ≤ recommendFor id c r (u.of m) (p.target m) ↔
      n ≤ c - 1 ∨ ¬ p.Idle m (u.of m) ∧ (p.Asks c m (u.of m) n ∨ n ≤ r) := by
  by_cases hon : 0 < p.target m ∧ 0 < u.of m
  · have hen : p.Enabled m := ⟨hon.1, fun h => absurd h hm⟩
    by_cases hidle : u.of m < p.target m * (65 / 100)
    · have hi : p.Idle m (u.of m) := ⟨hen, hon.2, hidle⟩
      rw [recommendFor_idle hon.1 hon.2 hidle hr]
      exact ⟨Or.inl, fun h => h.elim id fun h => absurd hi h.1⟩
    · have hi : ¬ p.Idle m (u.of m) := fun h => hidle h.2.2
      obtain ⟨hlow, hhigh⟩ := hexact m hen hon.2
      rw [recommendFor_busy hon.1 hon.2 hidle hlow hhigh, le_max_iff]
      constructor
      · rintro (h | h)
        · exact Or.inr ⟨hi, Or.inr h⟩
        · exact Or.inr ⟨hi, Or.inl ⟨hen, hon.2, h⟩⟩
      · rintro (h | ⟨-, h | h⟩)
        · exact Or.inl (h.trans hr)
        · exact Or.inr h.2.2
        · exact Or.inl h
  · have hi : ¬ p.Idle m (u.of m) := fun h => hon ⟨h.1.1, h.2.1⟩
    rw [recommendFor_off hon]
    constructor
    · exact fun h => Or.inr ⟨hi, Or.inr h⟩
    · rintro (h | ⟨-, h | h⟩)
      · exact h.trans hr
      · exact absurd ⟨h.1.1, h.2.1⟩ hon
      · exact h

/-- **The recommendation in one condition.** -/
theorem le_recommendedReplicas_iff (hexact : p.Exact c u) :
    n ≤ recommendedReplicas id p u c ↔ p.Reaches c u n := by
  set r₁ := recommendFor id c c u.cpu p.targetCPUUtilization with hr₁
  set r₂ := recommendFor id c r₁ u.mem p.targetMemoryUtilization with hr₂
  have hcpu : ∀ n, n ≤ r₁ ↔
      n ≤ c - 1 ∨ ¬ p.Idle .cpu u.cpu ∧ (p.Asks c .cpu u.cpu n ∨ n ≤ c) := fun n =>
    le_recommendFor_iff (m := .cpu) (by decide) hexact (sub_le_self c zero_le_one)
  have hmem : n ≤ r₂ ↔
      n ≤ c - 1 ∨ ¬ p.Idle .memory u.mem ∧ (p.Asks c .memory u.mem n ∨ n ≤ r₁) :=
    le_recommendFor_iff (m := .memory) (by decide) hexact ((hcpu (c - 1)).mpr (Or.inl le_rfl))
  have hcustom : n ≤ (if blank p.customMetricName = false ∧ p.targetCustomMetricValue > 0 ∧
        u.custom > 0 then max r₂ (replicaCandidate id c u.custom p.targetCustomMetricValue)
      else r₂) ↔ p.Asks c .custom u.custom n ∨ n ≤ r₂ := by
    split_ifs with hon
    · have hen : p.Enabled .custom := ⟨hon.2.1, fun _ => hon.1⟩
      obtain ⟨hlow, hhigh⟩ := hexact .custom hen hon.2.2
      have hcand : replicaCandidate id c u.custom p.targetCustomMetricValue =
          proportional c u.custom p.targetCustomMetricValue := replicaCandidate_eq hlow hhigh
      rw [hcand, le_max_iff, or_comm]
      exact or_congr ⟨fun h => ⟨hen, hon.2.2, h⟩, fun h => h.2.2⟩ Iff.rfl
    · refine ⟨Or.inr, fun h => h.elim (fun h => absurd ?_ hon) id⟩
      exact ⟨h.1.2 rfl, h.1.1, h.2.1⟩
  rw [recommendedReplicas, le_max_iff, le_min_iff, hcustom, hmem, hcpu n,
    AutoscalerPolicy.Reaches]
  refine or_congr Iff.rfl (and_congr Iff.rfl (or_congr Iff.rfl ?_))
  -- what is below the current count is reached in any case
  by_cases hn : n ≤ c - 1
  · exact iff_of_true (Or.inl hn) (Or.inl hn)
  · rw [or_iff_right hn, or_iff_right hn, or_iff_right hn]

end Reaches

/-! ### Load and recommendation -/

section Monotone

variable {p : AutoscalerPolicy} {c n : ℤ} {u : Usage} {x y : ℚ}

/-- The metric rises from nothing to less than 65 percent of its target, and there is a count that
is reached without it and not by the metrics that come after it. -/
def AutoscalerPolicy.Drops (p : AutoscalerPolicy) (c : ℤ) (u : Usage) (x y : ℚ) : Metric → Prop
  | .cpu => x = 0 ∧ p.Idle .cpu y ∧ ¬ p.Idle .memory u.mem ∧
      p.minReplicas.toInt < c ∧ c ≤ p.maxReplicas.toInt ∧
      ¬ p.Asks c .memory u.mem c ∧ ¬ p.Asks c .custom u.custom c
  | .memory => x = 0 ∧ p.Idle .memory y ∧ ¬ p.Idle .cpu u.cpu ∧
      ∃ n, c ≤ n ∧ p.minReplicas.toInt < n ∧ n ≤ p.maxReplicas.toInt ∧
        (n = c ∨ p.Asks c .cpu u.cpu n) ∧ ¬ p.Asks c .custom u.custom n
  | .custom => False

lemma AutoscalerPolicy.Asks.mono {m : Metric} (h : p.Asks c m x n) (hc : 0 ≤ c) (hxy : x ≤ y) :
    p.Asks c m y n :=
  ⟨h.1, h.2.1.trans_le hxy, h.2.2.trans (proportional_mono hc h.1.1 hxy)⟩

lemma AutoscalerPolicy.Asks.nonpos {m : Metric} (h : p.Asks c m x n) (hc : c ≤ 0) : n ≤ 0 :=
  h.2.2.trans (proportional_nonpos hc h.1.1 h.2.1)

/-- With no replicas, no metric asks for any. -/
lemma AutoscalerPolicy.Reaches.le_of_nonpos (h : p.Reaches c u n) (hc : c ≤ 0)
    (hmin : 0 ≤ p.minReplicas.toInt) : n ≤ p.minReplicas.toInt := by
  rcases h with h | ⟨-, h | h | ⟨-, h | ⟨-, h | h⟩⟩⟩
  · exact h
  · exact (h.nonpos hc).trans hmin
  · omega
  · exact (h.nonpos hc).trans hmin
  · exact (h.nonpos hc).trans hmin
  · omega

/-- A value that is not idle while a higher one is has to be zero. -/
lemma AutoscalerPolicy.Idle.eq_zero {m : Metric} (hy : p.Idle m y) (hx : 0 ≤ x) (hxy : x ≤ y)
    (h : ¬ p.Idle m x) : x = 0 := by
  by_contra hne
  exact h ⟨hy.1, lt_of_le_of_ne hx (Ne.symm hne), hxy.trans_lt hy.2.2⟩

/-- More load keeps what was reached, unless it drops. -/
lemma AutoscalerPolicy.Reaches.mono (hc : 0 ≤ c) (hx : 0 ≤ x) (hxy : x ≤ y) {m : Metric}
    (hdrop : ¬ p.Drops c u x y m) (h : p.Reaches c (u.set x m) n) : p.Reaches c (u.set y m) n := by
  rcases h with h | ⟨hmax, h⟩
  · exact Or.inl h
  by_cases hmin : n ≤ p.minReplicas.toInt
  · exact Or.inl hmin
  refine Or.inr ⟨hmax, ?_⟩
  cases m with
  | cpu =>
    rcases h with h | h | ⟨hmem, h | ⟨hidle, h⟩⟩
    · exact Or.inl h
    · exact Or.inr (Or.inl h)
    · exact Or.inr (Or.inr ⟨hmem, Or.inl h⟩)
    by_cases hy : p.Idle .cpu y
    · obtain rfl := hy.eq_zero hx hxy hidle
      have hn : n ≤ c := h.resolve_left fun h => absurd h.2.1 (lt_irrefl 0)
      by_cases hlt : n ≤ c - 1
      · exact Or.inr (Or.inl hlt)
      obtain rfl : n = c := by omega
      by_contra hno
      refine hdrop ⟨rfl, hy, hmem, not_le.mp hmin, hmax, fun h => ?_, fun h => ?_⟩
      · exact hno (Or.inr (Or.inr ⟨hmem, Or.inl h⟩))
      · exact hno (Or.inl h)
    · exact Or.inr (Or.inr ⟨hmem, Or.inr ⟨hy, h.imp_left (·.mono hc hxy)⟩⟩)
  | memory =>
    rcases h with h | h | ⟨hidle, h⟩
    · exact Or.inl h
    · exact Or.inr (Or.inl h)
    by_cases hy : p.Idle .memory y
    · obtain rfl := hy.eq_zero hx hxy hidle
      obtain ⟨hcpu, h⟩ := h.resolve_left fun h => absurd h.2.1 (lt_irrefl 0)
      by_cases hlt : n ≤ c - 1
      · exact Or.inr (Or.inl hlt)
      by_contra hno
      refine hdrop ⟨rfl, hy, hcpu, n, by omega, not_le.mp hmin, hmax, ?_, fun h => hno (Or.inl h)⟩
      rcases h with h | h
      · exact Or.inr h
      · exact Or.inl (by omega)
    · exact Or.inr (Or.inr ⟨hy, h.imp_left (·.mono hc hxy)⟩)
  | custom => exact h.imp_left (·.mono hc hxy)

/-- A drop loses a count. -/
lemma AutoscalerPolicy.Drops.lost {m : Metric} (h : p.Drops c u x y m) :
    ∃ n, p.Reaches c (u.set x m) n ∧ ¬ p.Reaches c (u.set y m) n := by
  cases m with
  | cpu =>
    obtain ⟨rfl, hy, hmem, hmin, hmax, hasks, hcustom⟩ := h
    refine ⟨c, Or.inr ⟨hmax, Or.inr (Or.inr ⟨hmem, Or.inr ⟨?_, Or.inr le_rfl⟩⟩)⟩, ?_⟩
    · exact fun h => absurd h.2.1 (lt_irrefl 0)
    · rintro (h | ⟨-, h | h | ⟨-, h | ⟨h, -⟩⟩⟩)
      · omega
      · exact hcustom h
      · omega
      · exact hasks h
      · exact h hy
  | memory =>
    obtain ⟨rfl, hy, hcpu, n, hcn, hmin, hmax, hn, hcustom⟩ := h
    refine ⟨n, Or.inr ⟨hmax, Or.inr (Or.inr ⟨?_, Or.inr ⟨hcpu, ?_⟩⟩)⟩, ?_⟩
    · exact fun h => absurd h.2.1 (lt_irrefl 0)
    · exact hn.elim (fun h => Or.inr h.le) Or.inl
    · rintro (h | ⟨-, h | h | ⟨h, -⟩⟩)
      · omega
      · exact hcustom h
      · omega
      · exact h hy
  | custom => exact h.elim

/-- **More load never lowers the recommendation, except where it rises from nothing.** -/
theorem recommendation_mono_iff (p : AutoscalerPolicy) (c : ℤ)
    (hc : 0 ≤ c ∨ 0 ≤ p.minReplicas.toInt) (u : Usage) (m : Metric) (x y : ℚ) (hx : 0 ≤ x)
    (hxy : x ≤ y) (hexact : p.Exact c (u.set x m)) (hexact' : p.Exact c (u.set y m)) :
    recommendedReplicas id p (u.set x m) c ≤ recommendedReplicas id p (u.set y m) c ↔
      ¬ p.Drops c u x y m := by
  constructor
  · intro hle hdrop
    obtain ⟨n, hn, hlost⟩ := hdrop.lost
    rw [← le_recommendedReplicas_iff hexact] at hn
    exact hlost ((le_recommendedReplicas_iff hexact').mp (hn.trans hle))
  · intro hdrop
    have hreach := (le_recommendedReplicas_iff hexact).mp le_rfl
    rw [le_recommendedReplicas_iff hexact']
    by_cases hpos : 0 ≤ c
    · exact hreach.mono hpos hx hxy hdrop
    · exact Or.inl (hreach.le_of_nonpos (by omega) (hc.resolve_left hpos))

/-- A policy that goes by CPU and memory. -/
def evenPolicy : AutoscalerPolicy where
  id := "p1"
  deploymentID := "dep-0"
  minReplicas := 1
  maxReplicas := 10
  targetCPUUtilization := 50
  targetMemoryUtilization := 50

/-- Whether the proportional counts are in range is a matter of the two metrics. -/
lemma evenPolicy_exact (hcpu : -2 ^ 63 ≤ proportional c u.cpu 50 ∧ proportional c u.cpu 50 < 2 ^ 63)
    (hmem : -2 ^ 63 ≤ proportional c u.mem 50 ∧ proportional c u.mem 50 < 2 ^ 63) :
    evenPolicy.Exact c u := by
  intro m hen _
  cases m with
  | cpu => exact hcpu
  | memory => exact hmem
  | custom => exact absurd hen.1 (lt_irrefl 0)

theorem recommendation_mono_iff_even :
    recommendedReplicas id evenPolicy ⟨20, 35, 0⟩ 4 ≤ recommendedReplicas id evenPolicy ⟨90, 35, 0⟩ 4 ∧
      ¬ recommendedReplicas id evenPolicy ⟨0, 35, 0⟩ 4 ≤
        recommendedReplicas id evenPolicy ⟨20, 35, 0⟩ 4 := by
  have hexact : ∀ x : ℚ, x = 0 ∨ x = 20 ∨ x = 90 → evenPolicy.Exact 4 ⟨x, 35, 0⟩ := by
    rintro x (rfl | rfl | rfl) <;> exact evenPolicy_exact (by decide +kernel) (by decide +kernel)
  have hiff := fun x y hx hxy hx' hy' => recommendation_mono_iff evenPolicy 4 (Or.inl (by decide))
    ⟨0, 35, 0⟩ .cpu x y hx hxy (hexact x hx') (hexact y hy')
  constructor
  · refine (hiff 20 90 (by norm_num) (by norm_num) (by simp) (by simp)).mpr fun h => ?_
    exact absurd h.1 (by norm_num)
  · refine fun h => (hiff 0 20 le_rfl (by norm_num) (by simp) (by simp)).mp h ?_
    refine ⟨rfl, ⟨⟨by norm_num [AutoscalerPolicy.target, evenPolicy], by simp⟩, by norm_num, ?_⟩,
      fun h => absurd h.2.2 ?_, by decide, by decide, fun h => absurd h.2.2 (by decide +kernel),
      fun h => absurd h.1.1 (lt_irrefl 0)⟩
    · norm_num [AutoscalerPolicy.target, evenPolicy]
    · norm_num [AutoscalerPolicy.target, evenPolicy]

/-- Four replicas without a CPU reading are kept, and with a low reading one of them goes. -/
theorem recommendation_drops :
    recommendedReplicas id evenPolicy ⟨0, 0, 0⟩ 4 = 4 ∧
      recommendedReplicas id evenPolicy ⟨20, 0, 0⟩ 4 = 3 := by
  decide +kernel

end Monotone

/-! ### Overload -/

section Overload

variable {o : Config} {now : Time} {p : AutoscalerPolicy} {d : Deployment} {w : World} {m : Metric}
variable {c : ℤ}

/-- The averages of the samples of a deployment that a policy looks at. -/
def averages (now : Time) (p : AutoscalerPolicy) (d : Deployment) (w : World) : Usage :=
  aggregateMetrics id (windowSamples now p (w.samples d.id)) p.customMetricName

/-- The usage that a policy goes by. -/
def observed (now : Time) (p : AutoscalerPolicy) (d : Deployment) (w : World) : Usage :=
  observedUsage id now p (w.samples d.id)

/-- The value of the metric is above its target. -/
def AutoscalerPolicy.Overloaded (p : AutoscalerPolicy) (avg : Usage) (m : Metric) : Prop :=
  p.Enabled m ∧ p.target m < avg.of m

/-- The count that a metric calls for, as far as the policy allows it. -/
def AutoscalerPolicy.due (p : AutoscalerPolicy) (current : ℤ) (avg : Usage) (m : Metric) : ℤ :=
  min p.maxReplicas.toInt (proportional current (avg.of m) (p.target m))

/-- The cooldown keeps a change back. -/
def HeldBack (o : Config) (now : Time) (p : AutoscalerPolicy) (d : Deployment) (w : World) : Prop :=
  recommendation o now p d w ≠ d.spec.replicas.toInt ∧ Blocked o now p d w

/-- The replica count `c'` answers to every overloaded metric. -/
def AnswersOverload (o : Config) (now : Time) (p : AutoscalerPolicy) (d : Deployment) (w : World)
    (c' : ℤ) : Prop :=
  ∀ m, p.Overloaded (averages now p d w) m → d.spec.replicas.toInt ≤ c' ∧
    (¬ HeldBack o now p d w → p.due d.spec.replicas.toInt (averages now p d w) m ≤ c')

/-- CPU is overloaded, memory is idle, and the custom metric does not ask for what the CPU
needs. -/
structure MemoryWins (o : Config) (now : Time) (p : AutoscalerPolicy) (d : Deployment) (w : World) :
    Prop where
  cpu : p.Overloaded (averages now p d w) .cpu
  memory : p.Idle .memory (observed now p d w).mem
  custom : ¬ p.Asks d.spec.replicas.toInt .custom (observed now p d w).custom
    (p.due d.spec.replicas.toInt (averages now p d w) .cpu)
  bounds : p.minReplicas < p.maxReplicas
  free : ¬ HeldBack o now p d w

/-- A prediction only raises the usage. -/
lemma averages_le (now : Time) (p : AutoscalerPolicy) (d : Deployment) (w : World) (m : Metric) :
    (averages now p d w).of m ≤ (observed now p d w).of m := by
  unfold observed observedUsage
  dsimp only
  split
  · cases m <;> exact le_max_left _ _
  · exact le_rfl

lemma AutoscalerPolicy.Overloaded.current_le_due {avg : Usage} (h : p.Overloaded avg m)
    (hc : 1 ≤ c) (hmax : c ≤ p.maxReplicas.toInt) : c ≤ p.due c avg m :=
  le_min hmax (lt_proportional hc h.1.1 h.2).le

/-- What an overloaded metric calls for is the least count only if there is no other. -/
lemma AutoscalerPolicy.Overloaded.min_lt_due {avg : Usage} (h : p.Overloaded avg m) (hc : 1 ≤ c)
    (hmin : p.minReplicas.toInt ≤ c) (hlt : p.minReplicas.toInt < p.maxReplicas.toInt) :
    p.minReplicas.toInt < p.due c avg m :=
  lt_min hlt (hmin.trans_lt (lt_proportional hc h.1.1 h.2))

/-- An overloaded metric asks for its count. -/
lemma AutoscalerPolicy.Overloaded.asks {avg u : Usage} (h : p.Overloaded avg m)
    (hle : avg.of m ≤ u.of m) (hc : 1 ≤ c) : p.Asks c m (u.of m) (p.due c avg m) :=
  ⟨h.1, h.1.1.trans (h.2.trans_le hle),
    (min_le_right _ _).trans (proportional_mono (by omega) h.1.1 hle)⟩

/-- An overloaded metric is not idle. -/
lemma AutoscalerPolicy.Overloaded.not_idle {avg u : Usage} (h : p.Overloaded avg m)
    (hle : avg.of m ≤ u.of m) : ¬ p.Idle m (u.of m) := by
  intro hidle
  have htarget := h.1.1
  have hover := h.2
  have hlow := hidle.2.2
  linarith

/-- Which overloaded metrics get the count they call for. -/
lemma reaches_due_iff {avg u : Usage} (h : p.Overloaded avg m) (hle : ∀ m, avg.of m ≤ u.of m)
    (hc : 1 ≤ c) (hmin : p.minReplicas.toInt ≤ c) (hmax : c ≤ p.maxReplicas.toInt) :
    p.Reaches c u (p.due c avg m) ↔ ¬ (m = .cpu ∧ p.Idle .memory u.mem ∧
      ¬ p.Asks c .custom u.custom (p.due c avg m) ∧
      p.minReplicas.toInt < p.maxReplicas.toInt) := by
  have hasks := h.asks (hle m) hc
  have hbusy := h.not_idle (hle m)
  have hdue : p.due c avg m ≤ p.maxReplicas.toInt := min_le_left _ _
  cases m with
  | custom => exact iff_of_true (Or.inr ⟨hdue, Or.inl hasks⟩) (fun h => nomatch h.1)
  | memory =>
    refine iff_of_true (Or.inr ⟨hdue, Or.inr (Or.inr ⟨hbusy, Or.inl hasks⟩)⟩) (fun h => nomatch h.1)
  | cpu =>
    have hcur := h.current_le_due hc hmax
    constructor
    · rintro (hm | ⟨-, hm | hm | ⟨hm, -⟩⟩) ⟨-, hidle, hcustom, hlt⟩
      · exact absurd (h.min_lt_due hc hmin hlt) hm.not_gt
      · exact hcustom hm
      · omega
      · exact hm hidle
    · intro hno
      by_cases hidle : p.Idle .memory u.mem
      · by_cases hcustom : p.Asks c .custom u.custom (p.due c avg .cpu)
        · exact Or.inr ⟨hdue, Or.inl hcustom⟩
        · have hlt := not_lt.mp fun hlt => hno ⟨rfl, hidle, hcustom, hlt⟩
          exact Or.inl (hdue.trans hlt)
      · exact Or.inr ⟨hdue, Or.inr (Or.inr ⟨hidle, Or.inr ⟨hbusy, Or.inl hasks⟩⟩)⟩

/-- What is overloaded has been sampled. -/
lemma samples_ne_nil (h : p.Overloaded (averages now p d w) m) : w.samples d.id ≠ [] := by
  intro hnil
  have hzero : (averages now p d w).of m = 0 := by
    rw [averages, hnil]
    cases m <;> rfl
  exact absurd (h.1.1.trans h.2) (by rw [hzero]; exact lt_irrefl 0)

/-- The deployment that is stored after a turn. -/
lemma autoscalePolicy_stored (env : Env) (o : Config) (now : Time)
    (hd : w.deps.get p.deploymentID = some d) : ∃ d',
      ((autoscalePolicy o now p).final (exec env) w).deps.get p.deploymentID = some d' ∧
        (HeldBack o now p d w → d'.spec.replicas = d.spec.replicas) ∧
        (w.samples d.id ≠ [] → ¬ HeldBack o now p d w →
          d'.spec.replicas.toInt = recommendation o now p d w) := by
  unfold Prog.final
  by_cases hscales : Scales o now p d w
  · obtain ⟨⟨w', hrun, ⟨q, -, hstore⟩, -⟩, -⟩ := autoscalePolicy_scales env hd hscales
    set d' := d.scaled (recommendation o now p d w) now with hd'
    have hid : d.id = p.deploymentID := Table.key_of_get hd
    have hdeps : w'.deps = w.deps.put d'.viaJSON := by
      rw [World.deps, hstore, Store.put_of_ne _ _ _ _ (by decide), Store.put_self]
      rfl
    refine ⟨d'.viaJSON, ?_, fun h => absurd h.2 hscales.free,
      fun _ _ => replicas_scaled o now p d w⟩
    rw [hrun, hdeps, ← hid]
    exact Table.get_put_self _ d'.viaJSON
  · have hidle := (autoscalePolicy_idle env o now fun e he hse => hscales (by
      obtain rfl : d = e := Option.some.inj (hd.symm.trans he)
      exact hse)).1
    refine ⟨d, by rw [hidle]; exact hd, fun _ => rfl, fun hs hfree => ?_⟩
    by_contra hne
    exact hscales ⟨hs, fun h => hne h.symm, fun h => hfree ⟨fun h => hne h.symm, h⟩⟩

/-- **An overloaded deployment keeps its replicas and gets those it needs, unless memory wins.**
In each turn of each pass of the autoscaler. -/
theorem overloaded_kept_iff (env : Env) (o : Config) (hfl : o.fl = id) (w₀ : World) :
    ∀ t ∈ passTurns env o w₀, ∀ d, t.2.deps.get t.1.deploymentID = some d →
      1 ≤ t.1.minReplicas → t.1.minReplicas ≤ d.spec.replicas →
      d.spec.replicas ≤ t.1.maxReplicas →
      t.1.Exact d.spec.replicas.toInt (observed (env.clock w₀.tick) t.1 d t.2) →
      ∃ d', ((autoscalePolicy o (env.clock w₀.tick) t.1).final (exec env) t.2).deps.get
          t.1.deploymentID = some d' ∧
        (AnswersOverload o (env.clock w₀.tick) t.1 d t.2 d'.spec.replicas.toInt ↔
          ¬ MemoryWins o (env.clock w₀.tick) t.1 d t.2) := by
  rintro ⟨p, w⟩ - d hd hone hmin hmax hexact
  generalize env.clock w₀.tick = now at hexact ⊢
  dsimp only at hd hone hmin hmax hexact ⊢
  rw [Int64.le_iff_toInt_le] at hmin hmax hone
  have hc : 1 ≤ d.spec.replicas.toInt := hone.trans hmin
  obtain ⟨d', hget, hheld, hfree⟩ := autoscalePolicy_stored env o now hd
  refine ⟨d', hget, ?_⟩
  by_cases hnil : w.samples d.id = []
  · have hnone : ∀ m, ¬ p.Overloaded (averages now p d w) m := fun m hm => samples_ne_nil hm hnil
    exact iff_of_true (fun m hm => absurd hm (hnone m)) fun h => hnone .cpu h.cpu
  by_cases hback : HeldBack o now p d w
  · rw [hheld hback]
    exact iff_of_true (fun m _ => ⟨le_rfl, fun h => absurd hback h⟩) fun h => h.free hback
  have hrec : ∀ n, n ≤ d'.spec.replicas.toInt ↔
      p.Reaches d.spec.replicas.toInt (observed now p d w) n := by
    intro n
    rw [hfree hnil hback, recommendation, hfl]
    exact le_recommendedReplicas_iff hexact
  have hle := averages_le now p d w
  constructor
  · intro hkept hwins
    have hdue := (hrec _).mp ((hkept .cpu hwins.cpu).2 hback)
    refine (reaches_due_iff hwins.cpu hle hc hmin hmax).mp hdue ⟨rfl, hwins.memory, hwins.custom, ?_⟩
    exact Int64.lt_iff_toInt_lt.mp hwins.bounds
  · intro hno m hm
    have hdue : p.due d.spec.replicas.toInt (averages now p d w) m ≤ d'.spec.replicas.toInt := by
      rw [hrec, reaches_due_iff hm hle hc hmin hmax]
      rintro ⟨rfl, hidle, hcustom, hlt⟩
      exact hno ⟨hm, hidle, hcustom, Int64.lt_iff_toInt_lt.mpr hlt, hback⟩
    exact ⟨(hm.current_le_due hc hmax).trans hdue, fun _ => hdue⟩

/-- A deployment with four replicas. -/
def fourReplicas : Deployment := newDeployment "dep-0" { webSpec with replicas := 4 } 0

/-- It is under `evenPolicy`, with one sample. -/
def sampledWorld (cpu mem : ℚ) : World where
  store := ((Store.empty.put .policy evenPolicy).put .deployment fourReplicas).put .metric
      { id := "m1", deploymentID := "dep-0", timestamp := 0, cpuUsage := cpu, memoryUsage := mem }
  tick := 0

theorem overloaded_kept_iff_sampled : ∃ d',
    ((autoscalePolicy plainConfig (tickingEnv.clock 0) evenPolicy).final (exec tickingEnv)
      { sampledWorld 100 40 with tick := 1 }).deps.get "dep-0" = some d' ∧
    AnswersOverload plainConfig (tickingEnv.clock 0) evenPolicy fourReplicas
      { sampledWorld 100 40 with tick := 1 } d'.spec.replicas.toInt := by
  have hcpu : (observed (tickingEnv.clock 0) evenPolicy fourReplicas
      { sampledWorld 100 40 with tick := 1 }) = ⟨100, 40, 0⟩ := by decide +kernel
  have hturn : (evenPolicy, { sampledWorld 100 40 with tick := 1 }) ∈
      passTurns tickingEnv plainConfig (sampledWorld 100 40) := List.mem_cons_self
  obtain ⟨d', hget, hiff⟩ := overloaded_kept_iff tickingEnv plainConfig rfl (sampledWorld 100 40)
    _ hturn fourReplicas (by decide +kernel)
    (by decide) (by decide) (by decide) (by
      rw [show (sampledWorld 100 40).tick = 0 from rfl, hcpu]
      exact evenPolicy_exact (by decide +kernel) (by decide +kernel))
  refine ⟨d', hget, hiff.mpr fun h => ?_⟩
  have hidle := h.memory.2.2
  rw [show (sampledWorld 100 40).tick = 0 from rfl, hcpu] at hidle
  exact absurd hidle (by norm_num [AutoscalerPolicy.target, evenPolicy])

/-- CPU at twice its target, memory at a fifth of it: of four replicas three are left. -/
theorem overloaded_scaled_down :
    evenPolicy.Overloaded (averages (tickingEnv.clock 0) evenPolicy
      fourReplicas (sampledWorld 100 10)) .cpu ∧
    (((reconcileAutoscaling plainConfig).final (exec tickingEnv) (sampledWorld 100 10)).deps.get
      "dep-0").map (·.spec.replicas) = some 3 := by
  refine ⟨⟨⟨by decide +kernel, by simp⟩, by decide +kernel⟩, by decide +kernel⟩

end Overload

end Orchestrator
