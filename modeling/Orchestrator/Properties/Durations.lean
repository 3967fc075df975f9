/-
# The durations of the settings

Deadline, window, cooldown, lifetime and period are set as numbers of seconds.  Each is turned into
a `time.Duration` before it is compared with the clock.  For a setting of at most 9223372036
seconds, about 292 years, every one of these comparisons is the one over unbounded integers.  For a
longer one the product wraps around, and none of them is.
-/
import Orchestrator.Logic.Durations
import Orchestrator.Logic.Reconcile
import Orchestrator.Properties.Cron

namespace Orchestrator

open Lib

variable {env : Env} {w : World} {o : Config} {s s' : Int64} {now : ℤ}

/-! ### The comparisons -/

/-- The deployment with another `ProgressDeadlineSeconds`. -/
def Deployment.withDeadline (d : Deployment) (s : Int64) : Deployment :=
  { d with spec := { d.spec with rollout := { d.spec.rollout with progressDeadlineSeconds := s } } }

/-- The policy with another `StabilizationWindowSec`. -/
def AutoscalerPolicy.withWindow (p : AutoscalerPolicy) (s : Int64) : AutoscalerPolicy :=
  { p with stabilizationWindowSec := s }

/-- The policy with another `ScaleUpCooldownSec` or `ScaleDownCooldownSec`. -/
def AutoscalerPolicy.withCooldown (p : AutoscalerPolicy) (up : Bool) (s : Int64) :
    AutoscalerPolicy :=
  if up then { p with scaleUpCooldownSec := s } else { p with scaleDownCooldownSec := s }

/-- The cron job with another `ScheduleEveryS`. -/
def CronJob.withPeriod (cj : CronJob) (s : Int64) : CronJob := { cj with scheduleEveryS := s }

/-- The job with another `TTLSeconds`. -/
def Job.withTTL (job : Job) (s : Int64) : Job :=
  { job with spec := { job.spec with ttlSeconds := s } }

/-- A job that the TTL is looked at for. -/
def Job.Finished (job : Job) : Prop := job.status = .succeeded ∨ job.status = .failed

def Call.deletesJob : Call → Bool
  | .del .job _ => true
  | _ => false

/-- The body of the loop over the jobs deletes a job. -/
def expiresJob (env : Env) (o : Config) (now : Time) (job : Job) (w : World) : Bool :=
  ((reconcileJob o now job).calls (exec env) w).any fun x => x.1.deletesJob

/-- The samples that pass a test, or all of them if none does. -/
def keptOrAll (test : DeploymentMetricSample → Prop) [DecidablePred test]
    (samples : List DeploymentMetricSample) : List DeploymentMetricSample :=
  if samples.filter test = [] then samples else samples.filter test

section Kept

variable {test : DeploymentMetricSample → Prop} [DecidablePred test]
  {samples : List DeploymentMetricSample}

lemma mem_keptOrAll (h : ∃ m ∈ samples, test m) (m : DeploymentMetricSample) :
    m ∈ keptOrAll test samples ↔ m ∈ samples ∧ test m := by
  have hne : samples.filter test ≠ [] := by
    obtain ⟨m₀, hm₀, htest⟩ := h
    exact List.ne_nil_of_mem (List.mem_filter.mpr ⟨hm₀, decide_eq_true htest⟩)
  rw [keptOrAll, if_neg hne, List.mem_filter, decide_eq_true_iff]

end Kept

/-! ### The comparisons over unbounded integers -/

/-- The deadline is passed once the clock is more than so many seconds past the start. -/
def DeadlineExact (s : Int64) : Prop :=
  ∀ (env : Env) (w : World) (dep : Deployment), PastDeadline env (dep.withDeadline s) w ↔
    isRolloutInProgress dep.rolloutStatus.phase = true ∧ 0 < s ∧
      dep.rolloutStatus.startedAt.isZero = false ∧
      (dep.rolloutStatus.startedAt : ℤ) + s.toInt * 1000000000 < env.clock w.tick

/-- The window has the samples of the last so many seconds. -/
def WindowExact (s : Int64) : Prop :=
  ∀ (now : ℤ) (p : AutoscalerPolicy) (samples : List DeploymentMetricSample),
    windowSamples now (p.withWindow s) samples =
      keptOrAll (fun m => now - s.toInt * 1000000000 ≤ m.timestamp) samples

/-- The cooldown holds until so many seconds after the last change. -/
def CooldownExact (up : Bool) (s : Int64) : Prop :=
  ∀ (now : ℤ) (p : AutoscalerPolicy), inCooldown (p.withCooldown up s) up now = true ↔
    p.lastScaleAt.isZero = false ∧ now < (p.lastScaleAt : ℤ) + s.toInt * 1000000000

/-- A cron job is due so many seconds after it was last started. -/
def PeriodExact (s : Int64) : Prop :=
  ∀ (env : Env) (w : World) (now : ℤ) (cj : CronJob),
    spawnsJob env now (cj.withPeriod s) w = true ↔
      cj.suspend = false ∧ (cj.lastRunAt.isZero = true ∨
        (cj.lastRunAt : ℤ) + s.toInt * 1000000000 ≤ now)

/-- A finished job is deleted so many seconds after it was completed. -/
def TtlExact (s : Int64) : Prop :=
  ∀ (env : Env) (w : World) (o : Config) (now : ℤ) (job : Job), job.Finished →
    (expiresJob env o now (job.withTTL s) w = true ↔
      0 < s ∧ job.completedAt.isZero = false ∧
        (job.completedAt : ℤ) + s.toInt * 1000000000 ≤ now)

/-! ### What the code compares -/

lemma pastDeadline_iff (dep : Deployment) : PastDeadline env (dep.withDeadline s) w ↔
    isRolloutInProgress dep.rolloutStatus.phase = true ∧ 0 < s ∧
      dep.rolloutStatus.startedAt.isZero = false ∧
      (dep.rolloutStatus.startedAt : ℤ) + seconds s < env.clock w.tick := by
  unfold PastDeadline progressDeadlineExceeded
  split_ifs with h
  · have hrun : (do
        let now ← timeNow
        pure (decide ((dep.rolloutStatus.startedAt : ℤ) + seconds s < now)) : M Bool).result
          (exec env) w =
        .ok (decide ((dep.rolloutStatus.startedAt : ℤ) + seconds s < env.clock w.tick)) := rfl
    have hlate : (Except.ok (decide ((dep.rolloutStatus.startedAt : ℤ) + seconds s <
        env.clock w.tick)) : Except Err Bool) = .ok true ↔
          (dep.rolloutStatus.startedAt : ℤ) + seconds s < env.clock w.tick := by
      rw [Except.ok.injEq, decide_eq_true_iff]
    exact (Eq.congr_left hrun).trans (hlate.trans
      ⟨fun hlt => ⟨h.1, h.2.1, h.2.2, hlt⟩, fun hall => hall.2.2.2⟩)
  · exact iff_of_false (fun he => by cases he) fun hall => h ⟨hall.1, hall.2.1, hall.2.2.1⟩

lemma inCooldown_iff (p : AutoscalerPolicy) (up : Bool) :
    inCooldown (p.withCooldown up s) up now = true ↔
      p.lastScaleAt.isZero = false ∧ Time.sub now p.lastScaleAt < seconds s := by
  cases up <;> simp [inCooldown, AutoscalerPolicy.withCooldown]

lemma windowSamples_eq (p : AutoscalerPolicy) (samples : List DeploymentMetricSample) :
    windowSamples now (p.withWindow s) samples =
      keptOrAll (fun m => now + wrap64 (-s.toInt * 1000000000) ≤ m.timestamp) samples := rfl

lemma blank_instantiate (cj : CronJob) : blank (cj.instantiate now).spec.name = false := by
  refine Bool.eq_false_iff.mpr fun hall => ?_
  have hdash : '-' ∈ (cj.name ++ "-" ++ toString (now / 1000000000)).toList := by simp
  exact absurd (List.all_eq_true.mp hall '-' hdash) (by decide)

lemma spawnsJob_iff (cj : CronJob) : spawnsJob env now (cj.withPeriod s) w = true ↔
    cj.suspend = false ∧ (cj.lastRunAt.isZero = true ∨ seconds s ≤ Time.sub now cj.lastRunAt) := by
  unfold spawnsJob runCronJob
  split_ifs with h
  · refine iff_of_true ?_ h
    unfold upsertJob
    rw [if_neg (Bool.eq_false_iff.mp (blank_instantiate _))]
    rfl
  · exact iff_of_false (fun hany => by cases hany) h

lemma expiresJob_iff {job : Job} (hfin : job.Finished) :
    expiresJob env o now (job.withTTL s) w = true ↔
      0 < s ∧ job.completedAt.isZero = false ∧ seconds s ≤ Time.sub now job.completedAt := by
  have hbody : reconcileJob o now (job.withTTL s) =
      if 0 < s ∧ job.completedAt.isZero = false ∧ seconds s ≤ Time.sub now job.completedAt then
        (StateStore.deleteJob job.id).ignore
      else pure () := by
    unfold reconcileJob
    rcases hfin with h | h <;> simp only [Job.withTTL, h]
  unfold expiresJob
  rw [hbody]
  split_ifs with h
  · exact iff_of_true rfl h
  · exact iff_of_false (fun hany => by cases hany) h

/-! ### Exactness

Where the product is out of range, the comparison differs for what started at the epoch. -/

/-- A rollout in progress since the epoch. -/
def epochRollout : Deployment :=
  { id := "web", rolloutStatus := { phase := .progressing, startedAt := 0 } }

/-- A policy that has changed the replicas at the epoch. -/
def epochPolicy : AutoscalerPolicy :=
  { id := "p", deploymentID := "web", minReplicas := 1, maxReplicas := 2, lastScaleAt := 0 }

/-- A cron job that was started at the epoch. -/
def epochCronJob : CronJob :=
  { nameSpace := "default", name := "sweep", scheduleEveryS := 0, template := { name := "sweep" }
    lastRunAt := 0 }

/-- A job that has been completed at the epoch. -/
def epochJob : Job := { spec := { name := "sweep" }, status := .succeeded, completedAt := 0 }

def sampleAt (t : ℤ) : DeploymentMetricSample :=
  { id := "m", deploymentID := "web", timestamp := t, cpuUsage := 0, memoryUsage := 0 }

/-- The last moment at which a `time.Duration` tells how long ago the epoch was. -/
lemma sub_epoch : Time.sub (2 ^ 63 - 1) 0 = 2 ^ 63 - 1 := by decide

/-- At that moment every cooldown, period and lifetime has passed. -/
lemma seconds_le_sub_epoch (s : Int64) : seconds s ≤ Time.sub (2 ^ 63 - 1) 0 := by
  rw [sub_epoch]
  exact Int.le_sub_one_of_lt (wrap64_lt _)

lemma lt_of_not_inRange (h : ¬ InDurationRange s) :
    (2 ^ 63 - 1 : ℤ) < 0 + s.toInt * 1000000000 := by
  rw [InDurationRange] at h
  omega

section Exact

variable (h0 : 0 ≤ s)

include h0

lemma pos_of_not_inRange (h : ¬ InDurationRange s) : 0 < s := by
  have hpos : 0 ≤ s.toInt := Int64.le_iff_toInt_le.mp h0
  refine Int64.lt_iff_toInt_lt.mpr (lt_of_le_of_ne hpos fun hzero => h ?_)
  rw [InDurationRange, ← hzero]
  decide

lemma deadlineExact_iff : DeadlineExact s ↔ InDurationRange s := by
  constructor
  · intro hexact
    by_contra h
    have hpast : PastDeadline { steadyEnv with clock := fun _ => 2 ^ 63 }
        (epochRollout.withDeadline s) ⟨Store.empty, 0⟩ := by
      refine (pastDeadline_iff _).mpr ⟨rfl, pos_of_not_inRange h0 h, rfl, ?_⟩
      exact lt_of_eq_of_lt (zero_add _) (wrap64_lt _)
    obtain ⟨-, -, -, hlt⟩ := (hexact _ _ _).mp hpast
    exact h (lt_of_eq_of_lt (zero_add _).symm hlt)
  · intro h env w dep
    rw [pastDeadline_iff, seconds_eq_of_range h0 h]

lemma cooldownExact_iff (up : Bool) : CooldownExact up s ↔ InDurationRange s := by
  constructor
  · intro hexact
    by_contra h
    have hin : inCooldown (epochPolicy.withCooldown up s) up (2 ^ 63 - 1 : ℤ) = true :=
      (hexact _ _).mpr ⟨rfl, lt_of_not_inRange h⟩
    exact not_lt.mpr (seconds_le_sub_epoch s) ((inCooldown_iff _ up).mp hin).2
  · intro h now p
    rw [inCooldown_iff, ← not_le, seconds_le_sub_iff h0 h, not_le]

lemma periodExact_iff : PeriodExact s ↔ InDurationRange s := by
  constructor
  · intro hexact
    by_contra h
    have hdue : spawnsJob steadyEnv (2 ^ 63 - 1 : ℤ) (epochCronJob.withPeriod s)
        ⟨Store.empty, 0⟩ = true :=
      (spawnsJob_iff _).mpr ⟨rfl, .inr (seconds_le_sub_epoch s)⟩
    rcases (hexact _ _ _ _).mp hdue with ⟨-, hzero | hle⟩
    · exact absurd hzero (by decide)
    · exact not_lt.mpr hle (lt_of_not_inRange h)
  · intro h env w now cj
    rw [spawnsJob_iff, seconds_le_sub_iff h0 h]

lemma ttlExact_iff : TtlExact s ↔ InDurationRange s := by
  constructor
  · intro hexact
    by_contra h
    have hgone : expiresJob steadyEnv plainConfig (2 ^ 63 - 1 : ℤ) (epochJob.withTTL s)
        ⟨Store.empty, 0⟩ = true :=
      (expiresJob_iff (.inl rfl)).mpr ⟨pos_of_not_inRange h0 h, rfl, seconds_le_sub_epoch s⟩
    obtain ⟨-, -, hle⟩ := (hexact _ _ _ _ _ (.inl rfl)).mp hgone
    exact not_lt.mpr hle (lt_of_not_inRange h)
  · intro h env w o now job hfin
    rw [expiresJob_iff hfin, seconds_le_sub_iff h0 h]

/-- The start of the window, in range. -/
lemma windowStart_eq (h : InDurationRange s) :
    now + wrap64 (-s.toInt * 1000000000) = now - s.toInt * 1000000000 := by
  have hpos : 0 ≤ s.toInt := Int64.le_iff_toInt_le.mp h0
  rw [InDurationRange] at h
  have hwrap : wrap64 (-s.toInt * 1000000000) = -s.toInt * 1000000000 :=
    Int64.toInt_ofInt_of_le (by omega) (by omega)
  rw [hwrap]
  omega

lemma windowExact_iff : WindowExact s ↔ InDurationRange s := by
  constructor
  · intro hexact
    by_contra h
    -- the earlier sample belongs to the window, which never starts that early in the code
    have hstart := le_wrap64 (-s.toInt * 1000000000)
    have hstart' := wrap64_lt (-s.toInt * 1000000000)
    rw [InDurationRange] at h
    have hmem : sampleAt (-2 ^ 63 - 1) ∈ windowSamples (0 : ℤ) (epochPolicy.withWindow s)
        [sampleAt (-2 ^ 63 - 1), sampleAt (2 ^ 63)] := by
      have hin : (0 : ℤ) - s.toInt * 1000000000 ≤ -2 ^ 63 - 1 := by omega
      rw [hexact, mem_keptOrAll ⟨_, List.mem_cons_self, hin⟩]
      exact ⟨List.mem_cons_self, hin⟩
    have hlate : (0 : ℤ) + wrap64 (-s.toInt * 1000000000) ≤ 2 ^ 63 := by omega
    rw [windowSamples_eq, mem_keptOrAll ⟨sampleAt (2 ^ 63), by simp, hlate⟩] at hmem
    have hearly : (0 : ℤ) + wrap64 (-s.toInt * 1000000000) ≤ -2 ^ 63 - 1 := hmem.2
    omega
  · intro h now p samples
    rw [windowSamples_eq]
    simp only [windowStart_eq h0 h]

end Exact

/-! ### Longer settings -/

/-- With the setting `s` nothing is over earlier than with the setting `s'`. -/
structure NotShorter (s' s : Int64) : Prop where
  deadline (env : Env) (w : World) (dep : Deployment) : 0 < s' →
    PastDeadline env (dep.withDeadline s) w → PastDeadline env (dep.withDeadline s') w
  window (now : ℤ) (p : AutoscalerPolicy) (samples : List DeploymentMetricSample) :
    (∃ m ∈ samples, now - s'.toInt * 1000000000 ≤ m.timestamp) →
    windowSamples now (p.withWindow s') samples ⊆ windowSamples now (p.withWindow s) samples
  cooldown (up : Bool) (now : ℤ) (p : AutoscalerPolicy) :
    inCooldown (p.withCooldown up s') up now = true → inCooldown (p.withCooldown up s) up now = true
  period (env : Env) (w : World) (now : ℤ) (cj : CronJob) :
    spawnsJob env now (cj.withPeriod s) w = true → spawnsJob env now (cj.withPeriod s') w = true
  ttl (env : Env) (w : World) (o : Config) (now : ℤ) (job : Job) : job.Finished → 0 < s' →
    expiresJob env o now (job.withTTL s) w = true → expiresJob env o now (job.withTTL s') w = true

lemma InDurationRange.mono (h : InDurationRange s) (hle : s' ≤ s) : InDurationRange s' := by
  have hle' : s'.toInt ≤ s.toInt := Int64.le_iff_toInt_le.mp hle
  rw [InDurationRange] at h ⊢
  omega

/-- Exact comparisons are monotone in the setting. -/
lemma notShorter (h0 : 0 ≤ s') (hle : s' ≤ s) (h : InDurationRange s) : NotShorter s' s := by
  have h0s : 0 ≤ s := Int64.le_trans h0 hle
  have h' : InDurationRange s' := h.mono hle
  have hmul : s'.toInt * 1000000000 ≤ s.toInt * 1000000000 := by
    have := Int64.le_iff_toInt_le.mp hle
    omega
  have hadd (t : ℤ) : t + s'.toInt * 1000000000 ≤ t + s.toInt * 1000000000 :=
    Int.add_le_add_left hmul t
  refine ⟨fun env w dep hpos hpast => ?_, fun now p samples hne m hm => ?_,
    fun up now p hin => ?_, fun env w now cj hdue => ?_, fun env w o now job hfin hpos hgone => ?_⟩
  · obtain ⟨hphase, -, hstart, hlt⟩ := ((deadlineExact_iff h0s).mpr h env w dep).mp hpast
    exact ((deadlineExact_iff h0).mpr h' env w dep).mpr
      ⟨hphase, hpos, hstart, (hadd _).trans_lt hlt⟩
  · rw [(windowExact_iff h0).mpr h', mem_keptOrAll hne] at hm
    have hkeep : now - s.toInt * 1000000000 ≤ m.timestamp :=
      (Int.sub_le_sub_left hmul now).trans hm.2
    rw [(windowExact_iff h0s).mpr h, mem_keptOrAll ⟨m, hm.1, hkeep⟩]
    exact ⟨hm.1, hkeep⟩
  · obtain ⟨hzero, hlt⟩ := ((cooldownExact_iff h0 up).mpr h' now p).mp hin
    exact ((cooldownExact_iff h0s up).mpr h now p).mpr ⟨hzero, hlt.trans_le (hadd _)⟩
  · obtain ⟨hon, hzero | hge⟩ := ((periodExact_iff h0s).mpr h env w now cj).mp hdue
    · exact ((periodExact_iff h0).mpr h' env w now cj).mpr ⟨hon, .inl hzero⟩
    · exact ((periodExact_iff h0).mpr h' env w now cj).mpr
        ⟨hon, .inr ((hadd _).trans hge)⟩
  · obtain ⟨-, hzero, hge⟩ := ((ttlExact_iff h0s).mpr h env w o now job hfin).mp hgone
    exact ((ttlExact_iff h0).mpr h' env w o now job hfin).mpr
      ⟨hpos, hzero, (hadd _).trans hge⟩

/-- For each of the settings, the comparisons are those over unbounded integers exactly if the
duration is in range, and then a longer setting is never over earlier than a shorter one. -/
theorem timeouts_exact_iff (h0 : 0 ≤ s) :
    (DeadlineExact s ↔ InDurationRange s) ∧
    (WindowExact s ↔ InDurationRange s) ∧
    (∀ up, CooldownExact up s ↔ InDurationRange s) ∧
    (PeriodExact s ↔ InDurationRange s) ∧
    (TtlExact s ↔ InDurationRange s) ∧
    (InDurationRange s → ∀ s', 0 ≤ s' → s' ≤ s → NotShorter s' s) :=
  ⟨deadlineExact_iff h0, windowExact_iff h0, cooldownExact_iff h0, periodExact_iff h0,
    ttlExact_iff h0, fun h _ h0' hle => notShorter h0' hle h⟩

/-- A day is in range. -/
theorem timeouts_exact_iff_day : 0 ≤ (86400 : Int64) ∧ InDurationRange 86400 ∧
    DeadlineExact 86400 ∧ NotShorter 3600 86400 := by
  have h := timeouts_exact_iff (s := 86400) (by decide)
  exact ⟨by decide, by decide, h.1.mpr (by decide),
    h.2.2.2.2.2 (by decide) 3600 (by decide) (by decide)⟩

/-- One second after its start a rollout is past a deadline of 9223372037 seconds, but not past one
of a minute. -/
theorem long_deadline_expires_at_once :
    PastDeadline { steadyEnv with clock := fun _ => 1000000000 }
      (epochRollout.withDeadline 9223372037) ⟨Store.empty, 0⟩ ∧
    ¬ PastDeadline { steadyEnv with clock := fun _ => 1000000000 }
      (epochRollout.withDeadline 60) ⟨Store.empty, 0⟩ ∧
    ¬ DeadlineExact 9223372037 := by
  refine ⟨?_, fun h => ?_, fun h => ?_⟩
  · exact (pastDeadline_iff _).mpr ⟨rfl, by decide, rfl, by decide⟩
  · exact absurd ((pastDeadline_iff _).mp h).2.2.2 (by decide)
  · exact absurd ((deadlineExact_iff (by decide)).mp h) (by decide)

end Orchestrator
