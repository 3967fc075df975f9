/-
# Cron jobs

A run of passes of `reconcileJobsAndCron`, with a log of the jobs that cron jobs have spawned.
A pass decides from the copies of the cron jobs that it has listed.  A cron job that is listed
twice, once for the default namespace and once for a registered one, is started twice; a cron
job that every pass lists once is started at most once in a period.
-/
import Orchestrator.Logic.Durations
import Orchestrator.Logic.Frames
import Orchestrator.System

namespace Orchestrator

open Lib

/-! ### Spawned jobs -/

/-- The call stores a job. -/
def Call.storesJob : Call → Bool
  | .put .job _ => true
  | _ => false

/-- The body of the loop over the cron jobs stores a job. -/
def spawnsJob (env : Env) (now : Time) (cj : CronJob) (w : World) : Bool :=
  ((runCronJob now cj).calls (exec env) w).any fun x => x.1.storesJob

/-- The cron jobs for which the loop stores a job, in order. -/
def spawners (env : Env) (now : Time) : List CronJob → World → List CronJob
  | [], _ => []
  | cj :: rest, w =>
    (if spawnsJob env now cj w then [cj] else []) ++
      spawners env now rest ((runCronJob now cj).final (exec env) w)

/-- The cron jobs that a pass goes through, in order. -/
def World.listedCronJobs (w : World) : List CronJob :=
  w.byNamespace .cronJob keyCronJobPrefix

/-! ### Runs -/

/-- A pass, or a change to tables other than that of the cron jobs. -/
inductive CronEvent
  | pass
  | change (settings : Store)

/-- The state, and the jobs spawned so far: the key of the cron job and the time of the
pass. -/
structure CronSys where
  world : World
  spawned : List (String × Time)

def CronSys.step (env : Env) (o : Config) (e : CronEvent) (s : CronSys) : CronSys :=
  match e with
  | .pass =>
    -- the pass lists the cron jobs, reads the clock, and then goes through them
    let now := env.clock s.world.tick
    let jobs := spawners env now s.world.listedCronJobs { s.world with tick := s.world.tick + 1 }
    { world := (reconcileJobsAndCron o).final (exec env) s.world
      spawned := s.spawned ++ jobs.map fun cj => (Tbl.key .cronJob cj, now) }
  | .change settings =>
    { s with world := { s.world with
        store := fun t => if t = .cronJob then s.world.store t else settings t } }

/-- Nothing has been spawned yet. -/
def CronSys.start (w : World) : CronSys := { world := w, spawned := [] }

/-- Two jobs of one cron job of `w₀` are spawned at different times, at least its period
apart. -/
def Spaced (w₀ : World) (spawned : List (String × Time)) : Prop :=
  spawned.Pairwise fun a b => a.1 = b.1 → a.2 < b.2 ∧
    ∀ cj ∈ w₀.cronJobs.rows, Tbl.key .cronJob cj = a.1 →
      cj.scheduleEveryS.toInt * 1000000000 ≤ b.2 - a.2

/-- A pass lists every cron job once, and the periods in nanoseconds do not overflow. -/
def CronEvent.Orderly : CronEvent → CronSys → Prop
  | .pass, s => (s.world.listedCronJobs.map (Tbl.key .cronJob)).Nodup ∧
      ∀ cj ∈ s.world.listedCronJobs, cj.scheduleEveryS ≤ 9223372036
  | .change _, _ => True

instance CronEvent.decidableOrderly (e : CronEvent) (s : CronSys) : Decidable (e.Orderly s) :=
  match e with
  | .pass => inferInstanceAs (Decidable (List.Nodup _ ∧ ∀ cj ∈ s.world.listedCronJobs, _))
  | .change _ => .isTrue trivial

/-! ### The body of the loop -/

variable {env : Env} {o : Config} {w : World} {now : Time} {cj : CronJob}

/-- The cron job is due. -/
def CronJob.Due (cj : CronJob) (now : Time) : Prop :=
  cj.suspend = false ∧ (cj.lastRunAt.isZero ∨
    seconds cj.scheduleEveryS ≤ Time.sub now cj.lastRunAt)

/-- The record of a cron job that has been started. -/
structure Started (cj : CronJob) (now : Time) (cj' : CronJob) : Prop where
  key : Tbl.key .cronJob cj' = Tbl.key .cronJob cj
  lastRunAt : cj'.lastRunAt = now
  every : cj'.scheduleEveryS = if cj.scheduleEveryS ≤ 0 then 60 else cj.scheduleEveryS

lemma upsertJob_returns {job : Job} (hname : blank job.spec.name = false) (w : World) :
    Returns env openRules (upsertJob job) w fun _ w' => w'.cronJobs = w.cronJobs := by
  have hcron := (upsertJob_writesIn job).spares (t := .cronJob) (by decide)
  have hok : Returns env openRules (upsertJob job) w fun _ _ => True := by
    unfold upsertJob
    rw [if_neg (by simp [hname])]
    refine Returns.bind (R := fun _ _ => True) ?_ fun id w₁ _ => ?_
    · split
      · exact ⟨trivial, _, rfl, trivial⟩
      · exact ⟨_, rfl, trivial⟩
    · refine (storeJob_returns _ w₁).bind ?_
      rintro _ w₂ ⟨j, hput, hid, -⟩
      have hj : j.id = id := hid
      refine find_returns (v := j) ?_ trivial
      rw [← hj]
      exact (congrArg (Table.get · j.id) hput).trans (Table.get_put_self _ j)
  refine (hcron.frame hok).mono ?_
  rintro _ w' ⟨⟨j, rfl, -⟩, hw'⟩
  exact ⟨j, rfl, hw'⟩

lemma upsertCronJob_returns (cj : CronJob) (w : World) :
    Returns env openRules (StateStore.upsertCronJob { cj with lastRunAt := now }) w fun _ w' =>
      ∃ cj', w'.cronJobs = w.cronJobs.put cj' ∧ Started cj now cj' := by
  have hput : ∀ (c : CronJob) (w : World),
      World.cronJobs ⟨w.store.put .cronJob c, w.tick⟩ = w.cronJobs.put c.viaJSON :=
    fun c w => Store.put_self _ _ _
  unfold StateStore.upsertCronJob orNow
  split
  · exact ⟨trivial, trivial, trivial, (), rfl, _, hput _ _, ⟨rfl, rfl, rfl⟩⟩
  · exact ⟨trivial, trivial, (), rfl, _, hput _ _, ⟨rfl, rfl, rfl⟩⟩

/-- The body of the loop stores neither a job nor the cron job, or the cron job was due and
its record carries the time of the pass. -/
inductive CronStep (env : Env) (now : Time) (cj : CronJob) (w w' : World) : Prop
  | skipped (hs : spawnsJob env now cj w = false) (h : w'.cronJobs = w.cronJobs)
  | started (hdue : cj.Due now) (cj' : CronJob) (hs : Started cj now cj')
      (h : w'.cronJobs = w.cronJobs.put cj')

lemma runCronJob_returns (now : Time) (cj : CronJob) (w : World) :
    Returns env openRules (runCronJob now cj) w fun _ w' => CronStep env now cj w w' := by
  have hskip : ∀ _ : runCronJob now cj = pure (), CronStep env now cj w w := fun h =>
    .skipped (by rw [spawnsJob, h]; rfl) rfl
  by_cases hdue : cj.Due now
  swap
  · have h : runCronJob now cj = pure () := if_neg hdue
    rw [h]
    exact ⟨(), rfl, hskip h⟩
  unfold CronJob.Due at hdue
  by_cases hname : blank (cj.instantiate now).spec.name = true
  · have h : runCronJob now cj = pure () := by
      unfold runCronJob upsertJob
      rw [if_pos hdue, if_pos hname]
      rfl
    rw [h]
    exact ⟨(), rfl, hskip h⟩
  · unfold runCronJob
    rw [if_pos hdue]
    refine (upsertJob_returns (Bool.eq_false_iff.mpr hname) w).attempt_bind fun _ w₁ hw₁ => ?_
    refine (upsertCronJob_returns cj w₁).ignore ?_
    rintro _ w₂ ⟨cj', hput, hstart⟩
    exact .started hdue cj' hstart (hput.trans (by rw [hw₁]))

/-! ### A pass -/

/-- What ties the log to the stored cron jobs: a stored period is at least the one at the
start, and a cron job that has spawned a job carries the time of the last one. -/
structure Clocked (w₀ w : World) (spawned : List (String × Time)) : Prop where
  spaced : Spaced w₀ spawned
  periods : ∀ k cj, w.cronJobs.get k = some cj →
    ∃ cj₀ ∈ w₀.cronJobs.rows, Tbl.key .cronJob cj₀ = k ∧ cj₀.scheduleEveryS ≤ cj.scheduleEveryS
  last : ∀ a ∈ spawned, ∃ cj, w.cronJobs.get a.1 = some cj ∧ a.2 ≤ cj.lastRunAt ∧
    cj.lastRunAt.isZero = false ∧ 0 < cj.scheduleEveryS

lemma Clocked.of_cronJobs {w₀ w' : World} {spawned : List (String × Time)}
    (h : Clocked w₀ w spawned) (hw : w'.cronJobs = w.cronJobs) : Clocked w₀ w' spawned := by
  refine ⟨h.spaced, ?_, ?_⟩ <;> rw [hw]
  · exact h.periods
  · exact h.last

lemma Clocked.of_append {w₀ : World} {l l' : List (String × Time)} (h : Clocked w₀ w (l ++ l')) :
    Clocked w₀ w l :=
  ⟨(List.pairwise_append.mp h.spaced).1, h.periods, fun a ha => h.last a (List.mem_append_left _ ha)⟩

/-- A job that is spawned by a due cron job comes a period after the last one. -/
lemma CronJob.Due.later (hdue : cj.Due now) (hlast : cj.lastRunAt.isZero = false)
    (h0 : 0 < cj.scheduleEveryS) (hmax : cj.scheduleEveryS ≤ 9223372036) :
    cj.lastRunAt + cj.scheduleEveryS.toInt * 1000000000 ≤ now := by
  obtain ⟨-, hz | hge⟩ := hdue
  · rw [hlast] at hz
    cases hz
  · rw [Int64.le_iff_toInt_le] at hmax
    have hm : (9223372036 : Int64).toInt = 9223372036 := by decide
    exact (seconds_le_sub_iff (Int64.le_of_lt h0) (by unfold InDurationRange; omega)).mp hge

/-- A time that lies a positive period back. -/
lemma lt_of_period {t u p : ℤ} (hp : 0 < p) (h : t + p * 1000000000 ≤ u) : t < u := by omega

lemma period_le_sub {t u p q : ℤ} (hq : q ≤ p) (h : t + p * 1000000000 ≤ u) :
    q * 1000000000 ≤ u - t := by omega

lemma Started.every_pos {cj' : CronJob} (h : Started cj now cj') : 0 < cj'.scheduleEveryS := by
  rw [h.every]
  split
  · decide
  · next hpos => exact Int64.not_le.mp hpos

lemma Started.every_le {cj' : CronJob} (h : Started cj now cj') :
    cj.scheduleEveryS ≤ cj'.scheduleEveryS := by
  rw [h.every]
  split
  · next hle => exact Int64.le_trans hle (by decide)
  · exact Int64.le_refl _

section Pass

variable {w₀ : World} {spawned : List (String × Time)} (hnow : now.isZero = false)
include hnow

/-- One more job, of a cron job that is stored as it was listed. -/
lemma Clocked.started {w' : World} {cj' : CronJob} (h : Clocked w₀ w spawned)
    (hget : w.cronJobs.get (Tbl.key .cronJob cj) = some cj) (hmax : cj.scheduleEveryS ≤ 9223372036)
    (hdue : cj.Due now) (hs : Started cj now cj') (hput : w'.cronJobs = w.cronJobs.put cj') :
    Clocked w₀ w' (spawned ++ [(Tbl.key .cronJob cj, now)]) := by
  -- an earlier job of the same cron job lies a period back
  have hback : ∀ a ∈ spawned, a.1 = Tbl.key .cronJob cj →
      a.2 + cj.scheduleEveryS.toInt * 1000000000 ≤ now ∧ 0 < cj.scheduleEveryS.toInt := by
    intro a ha hk
    obtain ⟨c, hc, hle, hnz, hpos⟩ := h.last a ha
    rw [hk, hget] at hc
    obtain rfl := Option.some.inj hc
    have hlater := hdue.later hnz hpos hmax
    rw [Int64.lt_iff_toInt_lt] at hpos
    exact ⟨le_trans (add_le_add_left hle _) hlater, hpos⟩
  have hself : w'.cronJobs.get (Tbl.key .cronJob cj) = some cj' := by
    rw [hput, ← hs.key]
    exact Table.get_put_self _ _
  have hother : ∀ k, k ≠ Tbl.key .cronJob cj → w'.cronJobs.get k = w.cronJobs.get k := by
    intro k hk
    rw [hput]
    exact Table.get_put_of_ne _ (by rwa [hs.key])
  refine ⟨?_, ?_, ?_⟩
  · refine List.pairwise_append.mpr ⟨h.spaced, List.pairwise_singleton _ _, ?_⟩
    intro a ha b hb hk
    obtain rfl := List.mem_singleton.mp hb
    obtain ⟨hge, hpos⟩ := hback a ha hk
    refine ⟨lt_of_period hpos hge, ?_⟩
    intro cj₀ hcj₀ hkey
    obtain ⟨cj₁, hcj₁, hk₁, hle⟩ := h.periods _ _ hget
    obtain rfl : cj₁ = cj₀ := Table.eq_of_mem_of_key_eq hcj₁ hcj₀ (by rw [hk₁, hkey, hk])
    exact period_le_sub (Int64.le_iff_toInt_le.mp hle) hge
  · intro k c hc
    by_cases hk : k = Tbl.key .cronJob cj
    · subst hk
      rw [hself] at hc
      obtain rfl := Option.some.inj hc
      obtain ⟨cj₀, hcj₀, hk₀, hle⟩ := h.periods _ _ hget
      exact ⟨cj₀, hcj₀, hk₀, Int64.le_trans hle hs.every_le⟩
    · rw [hother k hk] at hc
      exact h.periods k c hc
  · intro a ha
    rcases List.mem_append.mp ha with ha | ha
    · by_cases hk : a.1 = Tbl.key .cronJob cj
      · obtain ⟨hge, hpos⟩ := hback a ha hk
        refine ⟨cj', by rw [hk, hself], ?_, by rw [hs.lastRunAt, hnow], hs.every_pos⟩
        rw [hs.lastRunAt]
        exact (lt_of_period hpos hge).le
      · rw [hother _ hk]
        exact h.last a ha
    · rw [List.mem_singleton.mp ha]
      exact ⟨cj', hself, by rw [hs.lastRunAt], by rw [hs.lastRunAt, hnow], hs.every_pos⟩

lemma Clocked.loop (l : List CronJob) {w : World} (h : Clocked w₀ w spawned)
    (hstored : ∀ cj ∈ l, w.cronJobs.get (Tbl.key .cronJob cj) = some cj)
    (hnodup : (l.map (Tbl.key .cronJob)).Nodup) (hmax : ∀ cj ∈ l, cj.scheduleEveryS ≤ 9223372036) :
    Returns env openRules (Prog.forEach l (runCronJob now)) w fun _ w' =>
      Clocked w₀ w' (spawned ++ (spawners env now l w).map fun cj => (Tbl.key .cronJob cj, now)) := by
  induction l generalizing w spawned with
  | nil => exact ⟨(), rfl, by simpa [spawners] using h⟩
  | cons cj rest ih =>
    rw [List.map_cons, List.nodup_cons] at hnodup
    refine (runCronJob_returns now cj w).self.bind ?_ ?_
    · rintro _ w₁ ⟨-, rfl, _, -, hstep⟩
      have hw₁ : Clocked w₀ ((runCronJob now cj).final (exec env) w)
          (spawned ++ (if spawnsJob env now cj w then [cj] else []).map
            fun cj => (Tbl.key .cronJob cj, now)) := by
        cases hstep with
        | skipped hs hw => simpa [hs] using h.of_cronJobs hw
        | started hdue cj' hs hput =>
          have hnew := h.started hnow (hstored cj (by simp)) (hmax cj (by simp)) hdue hs hput
          split
          · exact hnew
          · simpa using hnew.of_append
      -- the other listed cron jobs have other keys
      have hrest : ∀ c ∈ rest, ((runCronJob now cj).final (exec env) w).cronJobs.get
          (Tbl.key .cronJob c) = some c := by
        intro c hc
        have hold := hstored c (by simp [hc])
        cases hstep with
        | skipped _ hw => rwa [hw]
        | started _ cj' hs hput =>
          rw [hput, Table.get_put_of_ne]
          · exact hold
          · rw [hs.key]
            exact fun hk => hnodup.1 (hk ▸ List.mem_map_of_mem hc)
      refine (ih hw₁ hrest hnodup.2 fun c hc => hmax c (by simp [hc])).mono ?_
      intro _ w' hw'
      rwa [List.append_assoc, ← List.map_append] at hw'
    · rintro _ w₁ ⟨-, -, _, ⟨⟩, -⟩

end Pass

/-- The pass over the jobs leaves the cron jobs alone. -/
lemma forEach_reconcileJob_holds (l : List Job) (w : World) :
    Holds env openRules (Prog.forEach l (reconcileJob o now)) w fun _ w' =>
      w'.cronJobs = w.cronJobs := by
  have hwrites : WritesIn jobTables (Prog.forEach l (reconcileJob o now)) :=
    .forEach fun j _ => reconcileJob_writesIn o now j
  have hrun : Steers env (fun _ => True) (fun _ => True) (Prog.forEach l (reconcileJob o now)) w :=
    .forEach fun j _ w' => steers_reconcileJob trivial
  exact ((hwrites.spares (by decide)).frame hrun).mono fun _ _ h => h.2

lemma Clocked.pass {w₀ : World} {spawned : List (String × Time)}
    (hzero : ∀ k, (env.clock k).isZero = false) (h : Clocked w₀ w spawned)
    (hnodup : (w.listedCronJobs.map (Tbl.key .cronJob)).Nodup)
    (hmax : ∀ cj ∈ w.listedCronJobs, cj.scheduleEveryS ≤ 9223372036) :
    Holds env openRules (reconcileJobsAndCron o) w fun _ w' =>
      Clocked w₀ w' (spawned ++ (spawners env (env.clock w.tick) w.listedCronJobs
        { w with tick := w.tick + 1 }).map fun cj => (Tbl.key .cronJob cj, env.clock w.tick)) := by
  refine ⟨trivial, list_bind (lists_bind ⟨trivial, ?_⟩)⟩
  have htick : Clocked w₀ { w with tick := w.tick + 1 } spawned := h.of_cronJobs rfl
  refine (htick.loop (hzero w.tick) w.listedCronJobs ?_ hnodup hmax).bind ?_
  · intro cj hcj
    exact Table.get_of_mem (World.mem_of_byNamespace hcj)
  · intro _ w₁ hw₁
    refine listJobs_bind (listsJobs_bind ((forEach_reconcileJob_holds _ w₁).mono ?_))
    intro _ w₂ hw₂
    exact hw₁.of_cronJobs hw₂

/-- **A cron job fires at most once in a period**: in every run in which each pass lists every
cron job once, two jobs spawned by one cron job are spawned at different times, at least its
period apart. -/
theorem cron_fires_once_per_period (env : Env) (o : Config) (w₀ : World) {s : CronSys}
    (hzero : ∀ k, (env.clock k).isZero = false)
    (h : Runs (CronSys.step env o) CronEvent.Orderly (CronSys.start w₀) s) :
    Spaced w₀ s.spawned := by
  have hclocked : Clocked w₀ s.world s.spawned := by
    refine h.invariant (I := fun s => Clocked w₀ s.world s.spawned) ?_ ?_
    · refine ⟨.nil, ?_, by simp [CronSys.start]⟩
      intro k cj hcj
      exact ⟨cj, Table.mem_of_get hcj, Table.key_of_get hcj, Int64.le_refl _⟩
    · intro e s hs hok
      cases e with
      | pass => exact (hs.pass hzero hok.1 hok.2).run
      | change settings =>
        refine hs.of_cronJobs ?_
        change (if Tbl.cronJob = .cronJob then s.world.store .cronJob else settings .cronJob) = _
        exact if_pos rfl
  exact hclocked.spaced

/-- A cron job that is due every two seconds. -/
def everyTwoSeconds (ns : String) : CronJob :=
  { nameSpace := ns, name := "tidy", scheduleEveryS := 2,
    template := { name := "tidy", template := { image := "img" } } }

/-- A store with that cron job and a record of its namespace. -/
def cronWorld (ns : String) : World :=
  { store := (Store.empty.put .cronJob (everyTwoSeconds ns)).put .nameSpace
      { name := ns, tenant := "default" }
    tick := 0 }

theorem cron_fires_once_per_period_team :
    let s := after (CronSys.step tickingEnv plainConfig) [.pass, .pass] (.start (cronWorld "team"))
    s.spawned.length = 2 ∧ Spaced (cronWorld "team") s.spawned :=
  ⟨by decide +kernel, cron_fires_once_per_period tickingEnv plainConfig (cronWorld "team")
    tickingEnv_clock_nonzero (.of_list _ (by decide +kernel))⟩

/-- A cron job of the default namespace is listed twice once that namespace has a record, and
one pass starts it twice. -/
theorem cron_fires_twice :
    let s := after (CronSys.step tickingEnv plainConfig) [.pass] (.start (cronWorld "default"))
    s.spawned = [("cronjob:default:tidy", tickingEnv.clock 0),
      ("cronjob:default:tidy", tickingEnv.clock 0)] ∧
      s.world.jobs.rows.length = 2 ∧ ¬ Spaced (cronWorld "default") s.spawned := by
  refine ⟨by decide +kernel, by decide +kernel, ?_⟩
  unfold Spaced
  decide +kernel

end Orchestrator
