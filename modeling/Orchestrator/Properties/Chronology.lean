/-
# The order of listings

Events, transitions and samples are listed in the order of keys that contain the time as a text.
The texts have no trailing zeros in the fraction of a second, and so a later record can have the
smaller key (`Overtakes`).  A listing has the latest records in the order of their times, for every
limit, exactly if no two of the records are of this kind.
-/
import Orchestrator.Lib.Latest
import Orchestrator.Logic.Effects
import Orchestrator.Logic.Timestamps
import Orchestrator.Store.Log
import Orchestrator.System

namespace Orchestrator

open Lib

variable {t t' : ℤ} {pfx id id' : String}

/-! ### Keys with a time -/

/-- A key with a time in it. -/
def timeKey (pfx : String) (t : Time) (id : String) : String :=
  pfx ++ formatRFC3339Nano t ++ ":" ++ id

lemma toList_timeKey (pfx : String) (t : Time) (id : String) : (timeKey pfx t id).toList =
    pfx.toList ++ ((formatRFC3339Nano t).toList ++ ':' :: id.toList) := by
  have hcolon : ":".toList = [':'] := rfl
  rw [timeKey, String.toList_append, String.toList_append, String.toList_append, hcolon,
    List.append_assoc, List.append_assoc, List.singleton_append]

/-- The key of the later record is smaller exactly if it overtakes the other one. -/
lemma timeKey_order (ht : InYears t) (ht' : InYears t') (h : t < t') (pfx id id' : String) :
    (Overtakes t t' ∧ timeKey pfx t' id' < timeKey pfx t id) ∨
      (¬ Overtakes t t' ∧ timeKey pfx t id < timeKey pfx t' id') := by
  simp only [String.lt_iff_toList_lt, toList_timeKey]
  exact (format_order ht ht' h (':' :: id.toList) (':' :: id'.toList)).imp
    (And.imp_right (append_left_lt _)) (And.imp_right (append_left_lt _))

lemma time_eq_of_timeKey (ht : InYears t) (ht' : InYears t')
    (h : timeKey pfx t id = timeKey pfx t' id') : t = t' := by
  rcases lt_trichotomy t t' with hlt | heq | hlt
  · rcases timeKey_order ht ht' hlt pfx id id' with ⟨-, hkey⟩ | ⟨-, hkey⟩
    · exact absurd h hkey.ne'
    · exact absurd h hkey.ne
  · exact heq
  · rcases timeKey_order ht' ht hlt pfx id' id with ⟨-, hkey⟩ | ⟨-, hkey⟩
    · exact absurd h hkey.ne
    · exact absurd h hkey.ne'

/-! ### Listings -/

section Listing

variable {V : Type} {time : V → ℤ} {ident : V → String} {key : V → String} {items : List V}
  (hsorted : items.Pairwise fun a b => key a < key b)
  (hkey : ∀ v ∈ items, key v = timeKey pfx (time v) (ident v))
  (hyears : ∀ v ∈ items, InYears (time v))

include hsorted hkey hyears

/-- Records in the order of their keys are in the order of their times exactly if none overtakes
another one. -/
lemma pairwise_time_iff_not_overtakes : (items.Pairwise fun a b => time a ≤ time b) ↔
    ∀ a ∈ items, ∀ b ∈ items, ¬ Overtakes (time a) (time b) := by
  rw [pairwise_time_iff hsorted]
  refine forall₂_congr fun a ha => forall₂_congr fun b hb => ?_
  rw [hkey a ha, hkey b hb]
  constructor
  · intro h hover
    rcases timeKey_order (hyears a ha) (hyears b hb) hover.1 pfx (ident a) (ident b) with
      ⟨-, hlt⟩ | ⟨hnot, -⟩
    · exact absurd (hlt.trans (h hover.1)) (lt_irrefl _)
    · exact hnot hover
  · intro h hlt
    rcases timeKey_order (hyears a ha) (hyears b hb) hlt pfx (ident a) (ident b) with
      ⟨hover, -⟩ | ⟨-, hkey⟩
    · exact absurd hover h
    · exact hkey

end Listing

/-- A listing has the latest records for every limit. -/
def Chronological {V : Type} (time : V → ℤ) (all : List V) (list : ℤ → List V) : Prop :=
  ∀ limit : ℤ, Latest time (effectiveLimit limit) all (list limit)

lemma effectiveLimit_natCast {n : ℕ} (h : 0 < n) : effectiveLimit n = n := by
  have hpos : ¬ (n : ℤ) ≤ 0 := by omega
  rw [effectiveLimit, if_neg hpos, Int.toNat_natCast]

/-- What a listing has for every limit, it has for every number of records. -/
lemma Chronological.latest {V : Type} {time : V → ℤ} {all items : List V}
    (h : Chronological time all (lastOf · items)) (n : ℕ) (hn : 0 < n) :
    Latest time n all (items.drop (items.length - n)) := by
  have hlimit : Latest time (effectiveLimit n) all (items.drop (items.length - effectiveLimit n)) :=
    h n
  rwa [effectiveLimit_natCast hn] at hlimit

/-! ### Logs -/

section Log

variable {V : Type} {time : V → ℤ} {ident : V → String}
  {recs : List V}

/-- The records that are stored one after another. -/
abbrev logOf (pfx : String) (time : V → ℤ) (ident : V → String) (recs : List V) :
    Table V fun v => timeKey pfx (time v) (ident v) := Table.ofList recs

variable (hyears : ∀ v ∈ recs, InYears (time v))

include hyears

/-- The times in a log are those of the records that were stored. -/
lemma mem_times_iff {x : ℤ} :
    x ∈ (logOf pfx time ident recs).rows.map time ↔ x ∈ recs.map time := by
  constructor
  · intro h
    obtain ⟨v, hv, rfl⟩ := List.mem_map.mp h
    rcases Table.mem_of_mem_foldl_put hv with hrec | ⟨hempty, -⟩
    · exact List.mem_map_of_mem hrec
    · cases hempty
  · intro h
    obtain ⟨v, hv, rfl⟩ := List.mem_map.mp h
    obtain ⟨v', hv', hkey⟩ := Table.exists_mem_foldl_put (t := (Table.empty :
      Table V fun v => timeKey pfx (time v) (ident v))) hv
    rcases Table.mem_of_mem_foldl_put hv' with hrec | ⟨hempty, -⟩
    · rw [← time_eq_of_timeKey (hyears v' hrec) (hyears v hv) hkey]
      exact List.mem_map_of_mem hv'
    · cases hempty

/-- A log is listed in the order of the times exactly if no record overtakes another one. -/
lemma chronological_logOf_iff (pfx : String) (ident : V → String) :
    Chronological time (logOf pfx time ident recs).rows
      (lastOf · (logOf pfx time ident recs).rows) ↔
    ∀ a ∈ recs, ∀ b ∈ recs, ¬ Overtakes (time a) (time b) := by
  have hrows : ∀ v ∈ (logOf pfx time ident recs).rows, InYears (time v) := by
    intro v hv
    obtain ⟨u, hu, huv⟩ := List.mem_map.mp
      ((mem_times_iff hyears).mp (List.mem_map_of_mem (f := time) hv))
    exact huv ▸ hyears u hu
  have hpairs := pairwise_time_iff_not_overtakes (logOf pfx time ident recs).sorted
    (fun v _ => rfl) hrows
  have hcond : (∀ a ∈ (logOf pfx time ident recs).rows, ∀ b ∈ (logOf pfx time ident recs).rows,
      ¬ Overtakes (time a) (time b)) ↔ ∀ a ∈ recs, ∀ b ∈ recs, ¬ Overtakes (time a) (time b) := by
    have hmap : ∀ l : List V, (∀ a ∈ l, ∀ b ∈ l, ¬ Overtakes (time a) (time b)) ↔
        ∀ x ∈ l.map time, ∀ y ∈ l.map time, ¬ Overtakes x y := by
      intro l
      simp only [List.forall_mem_map]
    rw [hmap, hmap]
    simp only [mem_times_iff hyears]
  rw [← hcond, ← hpairs]
  constructor
  · exact fun h => (pairwise_of_latest h.latest).2
  · exact fun h limit => latest_drop (Table.nodup_rows _) h _

end Log

/-- A call of `AppendEvent`, with the readings of the clock. -/
structure EventAppend where
  nano : Time
  now : Time
  event : EventRecord

def EventAppend.recorded (x : EventAppend) : EventRecord := x.event.recorded x.nano x.now

/-- The events after a sequence of calls. -/
def eventsAfter (appends : List EventAppend) : EventLog :=
  after (fun x log => appendEvent x.nano x.now x.event log) appends Table.empty

/-- A call of `AppendControlPlaneTransition`, with the reading of the clock. -/
structure TransitionAppend where
  now : Time
  transition : ControlPlaneTransition

def TransitionAppend.recorded (x : TransitionAppend) : ControlPlaneTransition :=
  x.transition.recorded x.now

/-- The transitions after a sequence of calls. -/
def transitionsAfter (appends : List TransitionAppend) : TransitionLog :=
  after (fun x log => appendControlPlaneTransition x.now x.transition log) appends Table.empty

/-- Records that are appended one after another. -/
lemma after_put {E V : Type} {key : V → String} (rec : E → V) (l : List E) (log : Table V key) :
    after (fun x log => log.put (rec x)) l log = (l.map rec).foldl Table.put log := by
  induction l generalizing log with
  | nil => rfl
  | cons x l ih => exact ih _

lemma eventsAfter_eq (appends : List EventAppend) : eventsAfter appends =
    logOf "event:" EventRecord.timestamp EventRecord.id (appends.map EventAppend.recorded) :=
  after_put EventAppend.recorded appends _

lemma transitionsAfter_eq (appends : List TransitionAppend) : transitionsAfter appends =
    logOf "transition:" ControlPlaneTransition.createdAt ControlPlaneTransition.id
      (appends.map TransitionAppend.recorded) :=
  after_put TransitionAppend.recorded appends _

/-! ### Samples -/

section Samples

variable {env : Env} {w : World} {d : String}

/-- The samples of a deployment. -/
def samplesOf (w : World) (d : String) : List DeploymentMetricSample :=
  (w.store .metric).rows.filter fun m : DeploymentMetricSample => m.deploymentID = d

/-- The samples under the key prefix of a deployment are its own. -/
def OwnSamples (w : World) (d : String) : Prop :=
  ∀ m ∈ w.store.list .metric (keyDeploymentMetricPrefix d),
    DeploymentMetricSample.deploymentID m = d

lemma listDeploymentMetrics_result (limit : ℤ) :
    (StateStore.listDeploymentMetrics d limit).result (exec env) w =
      .ok (lastOf limit (w.store.list .metric (keyDeploymentMetricPrefix d))) := rfl

lemma mem_list_of_mem_samplesOf {m : DeploymentMetricSample} (h : m ∈ samplesOf w d) :
    m ∈ w.store.list .metric (keyDeploymentMetricPrefix d) := by
  obtain ⟨hm, hd⟩ := List.mem_filter.mp h
  have hd' : m.deploymentID = d := of_decide_eq_true hd
  refine Store.mem_list_iff.mpr ⟨hm, hasPrefix_iff.mpr
    ⟨formatRFC3339Nano m.timestamp ++ ":" ++ m.id, ?_⟩⟩
  change keyDeploymentMetric m.deploymentID m.timestamp m.id = _
  rw [keyDeploymentMetric, hd', String.append_assoc, String.append_assoc, String.append_assoc]

/-- Then the listing starts from the samples of the deployment. -/
lemma OwnSamples.list_eq (h : OwnSamples w d) :
    w.store.list .metric (keyDeploymentMetricPrefix d) = samplesOf w d := by
  refine Table.rows_eq_of_mem_iff (Store.list_sorted _ _ _) ((w.store .metric).sorted.filter _) ?_
  intro m
  constructor
  · intro hm
    exact List.mem_filter.mpr ⟨Store.mem_list hm, decide_eq_true (h m hm)⟩
  · exact mem_list_of_mem_samplesOf

lemma chronological_samples_iff
    (hyears : ∀ m ∈ (w.store .metric).rows, InYears (DeploymentMetricSample.timestamp m)) :
    Chronological DeploymentMetricSample.timestamp (samplesOf w d)
        (lastOf · (w.store.list .metric (keyDeploymentMetricPrefix d))) ↔
      OwnSamples w d ∧ ∀ a ∈ samplesOf w d, ∀ b ∈ samplesOf w d,
        ¬ Overtakes a.timestamp b.timestamp := by
  have hkey : ∀ m ∈ samplesOf w d, Tbl.key .metric m =
      timeKey (keyDeploymentMetricPrefix d) m.timestamp m.id := by
    intro m hm
    have hd : m.deploymentID = d := of_decide_eq_true (List.mem_filter.mp hm).2
    rw [← hd]
    rfl
  have hsorted : (samplesOf w d).Pairwise fun a b => Tbl.key .metric a < Tbl.key .metric b :=
    (w.store .metric).sorted.filter _
  have hpairs := pairwise_time_iff_not_overtakes hsorted hkey fun m hm =>
    hyears m (List.mem_filter.mp hm).1
  constructor
  · intro h
    obtain ⟨hmem, hordered⟩ := pairwise_of_latest h.latest
    have hown : OwnSamples w d := fun m hm =>
      of_decide_eq_true (List.mem_filter.mp (hmem m hm)).2
    rw [hown.list_eq] at hordered
    exact ⟨hown, hpairs.mp hordered⟩
  · rintro ⟨hown, hnot⟩ limit
    rw [hown.list_eq]
    exact latest_drop ((w.store .metric).nodup_rows.filter _) (hpairs.mpr hnot) _

end Samples

/-- Each of the three listings returns the latest records in the order of their times, for every
limit, exactly if no record overtakes another one; for samples, also none of another deployment may
be stored under the prefix. -/
theorem listings_chronological_iff (events : List EventAppend)
    (transitions : List TransitionAppend) (env : Env) (w : World) (d : String) :
    ((∀ x ∈ events, InYears x.recorded.timestamp) →
      (Chronological EventRecord.timestamp (eventsAfter events).rows
          (fun limit => listEvents limit (eventsAfter events)) ↔
        ∀ x ∈ events, ∀ y ∈ events,
          ¬ Overtakes x.recorded.timestamp y.recorded.timestamp)) ∧
    ((∀ x ∈ transitions, InYears x.recorded.createdAt) →
      (Chronological ControlPlaneTransition.createdAt (transitionsAfter transitions).rows
          (fun limit => listControlPlaneTransitions limit (transitionsAfter transitions)) ↔
        ∀ x ∈ transitions, ∀ y ∈ transitions,
          ¬ Overtakes x.recorded.createdAt y.recorded.createdAt)) ∧
    ((∀ m ∈ (w.store .metric).rows, InYears (DeploymentMetricSample.timestamp m)) →
      ((∀ limit : ℤ, ∃ l, (StateStore.listDeploymentMetrics d limit).result (exec env) w = .ok l ∧
          Latest DeploymentMetricSample.timestamp (effectiveLimit limit) (samplesOf w d) l) ↔
        OwnSamples w d ∧ ∀ a ∈ samplesOf w d, ∀ b ∈ samplesOf w d,
          ¬ Overtakes a.timestamp b.timestamp)) := by
  refine ⟨fun hyears => ?_, fun hyears => ?_, fun hyears => ?_⟩
  · have hlog := chronological_logOf_iff (List.forall_mem_map.mpr hyears) "event:" EventRecord.id
    simp only [List.forall_mem_map] at hlog
    rw [eventsAfter_eq]
    exact hlog
  · have hlog := chronological_logOf_iff (List.forall_mem_map.mpr hyears) "transition:"
      ControlPlaneTransition.id
    simp only [List.forall_mem_map] at hlog
    rw [transitionsAfter_eq]
    exact hlog
  · rw [← chronological_samples_iff hyears]
    simp only [listDeploymentMetrics_result]
    exact forall_congr' fun limit => by simp

/-- Events of the examples. -/
def eventAt (t : Time) (id : String) : EventAppend where
  nano := 0
  now := 0
  event :=
    { id := id, timestamp := t, level := .info, type := "node", reason := "Ready", message := "" }

/-- A second and a half apart. -/
theorem listings_chronological_iff_apart :
    (∀ x ∈ [eventAt 1700000000000000000 "a", eventAt 1700000001500000000 "b"],
      InYears x.recorded.timestamp) ∧
    Chronological EventRecord.timestamp
      (eventsAfter [eventAt 1700000000000000000 "a", eventAt 1700000001500000000 "b"]).rows
      (fun limit => listEvents limit
        (eventsAfter [eventAt 1700000000000000000 "a", eventAt 1700000001500000000 "b"])) := by
  have hyears : ∀ x ∈ [eventAt 1700000000000000000 "a", eventAt 1700000001500000000 "b"],
      InYears x.recorded.timestamp := by decide
  have hiff := (listings_chronological_iff _ [] steadyEnv ⟨Store.empty, 0⟩ "").1 hyears
  exact ⟨hyears, hiff.mpr (by decide)⟩

/-- Half a second apart: the newer event has the smaller key, and the older one is returned. -/
theorem newest_event_dropped :
    (eventAt 1700000000000000000 "a").recorded.timestamp <
      (eventAt 1700000000500000000 "b").recorded.timestamp ∧
    listEvents 1 (eventsAfter [eventAt 1700000000000000000 "a", eventAt 1700000000500000000 "b"]) =
      [(eventAt 1700000000000000000 "a").recorded] := by
  decide +kernel

end Orchestrator
