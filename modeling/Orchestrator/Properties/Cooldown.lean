/-
# Bounds and cooldown of an autoscaler policy

A policy that `UpsertAutoscalerPolicy` has stored scales its deployment in the passes of the
autoscaler.  Between the passes anything may happen to the store, as long as the record of the
policy stays.  The run is watched: every replica count that the policy writes is put on a log.
What one pass adds to the log is `pass_scalings`; that all of it keeps to the policy is
`scalings_in_bounds_and_cooled`.
-/
import Mathlib
import Orchestrator.Lib.Run
import Orchestrator.Logic.Durations
import Orchestrator.Properties.Recommendations
import Orchestrator.Service.Tenancy

namespace Orchestrator

open Lib

/-! ### Policies as they are stored -/

namespace AutoscalerPolicy

/-- What stays of a policy when it scales. -/
def settings (p : AutoscalerPolicy) : AutoscalerPolicy :=
  { p with
    lastScaleAt := Time.zero, lastScaleDirection := "", createdAt := Time.zero,
    updatedAt := Time.zero }

lemma ScaledAt.settings_eq {p q : AutoscalerPolicy} {now : Time} (h : p.ScaledAt now q) :
    q.settings = p.settings := by
  rw [← congrArg settings h.rest]
  rfl

lemma ScaledAt.id_eq {p q : AutoscalerPolicy} {now : Time} (h : p.ScaledAt now q) : q.id = p.id := by
  rw [← congrArg AutoscalerPolicy.id h.rest]

/-- The bounds and the cooldowns make sense. -/
structure Normal (p : AutoscalerPolicy) : Prop where
  one_le : 1 ≤ p.minReplicas
  min_le_max : p.minReplicas ≤ p.maxReplicas
  up_pos : 0 < p.scaleUpCooldownSec
  down_pos : 0 < p.scaleDownCooldownSec

lemma eq_of_settings {p q : AutoscalerPolicy} (h : q.settings = p.settings) :
    q.minReplicas = p.minReplicas ∧ q.maxReplicas = p.maxReplicas ∧
      q.scaleUpCooldownSec = p.scaleUpCooldownSec ∧
      q.scaleDownCooldownSec = p.scaleDownCooldownSec := by
  injection h with _ _ hmin hmax _ _ _ _ _ _ _ _ hup hdown
  exact ⟨hmin, hmax, hup, hdown⟩

/-- A default replaces what is not positive. -/
lemma orDefault_pos {x y : Int64} (hy : 0 < y) : 0 < (if x ≤ 0 then y else x) := by
  split_ifs with hx
  · exact hy
  · exact Int64.not_le.mp hx

lemma withDefaults_normal (p : AutoscalerPolicy) : p.withDefaults.Normal where
  one_le := Int64.le_iff_toInt_le.mpr
    (Int64.lt_iff_toInt_lt.mp (orDefault_pos (x := p.minReplicas) (y := 1) (by decide)))
  min_le_max := by
    unfold withDefaults
    dsimp only
    generalize (if p.minReplicas ≤ 0 then 1 else p.minReplicas) = least
    split_ifs with h
    · exact Int64.le_refl _
    · exact Int64.not_lt.mp fun hlt => h (Or.inr hlt)
  up_pos := orDefault_pos (by decide)
  down_pos := orDefault_pos (by decide)

end AutoscalerPolicy

lemma storePolicy_returns {env : Env} {P : Rules} (p : AutoscalerPolicy) (w : World) :
    Returns env P (StateStore.upsertAutoscalerPolicy p) w fun _ w' => ∃ q,
      (w'.store .policy).get p.id = some q ∧ q.settings = p.settings := by
  refine (orNow_returns p.updatedAt w).bind fun u w₁ _ => ⟨trivial, (), rfl, { p with
    updatedAt := u, createdAt := if p.createdAt.isZero then u else p.createdAt }, ?_, rfl⟩
  exact (congrArg (fun T => Table.get T p.id) (Store.put_self w₁.store .policy _)).trans
    (Table.get_put_self (w₁.store .policy) _)

/-- What a call of `UpsertAutoscalerPolicy` that succeeds leaves behind. -/
lemma upsertAutoscalerPolicy_stores (env : Env) (input : AutoscalerPolicy) (w : World) :
    Holds env Rules.any (upsertAutoscalerPolicy input) w fun r w' => ∀ p, r = .ok p →
      p.Normal ∧ ∃ q, (w'.store .policy).get p.id = some q ∧ q.settings = p.settings := by
  unfold upsertAutoscalerPolicy
  split
  · exact fun p h => nomatch h
  refine find_bind (t := .deployment) (fun _ _ => ?_) fun _ p h => nomatch h
  refine Returns.bind (R := fun _ _ => True) ?_ fun id w₁ _ => ?_
  · split
    · exact ⟨trivial, trivial, _, rfl, trivial⟩
    · exact returns_pure trivial
  refine (orNow_returns _ w₁).bind fun createdAt w₂ _ => ?_
  refine (timeNow_returns w₂).bind fun updatedAt w₃ _ => ?_
  refine (storePolicy_returns _ w₃).bind fun _ w₄ hq => ?_
  rintro p ⟨⟩
  obtain ⟨hone, hmax, hup, hdown⟩ := input.withDefaults_normal
  exact ⟨⟨hone, hmax, hup, hdown⟩, hq⟩

/-! ### What a policy writes -/

/-- A replica count that a policy has written. -/
structure Scaling where
  time : Time
  /-- The replica count of the deployment before. -/
  replaced : ℤ
  count : ℤ
deriving DecidableEq, Repr

/-- The replica counts that are written in a turn; there are none if the deployment is not
stored. -/
def turnScalings (env : Env) (o : Config) (now : Time) (t : AutoscalerPolicy × World) :
    List Scaling :=
  match t.2.deps.get t.1.deploymentID with
  | none => []
  | some d => (written env o now t.1 t.2).map fun n => ⟨now, d.spec.replicas.toInt, n⟩

/-- The replica counts that the policy with the given id writes in a pass. -/
def scalings (env : Env) (o : Config) (id : String) (w : World) : List Scaling :=
  ((passTurns env o w).filter fun t => t.1.id = id).flatMap
    (turnScalings env o (env.clock w.tick))

namespace Scaling

/-- The cooldown of the direction that was taken. -/
def cooldown (p : AutoscalerPolicy) (s : Scaling) : Int64 :=
  if s.replaced < s.count then p.scaleUpCooldownSec else p.scaleDownCooldownSec

/-- The policy may write this count at the time `now`. -/
structure Sound (p : AutoscalerPolicy) (now : Time) (s : Scaling) : Prop where
  time : s.time = now
  least : p.minReplicas.toInt ≤ s.count
  most : s.count ≤ max p.minReplicas.toInt p.maxReplicas.toInt
  change : s.count ≠ s.replaced
  free : inCooldown p (decide (s.replaced < s.count)) now = false

end Scaling

/-- **A turn** writes nothing, or one count and the record of the policy. -/
lemma turn_scalings (env : Env) (o : Config) (now : Time) (p : AutoscalerPolicy) (w : World) :
    (turnScalings env o now (p, w) = [] ∧
      ((autoscalePolicy o now p).final (exec env) w).store .policy = w.store .policy) ∨
    ∃ s q, turnScalings env o now (p, w) = [s] ∧ s.Sound p now ∧ p.ScaledAt now q ∧
      ((autoscalePolicy o now p).final (exec env) w).store .policy = (w.store .policy).put q := by
  by_cases h : ∃ d, w.deps.get p.deploymentID = some d ∧ Scales o now p d w
  · obtain ⟨d, hd, hscales⟩ := h
    obtain ⟨⟨w', hrun, ⟨q, hq, hstore⟩, -⟩, hwritten⟩ := autoscalePolicy_scales env hd hscales
    refine Or.inr ⟨⟨now, d.spec.replicas.toInt, recommendation o now p d w⟩, q, ?_,
      ⟨rfl, ?_, ?_, hscales.change, ?_⟩, hq, ?_⟩
    · rw [turnScalings, hd]
      dsimp only
      rw [hwritten]
      rfl
    · exact (recommendedReplicas_bounds o.fl p _ _).1
    · exact (recommendedReplicas_bounds o.fl p _ _).2
    · exact Bool.eq_false_iff.mpr hscales.free
    · rw [Prog.final, hrun, hstore, Store.put_self, Store.put_of_ne _ _ _ _ (by decide)]
      rfl
  · obtain ⟨hrun, hwritten⟩ :=
      autoscalePolicy_idle env o now fun d hd hs => h ⟨d, hd, hs⟩
    refine Or.inl ⟨?_, by rw [Prog.final, hrun]⟩
    unfold turnScalings
    dsimp only
    rw [hwritten]
    split <;> rfl

/-! ### A pass -/

section Pass

variable {env : Env} {o : Config} {now : Time} {id : String} {p : AutoscalerPolicy} {w : World}

lemma turns_append (ps qs : List AutoscalerPolicy) (w : World) :
    turns env o now (ps ++ qs) w =
      turns env o now ps w ++ turns env o now qs (lastState env o now ps w) := by
  induction ps generalizing w with
  | nil => rfl
  | cons p ps ih => exact congrArg (List.cons _) (ih _)

/-- The turns of other policies leave the record of this one alone. -/
lemma turns_others (env : Env) (o : Config) (now : Time) {ps : List AutoscalerPolicy}
    (h : ∀ p ∈ ps, p.id ≠ id) (w : World) :
    (turns env o now ps w).filter (fun t => t.1.id = id) = [] ∧
      ((lastState env o now ps w).store .policy).get id = (w.store .policy).get id := by
  induction ps generalizing w with
  | nil => exact ⟨rfl, rfl⟩
  | cons p ps ih =>
    obtain ⟨hp, hps⟩ := List.forall_mem_cons.mp h
    obtain ⟨hnone, hget⟩ := ih hps ((autoscalePolicy o now p).final (exec env) w)
    refine ⟨?_, hget.trans ?_⟩
    · rw [turns, List.filter_cons_of_neg (by simpa using hp), hnone]
    · rcases turn_scalings env o now p w with ⟨-, hsame⟩ | ⟨s, q, -, -, hq, hput⟩
      · rw [hsame]
      · rw [hput]
        exact Table.get_put_of_ne _ fun h => hp (hq.id_eq.symm.trans h.symm)

/-- **A pass** adds at most one count to what a policy has written. -/
lemma pass_scalings (env : Env) (o : Config) (hp : (w.store .policy).get id = some p) :
    (scalings env o id w = [] ∧
      (((reconcileAutoscaling o).final (exec env) w).store .policy).get id = some p) ∨
    ∃ s q, scalings env o id w = [s] ∧ s.Sound p (env.clock w.tick) ∧
      p.ScaledAt (env.clock w.tick) q ∧
      (((reconcileAutoscaling o).final (exec env) w).store .policy).get id = some q := by
  have hid : p.id = id := Table.key_of_get hp
  obtain ⟨ps, qs, hrows⟩ := List.append_of_mem (Table.mem_of_get hp)
  have hnodup := (w.store .policy).nodup_keys
  rw [hrows, List.map_append, List.map_cons, List.nodup_append, List.nodup_cons] at hnodup
  have hps : ∀ r ∈ ps, r.id ≠ id := fun r hr h =>
    hnodup.2.2 _ (List.mem_map_of_mem hr) _ List.mem_cons_self (h.trans hid.symm)
  have hqs : ∀ r ∈ qs, r.id ≠ id := fun r hr h =>
    hnodup.2.1.1 (List.mem_map.mpr ⟨r, hr, h.trans hid.symm⟩)
  rw [scalings, passTurns, reconcileAutoscaling_final, hrows, turns_append]
  generalize env.clock w.tick = now
  set w₁ := lastState env o now ps { w with tick := w.tick + 1 } with hw₁
  set w₂ := (autoscalePolicy o now p).final (exec env) w₁ with hw₂
  obtain ⟨hbefore, hget₁⟩ := turns_others env o now hps { w with tick := w.tick + 1 }
  obtain ⟨hafter, hget₂⟩ := turns_others env o now hqs w₂
  rw [← hw₁] at hget₁
  have hlast : lastState env o now (ps ++ p :: qs) { w with tick := w.tick + 1 } =
      lastState env o now qs w₂ := by
    rw [lastState, List.foldl_append, List.foldl_cons]
    rfl
  rw [List.filter_append, hbefore, List.nil_append, turns,
    List.filter_cons_of_pos (by simpa using hid), ← hw₂, hafter, List.flatMap_singleton, hlast, hget₂]
  rcases turn_scalings env o now p w₁ with ⟨hnil, hsame⟩ | ⟨s, q, hs, hsound, hq, hput⟩
  · refine Or.inl ⟨hnil, ?_⟩
    rw [hw₂, hsame, hget₁]
    exact hp
  · refine Or.inr ⟨s, q, hs, hsound, hq, ?_⟩
    have hqid : q.id = id := hq.id_eq.trans hid
    rw [hw₂, hput, ← hqid]
    exact Table.get_put_self _ q

end Pass

/-! ### Runs -/

/-- What happens: a pass of the autoscaler, or something else. -/
inductive AutoscalerEvent
  | pass
  | other (next : World)

/-- A run that is watched. -/
structure AutoscalerRun where
  world : World
  log : List Scaling := []

/-- One event, seen from the policy with the given id. -/
def AutoscalerRun.step (env : Env) (o : Config) (id : String) : AutoscalerEvent → AutoscalerRun → AutoscalerRun
  | .pass, s => ⟨(reconcileAutoscaling o).final (exec env) s.world, s.log ++ scalings env o id s.world⟩
  | .other next, s => { s with world := next }

/-- Between the passes the policy is neither stored again nor deleted. -/
def AutoscalerRun.Untouched (id : String) : AutoscalerEvent → AutoscalerRun → Prop
  | .pass, _ => True
  | .other next, s => (next.store .policy).get id = (s.world.store .policy).get id

section Cooling

variable {env : Env} {o : Config} {p : AutoscalerPolicy} {s : AutoscalerRun}

/-- The cooldowns are in the range of a `time.Duration`. -/
def AutoscalerPolicy.CooldownsInRange (p : AutoscalerPolicy) : Prop :=
  p.scaleUpCooldownSec.toInt * 1000000000 < 2 ^ 63 ∧
    p.scaleDownCooldownSec.toInt * 1000000000 < 2 ^ 63

/-- What holds of a policy and its log. -/
structure Cooling (p : AutoscalerPolicy) (s : AutoscalerRun) : Prop where
  stored : ∃ q, (s.world.store .policy).get p.id = some q ∧ q.settings = p.settings ∧
    ∀ e, s.log.getLast? = some e → e.time = q.lastScaleAt ∧ e.time.isZero = false
  bounds : ∀ e ∈ s.log, p.minReplicas.toInt ≤ e.count ∧ e.count ≤ p.maxReplicas.toInt ∧
    e.count ≠ e.replaced
  cooled : s.log.IsChain fun e e' => (e'.cooldown p).toInt * 1000000000 ≤ e'.time - e.time

lemma AutoscalerPolicy.Normal.cooldown_pos (h : p.Normal) (e : Scaling) : 0 < e.cooldown p := by
  unfold Scaling.cooldown
  split_ifs
  · exact h.up_pos
  · exact h.down_pos

lemma AutoscalerPolicy.CooldownsInRange.cooldown_lt (h : p.CooldownsInRange) (e : Scaling) :
    (e.cooldown p).toInt * 1000000000 < 2 ^ 63 := by
  unfold Scaling.cooldown
  split_ifs
  · exact h.1
  · exact h.2

/-- What is past its cooldown is late enough. -/
lemma Scaling.Sound.cooldown_le {e e' : Scaling} {q : AutoscalerPolicy} {now : Time}
    (h : e'.Sound q now) (hnormal : p.Normal) (hrange : p.CooldownsInRange)
    (hq : q.settings = p.settings) (he : e.time = q.lastScaleAt) (hzero : e.time.isZero = false) :
    (e'.cooldown p).toInt * 1000000000 ≤ e'.time - e.time := by
  obtain ⟨-, -, hup, hdown⟩ := AutoscalerPolicy.eq_of_settings hq
  refine le_sub_iff_add_le'.mpr ((seconds_le_sub_iff (Int64.le_of_lt (hnormal.cooldown_pos e'))
    (hrange.cooldown_lt e')).mp (not_lt.mp fun hlt => ?_))
  refine Bool.eq_false_iff.mp h.free ?_
  unfold inCooldown
  rw [← he, hzero, ← h.time, hup, hdown]
  simpa [Scaling.cooldown] using hlt

lemma Cooling.step (hzero : ∀ k, (env.clock k).isZero = false) (hnormal : p.Normal)
    (hrange : p.CooldownsInRange) (e : AutoscalerEvent) (hs : Cooling p s)
    (hok : AutoscalerRun.Untouched p.id e s) : Cooling p (s.step env o p.id e) := by
  obtain ⟨q, hget, hset, hlast⟩ := hs.stored
  cases e with
  | other next => exact ⟨⟨q, Eq.trans hok hget, hset, hlast⟩, hs.bounds, hs.cooled⟩
  | pass =>
    rcases pass_scalings env o hget with ⟨hnil, hget'⟩ | ⟨e, q', he, hsound, hq', hget'⟩
    · have hlog : (s.step env o p.id .pass).log = s.log := by
        rw [AutoscalerRun.step, hnil, List.append_nil]
      refine ⟨⟨q, hget', hset, ?_⟩, ?_, ?_⟩
      · rw [hlog]
        exact hlast
      · rw [hlog]
        exact hs.bounds
      · rw [hlog]
        exact hs.cooled
    · have hlog : (s.step env o p.id .pass).log = s.log ++ [e] := by
        rw [AutoscalerRun.step, he]
      refine ⟨⟨q', hget', hq'.settings_eq.trans hset, ?_⟩, ?_, ?_⟩
      · rw [hlog, List.getLast?_concat]
        rintro _ ⟨⟩
        exact ⟨hsound.time.trans hq'.lastScaleAt.symm, hsound.time ▸ hzero _⟩
      · rw [hlog, List.forall_mem_append, List.forall_mem_singleton]
        obtain ⟨hmin, hmax, -, -⟩ := AutoscalerPolicy.eq_of_settings hset
        have hle := Int64.le_iff_toInt_le.mp hnormal.min_le_max
        refine ⟨hs.bounds, hmin ▸ hsound.least, ?_, hsound.change⟩
        rw [← max_eq_right hle, ← hmin, ← hmax]
        exact hsound.most
      · rw [hlog, List.isChain_append]
        refine ⟨hs.cooled, List.isChain_singleton _, ?_⟩
        rintro e₁ he₁ _ ⟨⟩
        obtain ⟨htime, hnz⟩ := hlast e₁ he₁
        exact hsound.cooldown_le hnormal hrange hset htime hnz

/-- **Bounds and cooldown.** However the passes of the autoscaler are mixed with other changes of
the store, a stored policy keeps sensible bounds, writes counts within them, each another one than
the deployment had, and leaves the cooldown of the direction taken after the one before. -/
theorem scalings_in_bounds_and_cooled (env : Env) (hzero : ∀ k, (env.clock k).isZero = false)
    (o : Config) (input p : AutoscalerPolicy) (w₀ w : World)
    (hstored : (upsertAutoscalerPolicy input).run (exec env) w₀ = (.ok p, w))
    (hrange : p.CooldownsInRange) (s : AutoscalerRun)
    (hrun : Runs (AutoscalerRun.step env o p.id) (AutoscalerRun.Untouched p.id) { world := w } s) :
    (∃ q, (s.world.store .policy).get p.id = some q ∧ 1 ≤ q.minReplicas ∧
      q.minReplicas ≤ q.maxReplicas ∧ q.settings = p.settings) ∧
    (∀ e ∈ s.log, p.minReplicas.toInt ≤ e.count ∧ e.count ≤ p.maxReplicas.toInt ∧
      e.count ≠ e.replaced) ∧
    s.log.IsChain fun e e' => (e'.cooldown p).toInt * 1000000000 ≤ e'.time - e.time := by
  have hleft := (upsertAutoscalerPolicy_stores env input w₀).run
  rw [Prog.result, Prog.final, hstored] at hleft
  obtain ⟨hnormal, q, hget, hset⟩ := hleft p rfl
  have hstart : Cooling p { world := w } :=
    ⟨⟨q, hget, hset, fun _ he => (by cases he)⟩, fun _ he => (by cases he), List.isChain_nil⟩
  have hend := hrun.invariant hstart fun e s hs hok => hs.step hzero hnormal hrange e hok
  obtain ⟨q', hget', hset', -⟩ := hend.stored
  obtain ⟨hmin, hmax, -, -⟩ := AutoscalerPolicy.eq_of_settings hset'
  refine ⟨⟨q', hget', ?_, ?_, hset'⟩, hend.bounds, hend.cooled⟩
  · rw [hmin]
    exact hnormal.one_le
  · rw [hmin, hmax]
    exact hnormal.min_le_max

/-- The policy that is stored for `evenPolicy`. -/
def policed : AutoscalerPolicy :=
  { evenPolicy.withDefaults with createdAt := tickingEnv.clock 0, updatedAt := tickingEnv.clock 1 }

/-- It has been stored for a loaded deployment. -/
def policedWorld : World :=
  (upsertAutoscalerPolicy evenPolicy).final (exec tickingEnv) (sampledWorld 100 40)

/-- A pass, half a minute, and another pass. -/
def twoPasses : List AutoscalerEvent :=
  [.pass, .other { (reconcileAutoscaling plainConfig).final (exec tickingEnv) policedWorld with
    tick := 35 }, .pass]

theorem scalings_in_bounds_and_cooled_twice :
    let s := after (AutoscalerRun.step tickingEnv plainConfig "p1") twoPasses { world := policedWorld }
    s.log.map Scaling.count = [8, 10] ∧
      s.log.IsChain fun e e' => (e'.cooldown policed).toInt * 1000000000 ≤ e'.time - e.time := by
  intro s
  have hstored : (upsertAutoscalerPolicy evenPolicy).run (exec tickingEnv) (sampledWorld 100 40) =
      (.ok policed, policedWorld) := rfl
  have hrun : Runs (AutoscalerRun.step tickingEnv plainConfig "p1") (AutoscalerRun.Untouched "p1")
      { world := policedWorld } s := Runs.of_list twoPasses ⟨trivial, rfl, trivial, trivial⟩
  refine ⟨by decide +kernel, ?_⟩
  exact (scalings_in_bounds_and_cooled tickingEnv tickingEnv_clock_nonzero plainConfig evenPolicy
    policed (sampledWorld 100 40) policedWorld hstored ⟨by decide, by decide⟩ s hrun).2.2

end Cooling

end Orchestrator
