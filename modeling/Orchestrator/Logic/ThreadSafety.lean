/-
# The control-plane functions follow the protocol

One lemma for each function that `ReconcileAll`, `ReportWorkloadStatus` and the calls on
deployments are made of: whatever its calls are answered, a thread that runs it follows the
protocol `watching`.  Most functions keep an invariant of what the thread knows: that it does not
hold the mutex (`Out`), that it holds the mutex and the record is as its copy (`Holding`), or that
it has last seen the record as its copy (`Aware`).
-/
import Orchestrator.Logic.Threads
import Orchestrator.Logic.Workers

namespace Orchestrator

open Lib

variable {id : String} {o : Config} {l : View} {α β : Type} {p : M α} {I : View → Prop}
  {d d' : Deployment} {k : String} {b : Bool} {x : Option Bool} {v : Workload} {ws : List Workload}

/-- The program keeps an invariant of what a thread knows. -/
abbrev Keeps (id : String) (I : View → Prop) (p : M α) : Prop := (watching id).Keeps I p

/-- An invariant that also holds when the thread has read more workloads. -/
class Lasting (I : View → Prop) : Prop where
  meet : ∀ l vs, I l → I (l.meet vs)

/-! ### Calm programs -/

/-- The program makes calm calls only. -/
abbrev Calm (p : M α) : Prop := Makes (fun c => c.calm = true) p

instance : HasModest fun c : Call => c.calm = true where
  modest c hc := by cases c <;> first | exact hc | rfl | cases hc

lemma calm_upsertNode (n : Node) : Calm (StateStore.upsertNode n) :=
  Makes.upsertNode fun _ => rfl

lemma calm_enqueueAssignment (a : Assignment) : Calm (StateStore.enqueueAssignment a) :=
  Makes.enqueueAssignment fun _ => rfl

lemma calm_follows [Lasting I] {R : Except Err α → Prop}
    (h : p.Only (fun c => c.calm = true) R) (hl : I l) :
    (watching id).Follows p l fun r l => R r ∧ I l := by
  refine Protocol.Follows.of_only (fun c l hc hl => ⟨allows_calm hc l, fun a _ => ?_⟩) h hl
  change I (View.note id c a l)
  rw [view_calm hc]
  exact Lasting.meet l _ hl

lemma keeps_calm [Lasting I] (h : Calm p) : Keeps id I p := fun _ hl =>
  (calm_follows h hl).mono fun _ _ h => h.2

lemma keeps_now [Lasting I] {f : Time → M β} (hf : ∀ t, Keeps id I (f t)) :
    Keeps id I (timeNow >>= f) := .bind (keeps_calm (.call rfl)) hf

/-! ### Workloads -/

/-- Besides, the thread has read the workloads. -/
def Met (I : View → Prop) (ws : List Workload) (l : View) : Prop := I l ∧ ws ⊆ l.met

instance [Lasting I] : Lasting (Met I ws) where
  meet l vs h := ⟨Lasting.meet l vs h.1, fun _ hv => List.mem_append_right _ (h.2 hv)⟩

/-- A workload that has been read may be stored again. -/
lemma Met.mayStore (h : Met I ws l) (hv : v ∈ ws) : l.MayStore id v := fun _ =>
  Or.inl ⟨v, h.2 hv, rfl, rfl⟩

lemma met_note (c : Call) (a : c.Res) (l : View) : l.met ⊆ (View.note id c a l).met := by
  have hmeet : ∀ vs, l.met ⊆ (l.meet vs).met := fun vs => List.subset_append_right vs l.met
  unfold View.note
  split <;> first | exact fun _ h => h | exact hmeet _ | (split <;> exact fun _ h => h)

lemma follows_met {Q : Except Err α → View → Prop} (h : (watching id).Follows p l Q) :
    (watching id).Follows p l fun r l' => Q r l' ∧ l.met ⊆ l'.met := by
  induction p generalizing l with
  | ret r => exact ⟨h, fun _ hv => hv⟩
  | call c k ih =>
    refine ⟨h.1, fun a ha => (ih a (h.2 a ha)).mono fun r l' h' => ⟨h'.1, ?_⟩⟩
    exact fun _ hv => h'.2 (met_note c a l hv)

/-- What has been read is not forgotten. -/
lemma keeps_met (hp : Keeps id I p) : Keeps id (Met I ws) p := fun l h =>
  (follows_met (hp l h.1)).mono fun _ _ h' => ⟨h'.1, fun _ hv => h'.2 (h.2 hv)⟩

lemma keeps_listed [Lasting I] {f : List Workload → M β} (hf : ∀ ws, Keeps id (Met I ws) (f ws)) :
    Keeps id I (StateStore.listWorkloads >>= f) := fun l hl => ⟨trivial, fun ws _ =>
  (hf ws _ ⟨Lasting.meet l ws hl, List.subset_append_left _ _⟩).mono fun _ _ h => h.1⟩

lemma follows_deployed [Lasting I] {f : List Workload → M β} {Q : Except Err β → View → Prop}
    (hl : I l) (hf : ∀ ws l', Met I ws l' → (watching id).Follows (f ws) l' Q) :
    (watching id).Follows (StateStore.listWorkloadsByDeployment k >>= f) l Q :=
  ⟨trivial, fun ws _ => hf _ _ ⟨Lasting.meet l ws hl, fun _ hv =>
    List.mem_append_left _ (List.mem_of_mem_filter hv)⟩⟩

lemma keeps_deployed [Lasting I] {f : List Workload → M β}
    (hf : ∀ ws, Keeps id (Met I ws) (f ws)) :
    Keeps id I (StateStore.listWorkloadsByDeployment k >>= f) := fun _ hl =>
  follows_deployed hl fun ws l' h => (hf ws l' h).mono fun _ _ h => h.1

lemma keeps_upsertWorkload [Lasting I] (h : ∀ l, I l → l.MayStore id v) :
    Keeps id I (StateStore.upsertWorkload v) :=
  keeps_now fun _ l hl => ⟨h l hl, fun _ _ => hl⟩

lemma keeps_terminateWorkload [Lasting I] (hv : v ∈ ws) :
    Keeps id (Met I ws) (terminateWorkload v) :=
  .bind (keeps_upsertWorkload (v := { v with status := .terminating })
    fun _ hl => Met.mayStore (v := v) hl hv) fun _ => keeps_calm (calm_enqueueAssignment _)

/-- The loops that terminate workloads. -/
lemma keeps_terminateAll [Lasting I] {vs : List Workload} (h : vs ⊆ ws) :
    Keeps id (Met I ws) (Prog.forEach vs enqueueDeleteForWorkload) :=
  .forEach fun _ hv => keeps_terminateWorkload (h hv)

lemma keeps_scaleDown [Lasting I] (dep : Deployment) (plan : RolloutPlan) {old : List Workload}
    (total : ℤ) (h : old ⊆ ws) : Keeps id (Met I ws) (scaleDown dep plan old total) :=
  .bind (.onlyIf (keeps_terminateAll fun _ hv => h (mem_pickScaleDownVictims hv).1)) fun _ =>
    keeps_deployed fun _ => .onlyIf (keeps_terminateAll fun _ hv =>
      List.mem_of_mem_filter (mem_pickScaleDownVictims hv).1)

lemma keeps_createWorkload [Lasting I] {dep : Deployment}
    (h : ∀ l, I l → dep.id = id → l.held = true ∧ l.mark = some false) :
    Keeps id I (createWorkloadForDeployment o dep) :=
  .bind (keeps_calm (makes_chooseNode (fun _ => rfl) (fun _ => rfl) dep)) fun _ =>
    keeps_now fun _ => .bind (keeps_calm (.call rfl)) fun _ => keeps_now fun _ => keeps_now fun _ =>
    .bind (keeps_upsertWorkload fun l hl hd => Or.inr (h l hl hd)) fun _ =>
    .bind (keeps_calm (calm_upsertNode _)) fun _ =>
    .bind (keeps_calm (makes_resolveSecretFiles dep)) fun _ =>
    keeps_calm (calm_enqueueAssignment _)

lemma keeps_createReplicas [Lasting I] {dep : Deployment} (n : ℕ)
    (h : ∀ l, I l → dep.id = id → l.held = true ∧ l.mark = some false) :
    Keeps id I (createReplicas o dep n) := by
  induction n with
  | zero => exact .ret _
  | succ n ih =>
    refine .attempt_bind (keeps_createWorkload h) ?_
    rintro (e | _)
    · exact .ret _
    · exact ih

/-! ### Sections under the mutex -/

/-- The thread holds the mutex and a copy of the record of `k` with the mark `b`, which agrees with
the stored record.  If this is another record than the observed one, of that one the thread has last
seen `x`. -/
structure Holding (id : String) (x : Option Bool) (k : String) (b : Bool) (l : View) : Prop where
  held : l.held = true
  mark : k = id → l.mark = some b
  seen : k = id → l.seen = some b
  other : k ≠ id → l.seen = x

instance : Lasting (Holding id x k b) := ⟨fun _ _ h => ⟨h.held, h.mark, h.seen, h.other⟩⟩

lemma note_put_self (hd : d.id = id) {a : Unit} : (watching id).note (.put .deployment d) a l =
    { l.saw (some d.isMarked) with marked := l.marked || d.isMarked } := if_pos hd

lemma note_put_of_ne (hd : d.id ≠ id) {a : Unit} :
    (watching id).note (.put .deployment d) a l = l := if_neg hd

/-- The copy is written back, with the id and the mark it has. -/
lemma keeps_update (hid : d.id = k) (hm : d.isMarked = b) :
    Keeps id (Holding id x k b) (StateStore.updateDeployment d) := by
  intro l h
  refine ⟨fun hd => Or.inl ⟨h.held, b, h.mark (hid.symm.trans hd), fun hb => hm.trans hb⟩,
    fun _ _ => ?_⟩
  by_cases hd : d.id = id
  · rw [note_put_self hd, hm]
    exact ⟨h.held, fun _ => rfl, fun _ => rfl, fun hne => absurd (hid.symm.trans hd) hne⟩
  · rwa [note_put_of_ne hd]

/-- The program makes calm calls only, and what it returns has the id and the mark of `d`. -/
abbrev Redrafts (d : Deployment) (p : M Deployment) : Prop :=
  p.Only (fun c => c.calm = true) fun r =>
    ∀ d', r = .ok d' → d'.id = d.id ∧ d'.isMarked = d.isMarked

namespace Redrafts

lemma ret (hid : d'.id = d.id) (hm : d'.isMarked = d.isMarked) : Redrafts d (pure d') := by
  rintro _ ⟨⟩
  exact ⟨hid, hm⟩

lemma now {f : Time → M Deployment} (hf : ∀ t, Redrafts d (f t)) : Redrafts d (timeNow >>= f) :=
  ⟨rfl, hf⟩

/-- A change of the record that stays off the store. -/
lemma of_keepsCore {p : M Deployment} (hp : KeepsCore d.core p) : Redrafts d p := by
  refine (hp.weaken fun _ => Call.calm_of_oracle).mono ?_
  rintro _ ⟨d', rfl, hcore⟩ _ ⟨⟩
  obtain ⟨hid, -, -, -, hdel⟩ := DepCore.mk.inj hcore
  exact ⟨hid, by rw [Deployment.isMarked, hdel]; rfl⟩

lemma rollbackLocked (hid : d'.id = d.id) (hm : d'.isMarked = d.isMarked) (rev : ℤ)
    (message : String) : Redrafts d (rollbackDeploymentLocked d' rev message) := by
  unfold rollbackDeploymentLocked
  split
  · exact .ret hid hm
  · exact .now fun _ => .ret hid hm

lemma keeps [Lasting I] {p : M Deployment} (hp : Redrafts d p) {f : Deployment → M β}
    (hf : ∀ d', d'.id = d.id → d'.isMarked = d.isMarked → Keeps id I (f d')) :
    Keeps id I (p >>= f) := fun _ hl =>
  (calm_follows hp hl).bind (fun d' l h => hf d' (h.1 d' rfl).1 (h.1 d' rfl).2 l h.2)
    fun _ _ h => h.2

end Redrafts

lemma keeps_failRollout : Keeps id (Holding id x d.id d.isMarked) (failRollout d) := by
  refine keeps_now fun _ => keeps_now fun _ => keeps_now fun _ => Redrafts.keeps (d := d) ?_
    fun _ hid hm => keeps_now fun _ => keeps_update hid hm
  split
  · exact .rollbackLocked rfl rfl _ _
  · exact .ret rfl rfl

lemma keeps_placementFailed (phase : RolloutPhase) (e : Err) :
    Keeps id (Holding id x d.id d.isMarked) (placementFailed d phase e) :=
  keeps_now fun _ => keeps_now fun _ => keeps_now fun _ => keeps_now fun _ => keeps_update rfl rfl

lemma keeps_finishPass (plan : RolloutPlan) :
    Keeps id (Holding id x d.id d.isMarked) (finishPass d plan) :=
  keeps_deployed fun _ => .bind (.onlyIf (keeps_scaleDown d plan _ fun _ hv =>
      List.mem_of_mem_filter (List.mem_of_mem_filter hv))) fun _ =>
    keeps_deployed fun _ => (Redrafts.of_keepsCore (keepsCore_rolloutStatus d _ _)).keeps
      fun _ hid hm => keeps_met (keeps_met (keeps_update hid hm))

lemma keeps_reconcileReplicas (hd : d.id = id → d.isMarked = false) :
    Keeps id (Holding id x d.id d.isMarked) (reconcileReplicas o d) := by
  refine keeps_deployed fun ws => .bind (keeps_createReplicas _ fun l h he => ?_) ?_
  · exact ⟨h.1.held, hd he ▸ h.1.mark he⟩
  · rintro (_ | e)
    · exact keeps_met (keeps_finishPass _)
    · exact keeps_met (keeps_placementFailed _ e)

lemma follows_withLock {Q : Except Err α → View → Prop}
    (h : (watching id).Follows p { l with held := true, mark := none } fun r l' =>
      l'.held = true ∧ Q r { l' with held := false }) :
    (watching id).Follows (withLock p) l Q :=
  ⟨trivial, fun _ _ => h.attempt_bind fun _ _ hl => ⟨hl.1, fun _ _ => hl.2⟩⟩

/-- After a section on the record of `k`: a thread that had last seen `x` of another record still
has. -/
structure Unlocked (id k : String) (x : Option Bool) (l : View) : Prop where
  held : l.held = false
  other : k ≠ id → l.seen = x

lemma note_get (a : Option Deployment) (l : View) : (watching id).note (.get .deployment k) a l =
    if k = id then l.saw (a.map Deployment.isMarked) else l := rfl

/-- The operations that look up a record under the mutex and go on with it. -/
lemma follows_onRecord {f : Deployment → M α} {P : Except Err α → View → Prop}
    (herr : ∀ e l', P (.error e) l')
    (hf : ∀ d l', d.id = k → Holding id l.seen k d.isMarked l' →
      (k = id → l.seen = some false → d.isMarked = false) →
      (watching id).Follows (f d) l' fun r l₂ => l₂.held = true ∧ (k ≠ id → l₂.seen = l.seen) ∧
        P r { l₂ with held := false }) :
    (watching id).Follows (withLock (StateStore.getDeployment k >>= f)) l fun r l' =>
      Unlocked id k l.seen l' ∧ P r l' := by
  refine follows_withLock ⟨trivial, fun a ha => ?_⟩
  rw [note_get]
  cases a with
  | none =>
    refine ⟨?_, ⟨rfl, fun hk => ?_⟩, herr _ _⟩
    · split <;> rfl
    · rw [if_neg hk]
  | some d =>
    refine (hf d _ (ha.1 d rfl) ⟨?_, fun hk => ?_, fun hk => ?_, fun hk => ?_⟩
      fun hk hseen => ?_).mono fun r l₂ h => ⟨h.1, ⟨rfl, h.2.1⟩, h.2.2⟩
    · split <;> rfl
    · rw [if_pos hk]
      rfl
    · rw [if_pos hk]
      rfl
    · rw [if_neg hk]
    · simpa using ha.2 hk rfl hseen

/-- What follows keeps the copy in agreement with the record. -/
lemma follows_section {f : Deployment → M α}
    (hf : ∀ d, d.id = k → (k = id → l.seen = some false → d.isMarked = false) →
      Keeps id (Holding id l.seen k d.isMarked) (f d)) :
    (watching id).Follows (withLock (StateStore.getDeployment k >>= f)) l fun r l' =>
      Unlocked id k l.seen l' ∧
        ((∃ a, r = .ok a) → k = id → l.seen = some false → l'.seen = some false) := by
  refine follows_onRecord (by rintro _ _ ⟨_, ⟨⟩⟩) fun d l' hkey hold hunmarked => ?_
  refine (hf d hkey hunmarked l' hold).mono fun r l₂ h => ⟨h.held, h.other, fun _ hk hseen => ?_⟩
  exact (h.seen hk).trans (congrArg some (hunmarked hk hseen))

/-- A pass over a deployment that the thread has last seen unmarked. -/
lemma follows_reconcileDeployment (h : k = id → l.seen = some false) :
    (watching id).Follows (reconcileDeployment o k) l fun r l' => Unlocked id k l.seen l' ∧
      ((∃ a, r = .ok a) → k = id → l'.seen = some false) := by
  refine (follows_section fun d hkey hunmarked => ?_).mono
    fun _ _ h' => ⟨h'.1, fun hr hk => h'.2 hr hk (h hk)⟩
  subst hkey
  refine .bind (keeps_calm (makes_progressDeadline _)) ?_
  rintro (_ | _)
  · exact keeps_reconcileReplicas (d := d.prepared) fun hd => hunmarked hd (h hd)
  · exact keeps_failRollout (d := d.prepared)

lemma follows_reconcileDeletion (k : String) :
    (watching id).Follows (reconcileDeletion k) l fun _ l' => Unlocked id k l.seen l' := by
  refine (follows_onRecord (P := fun _ _ => True) (fun _ _ => trivial)
    fun d l₁ hkey hold _ => ?_).mono fun _ _ h => h.1
  refine follows_deployed hold fun ws l₂ hmet => ?_
  refine Protocol.Follows.bind (Protocol.Keeps.forEach (fun v hv => ?_) _ hmet)
    (fun _ l₂ h₂ => ?_) fun _ l₂ h₂ => ⟨h₂.1.held, h₂.1.other, trivial⟩
  · split
    · exact .ret _
    · exact keeps_terminateWorkload hv
  · split
    · exact ⟨h₂.1.held, h₂.1.other, trivial⟩
    dsimp only
    split
    · exact (keeps_update hkey rfl l₂ h₂.1).mono fun _ _ h => ⟨h.held, h.other, trivial⟩
    · refine ⟨fun _ => h₂.1.held, fun _ _ => ?_⟩
      have hview : (watching id).note (.deleteDeployment d.id) () l₂ =
          if d.id = id then { l₂ with mark := none } else l₂ := rfl
      rw [hview]
      split <;> exact ⟨h₂.1.held, h₂.1.other, trivial⟩

/-! ### The calls on deployments -/

/-- The record is marked. -/
lemma follows_mark (h : Holding id x k b l) (hid : d.id = k) (hm : d.isMarked = true) :
    (watching id).Follows (StateStore.updateDeployment d) l fun _ l' =>
      l'.held = true ∧ (k ≠ id → l'.seen = x) ∧ (k = id → l'.marked = true) := by
  subst hid
  refine ⟨fun hd => Or.inl ⟨h.held, b, h.mark hd, fun _ => hm⟩, fun _ _ => ?_⟩
  by_cases hd : d.id = id
  · rw [note_put_self hd, hm, Bool.or_true]
    exact ⟨h.held, fun hk => absurd hd hk, fun _ => rfl⟩
  · rw [note_put_of_ne hd]
    exact ⟨h.held, h.other, fun hk => absurd hk hd⟩

/-- `DeleteDeployment`: a call that succeeds has marked the record. -/
lemma follows_deleteDeployment (k : String) :
    (watching id).Follows (deleteDeployment k) l fun r l' => Unlocked id k l.seen l' ∧
      ((∃ a, r = .ok a) → k = id → l'.marked = true) := by
  refine follows_onRecord (by rintro _ _ ⟨_, ⟨⟩⟩) fun d l₁ hkey hold _ => ⟨trivial, fun now _ => ?_⟩
  refine Protocol.Follows.mono (follows_mark (k := k) hold ?_ ?_) fun _ _ h =>
    ⟨h.1, h.2.1, fun _ => h.2.2⟩
  · exact hkey
  · rfl

/-- `UpdateDeployment`. -/
lemma follows_updateDeployment (k : String) (spec : DeploymentSpec) :
    (watching id).Follows (updateDeployment k spec) l fun _ l' => Unlocked id k l.seen l' := by
  refine (follows_section fun d hkey _ => ?_).mono fun _ _ h => h.1
  subst hkey
  refine keeps_now fun _ => keeps_now fun _ => keeps_now fun _ => Redrafts.keeps (d := d) ?_
    fun d' hid hm => keeps_now fun _ => .bind (keeps_update hid hm) fun _ => .ret _
  split
  · exact .now fun _ => .ret rfl rfl
  · exact .ret rfl rfl

/-- `RollbackDeployment`. -/
lemma follows_rollbackDeployment (k : String) (rev : ℤ) :
    (watching id).Follows (rollbackDeployment k rev) l fun _ l' => Unlocked id k l.seen l' := by
  refine (follows_section fun d hkey _ => ?_).mono fun _ _ h => h.1
  subst hkey
  split
  · exact .ret _
  dsimp only
  split
  · exact .ret _
  · exact keeps_now fun _ => keeps_now fun _ => keeps_now fun _ => keeps_now fun _ =>
      keeps_now fun _ => .bind (keeps_update rfl rfl) fun _ => .ret _

/-! ### Outside the mutex -/

/-- The thread does not hold the mutex. -/
def Out (l : View) : Prop := l.held = false

instance : Lasting Out := ⟨fun _ _ h => h⟩

lemma out_get (hl : Out l) (a : Option Deployment) :
    Out ((watching id).note (.get .deployment k) a l) := by
  rw [note_get]
  split <;> exact hl

/-- The calls that may also look at deployments. -/
def Call.mild : Call → Bool
  | .get _ _ | .list _ _ => true
  | c => c.calm

/-- The program makes mild calls only. -/
abbrev Mild (p : M α) : Prop := Makes (fun c => c.mild = true) p

lemma Call.mild_of_calm {c : Call} (h : c.calm = true) : c.mild = true := by
  cases c <;> simp_all [mild]

instance : HasListing fun c : Call => c.mild = true where
  modest c hc := Call.mild_of_calm (HasModest.modest (P := fun c => c.calm = true) c hc)
  listing := rfl

lemma keeps_mild (h : Mild p) : Keeps id Out p := by
  refine fun l hl => (Protocol.Follows.of_only (fun c l hc hl => ?_) h hl).mono fun _ _ h => h.2
  by_cases hcalm : c.calm = true
  · refine ⟨allows_calm hcalm l, fun a _ => ?_⟩
    change Out (View.note id c a l)
    rw [view_calm hcalm]
    exact hl
  cases c with
  | get t k =>
    obtain rfl : t = .deployment := by simpa [Call.calm] using hcalm
    exact ⟨trivial, fun a _ => out_get hl a⟩
  | list t pfx =>
    obtain rfl : t = .deployment := by simpa [Call.calm] using hcalm
    exact ⟨trivial, fun _ _ => hl⟩
  | _ => exact absurd hc hcalm

/-- The thread does not hold the mutex, and has last seen the record as its copy of the record of
`k`, which has the mark `b`. -/
structure Aware (id k : String) (b : Bool) (l : View) : Prop where
  held : l.held = false
  seen : k = id → l.seen = some b

instance : Lasting (Aware id k b) := ⟨fun _ _ h => ⟨h.held, h.seen⟩⟩

lemma keeps_writeBack (hid : d.id = k) (hm : d.isMarked = b) :
    Keeps id (Aware id k b) (StateStore.updateDeployment d) := by
  refine fun l h => ⟨fun hd => Or.inr ⟨h.held, fun b' hb' => ?_⟩, fun _ _ => ?_⟩
  · exact (Option.some.inj (hb'.symm.trans (h.seen (hid.symm.trans hd)))).trans hm.symm
  · by_cases hd : d.id = id
    · rw [note_put_self hd, hm]
      exact ⟨h.held, fun _ => rfl⟩
    · rwa [note_put_of_ne hd]

/-- A record is looked up outside the mutex. -/
lemma keeps_found {g : Except Err Deployment → M β}
    (hok : ∀ d, d.id = k → Keeps id (Aware id k d.isMarked) (g (.ok d)))
    (herr : ∀ e, Keeps id Out (g (.error e))) :
    Keeps id Out ((StateStore.getDeployment k).attempt >>= g) := by
  refine fun l hl => ⟨trivial, fun a ha => ?_⟩
  cases a with
  | none => exact herr _ _ (out_get hl none)
  | some d =>
    refine (hok d (ha.1 d rfl) _ ⟨out_get hl _, fun hk => ?_⟩).mono fun _ _ h => h.held
    rw [note_get, if_pos hk]
    rfl

lemma keeps_settleDeployment (k : String) : Keeps id Out (settleDeployment k) := by
  refine keeps_found (fun d hkey => ?_) fun _ => .ret _
  subst hkey
  refine .bind (keeps_calm (.deployed _)) fun ws => ?_
  split
  · exact (Redrafts.of_keepsCore (keepsCore_settledStatus d ws)).keeps fun d' hid hm =>
      .ignore (keeps_writeBack hid hm)
  · exact .ret _

lemma keeps_autoscalePolicy (now : Time) (p : AutoscalerPolicy) :
    Keeps id Out (autoscalePolicy o now p) := by
  refine keeps_found (fun d hkey => ?_) fun _ => .ret _
  refine .bind (keeps_calm ⟨rfl, fun _ => trivial⟩) fun samples => ?_
  dsimp only
  split
  · exact .ret _
  · exact .bind (keeps_writeBack hkey rfl) fun _ =>
      keeps_calm (Makes.bind (.orNow _) fun _ => .call rfl)

/-- `ReportWorkloadStatus`. -/
lemma keeps_reportWorkloadStatus (k : String) (status : WorkloadStatus) (cid : String) :
    Keeps id Out (reportWorkloadStatus k status cid) := by
  refine fun l hl => ⟨trivial, fun a _ => ?_⟩
  cases a with
  | none => exact hl
  | some v =>
    have hmet : Met Out [v] (l.meet [v]) := ⟨hl, List.subset_append_left _ _⟩
    change (watching id).Follows (if status = .terminated then _ else _) (l.meet [v]) _
    split
    · exact Protocol.Keeps.bind (keeps_calm (makes_releaseReservation (fun _ => rfl) v)) (fun _ =>
        .bind (keeps_calm (.call rfl)) fun _ => keeps_settleDeployment _) _ hl
    · refine (keeps_upsertWorkload (I := Met Out [v]) (fun _ h => ?_) _ hmet).mono fun _ _ h => h.1
      exact Met.mayStore (v := v) h (List.mem_singleton_self v)

/-! ### `CreateDeployment` -/

/-- The check of the store that the id is new, and the record. -/
lemma follows_storeNew (hl : Out l) :
    (watching id).Follows (StateStore.createDeployment d) l fun r l' =>
      Out l' ∧ ((∃ a, r = .ok a) → Aware id d.id d.isMarked l') := by
  refine ⟨trivial, fun a _ => ?_⟩
  have hheld : Out ((watching id).note (.get .deployment d.id) a l) := out_get hl a
  cases a with
  | some d' => exact ⟨hheld, by rintro ⟨_, ⟨⟩⟩⟩
  | none =>
    refine ⟨fun hd => Or.inr ⟨hheld, fun b hb => ?_⟩, fun _ _ => ?_⟩
    · rw [note_get, if_pos hd] at hb
      cases hb
    · by_cases hd : d.id = id
      · rw [note_put_self hd]
        exact ⟨hheld, fun _ => ⟨hheld, fun _ => rfl⟩⟩
      · rw [note_put_of_ne hd]
        exact ⟨hheld, fun _ => ⟨hheld, fun h => absurd h hd⟩⟩

lemma keeps_createDeployment (spec : DeploymentSpec) : Keeps id Out (createDeployment o spec) := by
  unfold createDeployment
  split
  · exact .ret _
  split
  · exact .ret _
  refine .bind (keeps_mild (makes_admitSpec (fun _ => rfl) _)) fun _ => keeps_now fun now =>
    .bind (keeps_calm (.call rfl)) fun r l hl => ?_
  refine (follows_storeNew hl).bind (fun _ l₁ h₁ => ?_) fun _ _ h => h.1
  refine (follows_reconcileDeployment fun hk => (h₁.2 ⟨_, rfl⟩).seen hk).bind (fun _ l₂ h₂ => ?_)
    fun _ _ h => h.1.held
  have haware : Aware id (deploymentID now r) false l₂ := ⟨h₂.1.held, h₂.2 ⟨_, rfl⟩⟩
  refine (Redrafts.keeps (Redrafts.of_keepsCore (keepsCore_createdStatus _))
    (fun d' hid hm => ?_) l₂ haware).mono fun _ _ h => h.held
  exact .bind (.ignore (keeps_writeBack hid hm)) fun _ => .ret _

/-! ### The stages of `ReconcileAll` -/

lemma keeps_reconcileAutoscaling : Keeps id Out (reconcileAutoscaling o) :=
  .bind (keeps_calm ⟨rfl, fun _ => trivial⟩) fun _ => keeps_now fun now =>
    .forEach fun p _ => keeps_autoscalePolicy now p

lemma keeps_maybeAutoRollback (d : Deployment) :
    Keeps id Out (maybeAutoRollbackForFailures d) := by
  unfold maybeAutoRollbackForFailures
  split
  · exact .ret _
  refine .bind (keeps_calm (.deployed d.id)) fun ws => ?_
  dsimp only
  generalize (if d.spec.rollout.maxFailedWorkloads ≤ 0 then 1
    else d.spec.rollout.maxFailedWorkloads) = threshold
  split
  · exact .ret _
  · exact .ignore fun _ _ => (follows_rollbackDeployment d.id _).mono fun _ _ h => h.held

lemma keeps_evaluateWorkloadHealth : Keeps id Out evaluateWorkloadHealth := by
  refine keeps_listed fun ws => .bind (keeps_met (keeps_mild ⟨rfl, fun _ => trivial⟩)) fun ds =>
    keeps_now fun now => .forEach fun v hv => ?_
  split
  · exact .ret _
  · exact .bind (keeps_upsertWorkload fun _ hl => Met.mayStore (v := v) hl hv) fun _ =>
      keeps_met (keeps_maybeAutoRollback _)

lemma keeps_reconcileJob (now : Time) (job : Job) : Keeps id Out (reconcileJob o now job) :=
  reconcileJob_of (Protocol.Keeps.modality _ _) (keeps_createDeployment _)
    (fun _ _ => keeps_calm (makes_storeJob fun _ _ => rfl)) (keeps_calm (.deployed _))
    (fun k _ _ => (follows_deleteDeployment k).mono fun _ _ h => h.1.held) (keeps_calm (.call rfl))

lemma keeps_reconcileJobsAndCron : Keeps id Out (reconcileJobsAndCron o) :=
  reconcileJobsAndCron_of (Protocol.Keeps.modality _ _)
    (fun hp => keeps_calm (hp.weaken HasModest.modest))
    (fun now _ => keeps_calm (makes_runCronJob now (fun _ _ => rfl) fun _ _ => rfl))
    keeps_reconcileJob

lemma keeps_remediateUnhealthyNode (n : String) : Keeps id Out (remediateUnhealthyNode n) := by
  refine keeps_listed fun ws => .forEach fun v hv => ?_
  split
  · exact keeps_terminateWorkload hv
  · exact .ret _

lemma keeps_updateNodeHealth : Keeps id Out (updateNodeHealth o) := by
  refine .bind (keeps_calm (.call rfl)) fun nodes => keeps_now fun now =>
    .forEach fun n _ => .bind (keeps_calm (calm_upsertNode _)) fun _ => ?_
  split
  · exact keeps_remediateUnhealthyNode _
  · exact .ret _

/-! ### `ReconcileAll` -/

/-- The part of the listing that is still to be visited: the thread has not looked at the
record again. -/
structure Listed (id : String) (ds : List Deployment) (l : View) : Prop where
  held : l.held = false
  nodup : (ds.map Deployment.id).Nodup
  seen : ∀ d ∈ ds, d.id = id → l.seen = some d.isMarked

lemma follows_reconcileListed {ds : List Deployment} (h : Listed id (d :: ds) l) :
    (watching id).Follows (reconcileListed o d) l fun _ l' => Listed id ds l' := by
  have hnodup := List.nodup_cons.mp (List.map_cons ▸ h.nodup)
  have hrest : ∀ l', Unlocked id d.id l.seen l' → Listed id ds l' := by
    refine fun l' hl => ⟨hl.held, hnodup.2, fun e he heid => ?_⟩
    rw [hl.other ?_]
    · exact h.seen e (List.mem_cons_of_mem _ he) heid
    · -- The record of `id` is listed once, and it is still to be visited.
      intro hdid
      exact hnodup.1 (hdid.trans heid.symm ▸ List.mem_map_of_mem he)
  unfold reconcileListed
  split
  · exact .ignore ((follows_reconcileDeletion d.id).mono fun _ l' hl => hrest l' hl)
  · next hm =>
    have hunmarked : d.isMarked = false := by simpa [Deployment.isMarked] using hm
    refine .ignore ((follows_reconcileDeployment fun hd => ?_).mono fun _ l' hl => hrest l' hl.1)
    rw [h.seen d List.mem_cons_self hd, hunmarked]

/-- The loop of `ReconcileAll` over the deployments. -/
lemma follows_reconcileEach {ds : List Deployment} (h : Listed id ds l) :
    (watching id).Follows (Prog.forEach ds (reconcileListed o)) l fun _ l' => Out l' := by
  induction ds generalizing l with
  | nil => exact h.held
  | cons d ds ih =>
    exact (follows_reconcileListed h).bind (fun _ _ h' => ih h') fun _ _ h' => h'.held

lemma keeps_reconcileAll : Keeps id Out (reconcileAll o) := by
  refine fun l hl => ⟨trivial, fun ds hds => ?_⟩
  have hlisted : Listed id ds ((watching id).note (.list .deployment "") ds l) := by
    refine ⟨hl, hds, fun d hd hid => ?_⟩
    obtain ⟨e, he⟩ : ∃ e, ds.find? (fun e => e.id = id) = some e :=
      Option.isSome_iff_exists.mp (List.find?_isSome.mpr ⟨d, hd, by simpa using hid⟩)
    have heid : e.id = id := by simpa using List.find?_some he
    have hed : e = d := List.inj_on_of_nodup_map hds (List.mem_of_find?_eq_some he) hd
      (heid.trans hid.symm)
    exact congrArg (Option.map Deployment.isMarked) (hed ▸ he)
  refine (follows_reconcileEach hlisted).bind (fun _ l₁ hl₁ => ?_) fun _ _ h => h
  exact Protocol.Keeps.bind (.ignore keeps_reconcileAutoscaling) (fun _ =>
    .bind (.ignore keeps_evaluateWorkloadHealth) fun _ =>
    .bind (.ignore (keeps_mild (makes_reconcileAllServiceEndpoints fun _ _ => rfl))) fun _ =>
    .bind (.ignore (keeps_calm (makes_reconcilePVCBindings (fun _ => rfl) fun _ _ => rfl))) fun _ =>
    .bind (.ignore keeps_reconcileJobsAndCron) fun _ => keeps_updateNodeHealth) l₁ hl₁

end Orchestrator
