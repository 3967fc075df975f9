/-
# Control-plane functions as threads

The functions of the control plane run concurrently: their store calls are atomic, a call
of `o.mu.Lock()` waits until the mutex is free, and everything else can be interleaved.
This file has that machine, observed for one deployment: what each thread has last seen of
its record, whether the record has ever been marked for deletion, and which of its workloads
have ever been stored.

The condition on a run (`Current`) is that the view of a thread is up to date where it matters:
when the thread reads the record under the mutex, and when it writes it outside the mutex.  What a
thread knows and may do is the protocol `watching`.  Every call that the protocol allows keeps what
the threads know (`follow_step`), and leaves alone what is irrevocable about a deletion.
-/
import Orchestrator.Lib.Protocol
import Orchestrator.Logic.Operations

namespace Orchestrator

open Lib

variable {c : Call} {w : World} {k : String} {d : Deployment} {v : Workload}

/-! ### The machine -/

/-- Whether a deployment is marked for deletion. -/
def Deployment.isMarked (d : Deployment) : Bool := d.deletionTimestamp.isSome

/-- What the threads share: the store with the readings, and the mutex.  The other fields
observe one deployment. -/
structure Shared where
  world : World
  /-- The thread that holds `o.mu`. -/
  owner : Option ℕ
  /-- What each thread saw when it last read or wrote the record: whether it was there, and
  whether it was marked for deletion. -/
  seen : ℕ → Option Bool
  /-- The record has been marked for deletion. -/
  deleted : Bool
  /-- The workloads of the deployment that have been stored. -/
  known : List String

namespace Shared

/-- Whether the record is stored, and whether it is marked for deletion. -/
def mark (id : String) (s : Shared) : Option Bool :=
  (s.world.deps.get id).map Deployment.isMarked

/-- Thread `i` has a look at the record. -/
def look (s : Shared) (i : ℕ) (m : Option Bool) : Shared :=
  { s with seen := fun j => if j = i then m else s.seen j }

/-- What is observed of a call of thread `i` and its answer. -/
def note (id : String) (i : ℕ) : (c : Call) → c.Res → Shared → Shared
  | .lock, _, s => { s with owner := some i }
  | .unlock, _, s => { s with owner := none }
  | .get .deployment k, a, s => if k = id then s.look i (a.map Deployment.isMarked) else s
  | .list .deployment _, a, s =>
      s.look i ((a.find? fun d => d.id = id).map Deployment.isMarked)
  | .put .deployment d, _, s =>
      if d.id = id then { s.look i (some d.isMarked) with deleted := s.deleted || d.isMarked }
      else s
  | .put .workload v, _, s =>
      if v.deploymentID = id then { s with known := v.id :: s.known } else s
  | _, _, s => s

end Shared

/-- The control plane, observed for the deployment `id`. -/
def plane (env : Env) (id : String) : Machine Call.Res Shared where
  exec i c s :=
    ((exec env c s.world).1,
      { s.note id i c (exec env c s.world).1 with world := (exec env c s.world).2 })
  enabled _ c s :=
    match c with
    | .lock => s.owner.isNone
    | _ => true

/-! ### Runs with current views -/

section Observed

variable (id : String)

/-- The marks agree with the history of the record, and so do the stored workloads. -/
structure Shared.Valid (s : Shared) : Prop where
  mark : ∀ b, s.mark id = some b → b = s.deleted
  workloads : ∀ v ∈ s.world.workloads.rows, v.deploymentID = id → v.id ∈ s.known

/-- The view of thread `i` is up to date.  A thread that has seen the record unmarked does
not find it marked when it reads it under the mutex; a thread that writes the record outside
the mutex finds it as it has last seen it, and makes no new record under the id of a deleted
deployment. -/
def Current (i : ℕ) : Call → Shared → Prop
  | .get .deployment k, s =>
      k = id → s.owner = some i → s.seen i = some false → s.mark id ≠ some true
  | .put .deployment d, s =>
      d.id = id → s.owner ≠ some i →
        s.mark id = s.seen i ∧ (s.seen i = none → s.deleted = false)
  | _, _ => True

instance (i : ℕ) (c : Call) (s : Shared) : Decidable (Current id i c s) := by
  unfold Current
  split <;> infer_instance

/-! ### What a thread knows -/

/-- The workloads in the answer to a call. -/
def Call.workloads : (c : Call) → c.Res → List Workload
  | .get .workload _, a => a.toList
  | .list .workload _, a => a
  | _, _ => []

/-- What a thread has learned about the deployment. -/
structure View where
  /-- It holds the mutex. -/
  held : Bool := false
  /-- What it saw when it last read or wrote the record. -/
  seen : Option Bool := none
  /-- What the record is like as long as the thread holds the mutex. -/
  mark : Option Bool := none
  /-- The workloads that it has read. -/
  met : List Workload := []
  /-- It has marked the record. -/
  marked : Bool := false

namespace View

def saw (l : View) (m : Option Bool) : View := { l with seen := m, mark := m }

def meet (l : View) (vs : List Workload) : View := { l with met := vs ++ l.met }

def note : (c : Call) → c.Res → View → View
  | .lock, _, l => { l with held := true, mark := none }
  | .unlock, _, l => { l with held := false }
  | .get .deployment k, a, l => if k = id then l.saw (a.map Deployment.isMarked) else l
  | .list .deployment _, a, l => l.saw ((a.find? fun d => d.id = id).map Deployment.isMarked)
  | .put .deployment d, _, l =>
      if d.id = id then { l.saw (some d.isMarked) with marked := l.marked || d.isMarked } else l
  | .deleteDeployment k, _, l => if k = id then { l with mark := none } else l
  | c, a, l => l.meet (c.workloads a)

/-- The thread may store `d`.  Under the mutex the record has to be there, and a mark may not
be taken back; outside the mutex the copy has to be as the thread has last seen it. -/
def MayWrite (d : Deployment) (l : View) : Prop :=
  d.id = id →
    (l.held = true ∧ ∃ b, l.mark = some b ∧ (b = true → d.isMarked = true)) ∨
    (l.held = false ∧ ∀ b, l.seen = some b → b = d.isMarked)

/-- The thread may store `v`: it has read this workload, or it holds the mutex and the record is
there and not marked. -/
def MayStore (v : Workload) (l : View) : Prop :=
  v.deploymentID = id → (∃ u ∈ l.met, u.id = v.id ∧ u.deploymentID = v.deploymentID) ∨
    (l.held = true ∧ l.mark = some false)

end View

/-- The protocol of a thread. -/
def watching : Protocol Call.Res View where
  note := View.note id
  allows l
    | .put .deployment d => l.MayWrite id d
    | .put .workload v => l.MayStore id v
    | .del .deployment _ => False
    | .deleteDeployment k => k = id → l.held = true
    | .unlock => l.held = true
    | _ => True
  answers l
    | .get .deployment k, a => (∀ d, a = some d → d.id = k) ∧
        (k = id → l.held = true → l.seen = some false → a.map Deployment.isMarked ≠ some true)
    | .list .deployment _, ds => (ds.map Deployment.id).Nodup
    | _, _ => True

/-- What thread `i` has learned is true. -/
structure Knows (i : ℕ) (s : Shared) (l : View) : Prop where
  owner : s.owner = some i ↔ l.held = true
  seen : s.seen i = l.seen
  mark : l.held = true → ∀ b, l.mark = some b → s.mark id = some b
  met : ∀ v ∈ l.met, v.deploymentID = id → v.id ∈ s.known
  marked : l.marked = true → s.deleted = true

/-- What a call of another thread can do to thread `i`: the mutex stays with the thread that holds
it, and then a record keeps its mark.  Once the record has been marked, no workload is added, and
the record is not stored again when it is gone. -/
structure Interferes (i : ℕ) (s s' : Shared) : Prop where
  owner : s'.owner = some i ↔ s.owner = some i
  held : s.owner = some i → s.mark id ≠ none → s'.mark id = s.mark id
  known : s.known ⊆ s'.known
  seen : s'.seen i = s.seen i
  deleted : s.deleted = true →
    s'.deleted = true ∧ s'.known ⊆ s.known ∧ (s.mark id = none → s'.mark id = none)

/-- What a call of thread `i` leads to. -/
structure Follow (i : ℕ) (s s' : Shared) (l' : View) : Prop where
  valid : s'.Valid id
  others : ∀ j, j ≠ i → Interferes id j s s'
  knows : Knows id i s' l'

end Observed

variable {env : Env} {id : String} {i : ℕ} {s s' : Shared} {l : View}

lemma Knows.later (h : Knows id i s l) (hs : Interferes id i s s') : Knows id i s' l where
  owner := hs.owner.trans h.owner
  seen := hs.seen.trans h.seen
  mark hl b hb := by
    have hm := h.mark hl b hb
    exact (hs.held (h.owner.mpr hl) (by simp [hm])).trans hm
  met v hv hd := hs.known (h.met v hv hd)
  marked hl := (hs.deleted (h.marked hl)).1

/-- The thread reads stored workloads. -/
lemma Knows.meet (h : Knows id i s l) (hI : s.Valid id) {vs : List Workload}
    (hvs : vs ⊆ s.world.workloads.rows) : Knows id i s (l.meet vs) where
  owner := h.owner
  seen := h.seen
  mark := h.mark
  met v hv hd := by
    rcases List.mem_append.mp hv with hv | hv
    · exact hI.workloads v (hvs hv) hd
    · exact h.met v hv hd
  marked := h.marked

/-! ### Calls that leave the record and the workloads alone -/

/-- The calls that neither use the mutex nor look at deployments, and store neither a
deployment nor a workload. -/
def Call.calm : Call → Bool
  | .now | .rand | .admission | .external | .popAssignments _ _ | .replaceServiceEndpoints _ _ =>
      true
  | .get t _ | .list t _ | .del t _ => t ≠ .deployment
  | .put t _ => t ≠ .deployment ∧ t ≠ .workload
  | .lock | .unlock | .deleteDeployment _ => false

lemma Call.calm_of_oracle (h : c.oracle = true) : c.calm = true := by
  cases c <;> simp_all [oracle, calm]

lemma note_calm (h : c.calm = true) (a : c.Res) (s : Shared) :
    s.note id i c a = s := by
  cases c with
  | get t k => cases t <;> first | rfl | simp [Call.calm] at h
  | list t k => cases t <;> first | rfl | simp [Call.calm] at h
  | put t v => cases t <;> first | rfl | simp [Call.calm] at h
  | lock | unlock => simp [Call.calm] at h
  | _ => rfl

/-- A thread learns of workloads at most. -/
lemma view_calm (h : c.calm = true) (a : c.Res) (l : View) :
    View.note id c a l = l.meet (c.workloads a) := by
  cases c with
  | get t k => cases t <;> first | rfl | simp [Call.calm] at h
  | list t k => cases t <;> first | rfl | simp [Call.calm] at h
  | put t v => cases t <;> first | rfl | simp [Call.calm] at h
  | lock | unlock | deleteDeployment => simp [Call.calm] at h
  | _ => rfl

lemma Call.workloads_subset (c : Call) (env : Env) (w : World) :
    c.workloads (exec env c w).1 ⊆ w.workloads.rows := by
  intro v hv
  cases c with
  | get t k =>
    cases t with
    | workload => exact Table.mem_of_get (Option.mem_toList.mp hv)
    | _ => cases hv
  | list t pfx =>
    cases t with
    | workload => exact Store.mem_list hv
    | _ => cases hv
  | _ => cases hv

lemma allows_calm (h : c.calm = true) (l : View) : (watching id).allows l c := by
  cases c with
  | put t v => cases t <;> trivial
  | del t k => cases t <;> trivial
  | unlock | deleteDeployment => simp [Call.calm] at h
  | _ => trivial

lemma Call.writes_of_calm (h : c.calm = true) : c.writes .deployment = false := by
  cases c <;> simp_all [calm, writes]

/-- A call that stores no workload leaves no new one. -/
lemma exec_workloads (h : ∀ v, c ≠ .put .workload v) (w : World) :
    (exec env c w).2.workloads.rows ⊆ w.workloads.rows := by
  intro v hv
  rcases exec_mem (t := .workload) (by decide) hv with hv | ⟨u, hu, -⟩
  · exact hv
  · exact absurd hu (h u)

/-- A change of the store that keeps the mark of the record. -/
lemma Interferes.of_mark (h : ({ s with world := w } : Shared).mark id = s.mark id)
    (j : ℕ) : Interferes id j s { s with world := w } where
  owner := Iff.rfl
  held _ _ := h
  known := fun _ hx => hx
  seen := rfl
  deleted hd := ⟨hd, fun _ hx => hx, fun hn => h.trans hn⟩

lemma Follow.of_mark (hI : s.Valid id) (hk : Knows id i s l)
    (h : ({ s with world := w } : Shared).mark id = s.mark id)
    (hw : ∀ v ∈ w.workloads.rows, v.deploymentID = id → v.id ∈ s.known) :
    Follow id i s { s with world := w } l where
  valid := ⟨fun b hb => hI.mark b (h.symm.trans hb), hw⟩
  others := fun j _ => Interferes.of_mark h j
  knows := hk.later (Interferes.of_mark h i)

/-- What holds after a call of thread `i`. -/
abbrev Tracks (env : Env) (id : String) (i : ℕ) (s : Shared) (l : View) (c : Call) : Prop :=
  Follow id i s { s.note id i c (exec env c s.world).1 with world := (exec env c s.world).2 }
    (View.note id c (exec env c s.world).1 l)

lemma follow_calm (env : Env) (h : c.calm = true) (hI : s.Valid id) (hk : Knows id i s l) :
    Tracks env id i s l c := by
  have hm : ({ s with world := (exec env c s.world).2 } : Shared).mark id = s.mark id := by
    rw [Shared.mark, World.deps, exec_writes env (Call.writes_of_calm h)]
    rfl
  simp only [Tracks, note_calm h, view_calm h]
  refine Follow.of_mark hI (hk.meet hI (c.workloads_subset env s.world)) hm fun v hv => ?_
  refine hI.workloads v (exec_workloads ?_ s.world hv)
  rintro v rfl
  simp [Call.calm] at h

/-! ### Reading the record -/

/-- The thread has a look at the record. -/
lemma follow_look (hI : s.Valid id) (hk : Knows id i s l) {m : Option Bool}
    (hm : ∀ b, m = some b → s.mark id = some b) : Follow id i s (s.look i m) (l.saw m) where
  valid := ⟨hI.mark, hI.workloads⟩
  others _ hj :=
    ⟨Iff.rfl, fun _ _ => rfl, fun _ h => h, if_neg hj, fun hd => ⟨hd, fun _ h => h, fun h => h⟩⟩
  knows := ⟨hk.owner, if_pos rfl, fun _ => hm, hk.met, hk.marked⟩

lemma follow_refl (hI : s.Valid id) (hk : Knows id i s l) : Follow id i s s l :=
  Follow.of_mark hI hk rfl hI.workloads

/-! ### Writing the record -/

lemma deps_put (d : Deployment) (w : World) :
    (exec env (.put .deployment d) w).2.deps = w.deps.put d.viaJSON :=
  Store.put_self w.store .deployment d

/-- The state after the record of the deployment has been stored. -/
def Shared.stored (s : Shared) (env : Env) (i : ℕ) (d : Deployment) : Shared :=
  { s.look i (some d.isMarked) with
    deleted := s.deleted || d.isMarked
    world := (exec env (.put .deployment d) s.world).2 }

lemma mark_stored (d : Deployment) (hd : d.id = id) :
    (s.stored env i d).mark id = some d.isMarked := by
  have hget : (s.world.deps.put d.viaJSON).get id = some d.viaJSON := by
    rw [← hd]
    exact Table.get_put_self _ d.viaJSON
  rw [Shared.mark]
  change ((exec env (.put .deployment d) s.world).2.deps.get id).map _ = _
  rw [deps_put, hget]
  rfl

/-- A thread that may write the record finds it there with a mark that the copy keeps, or it has
never been marked. -/
lemma View.MayWrite.cases (hd : d.id = id) (hk : Knows id i s l)
    (hc : Current id i (.put .deployment d) s) (hw : l.MayWrite id d) :
    (∃ b, s.mark id = some b ∧ (b = true → d.isMarked = true) ∧
      (s.owner ≠ some i → b = d.isMarked)) ∨ (s.mark id = none ∧ s.deleted = false) := by
  rcases hw hd with ⟨hheld, b, hb, hmono⟩ | ⟨hheld, hseen⟩
  · exact Or.inl ⟨b, hk.mark hheld b hb, hmono, fun h => absurd (hk.owner.mpr hheld) h⟩
  · have hown : s.owner ≠ some i := fun h => by simp [hk.owner.mp h] at hheld
    obtain ⟨hcur, hnew⟩ := hc hd hown
    cases hs : s.seen i with
    | none => exact Or.inr ⟨hcur.trans hs, hnew hs⟩
    | some b =>
      have hb := hseen b (hk.seen.symm.trans hs)
      exact Or.inl ⟨b, hcur.trans hs, fun h => hb ▸ h, fun _ => hb⟩

lemma follow_stored (hd : d.id = id) (hI : s.Valid id) (hk : Knows id i s l)
    (hc : Current id i (.put .deployment d) s) (hw : l.MayWrite id d) :
    Follow id i s (s.stored env i d)
      { l.saw (some d.isMarked) with marked := l.marked || d.isMarked } := by
  have hm : (s.stored env i d).mark id = some d.isMarked := mark_stored d hd
  have hcases := hw.cases hd hk hc
  refine ⟨⟨?_, ?_⟩, fun j hj => ⟨Iff.rfl, ?_, fun _ h => h, if_neg hj, ?_⟩,
    ⟨hk.owner, if_pos rfl, fun _ b hb => hm.trans hb, hk.met, ?_⟩⟩
  · intro b hb
    have hbd : d.isMarked = b := Option.some.inj (hm.symm.trans hb)
    change b = (s.deleted || d.isMarked)
    rcases hcases with ⟨b', hb', hmono, -⟩ | ⟨-, hdel⟩
    · rw [← hI.mark b' hb', hbd]
      cases b' with
      | false => rfl
      | true => exact hbd.symm.trans (hmono rfl)
    · rw [hdel, hbd]
      rfl
  · intro v hv
    exact hI.workloads v (exec_workloads (by simp) s.world hv)
  · intro hown hne
    rcases hcases with ⟨b, hb, -, hsame⟩ | ⟨hnone, -⟩
    · have hbd : b = d.isMarked :=
        hsame fun h => hj (Option.some.inj (hown.symm.trans h))
      rw [hm, hb, hbd]
    · exact absurd hnone hne
  · intro hdel
    refine ⟨by simp [Shared.stored, hdel], fun _ h => h, fun hnone => ?_⟩
    rcases hcases with ⟨b, hb, -, -⟩ | ⟨-, hdel'⟩
    · rw [hnone] at hb
      cases hb
    · rw [hdel] at hdel'
      cases hdel'
  · intro h
    change (s.deleted || d.isMarked) = true
    rcases Bool.or_eq_true_iff.mp h with h | h
    · rw [hk.marked h]
      rfl
    · rw [h, Bool.or_true]

/-- The record of the deployment is removed under the mutex. -/
lemma follow_removed (hI : s.Valid id) (hk : Knows id i s l) (hheld : l.held = true)
    (hd : w.deps = s.world.deps.del id) (hw : w.workloads.rows ⊆ s.world.workloads.rows) :
    Follow id i s { s with world := w } { l with mark := none } := by
  have hm : ({ s with world := w } : Shared).mark id = none := by
    rw [Shared.mark, hd, Table.get_del_self]
    rfl
  refine ⟨⟨fun b hb => ?_, fun v hv => hI.workloads v (hw hv)⟩, fun j hj => ?_,
    ⟨hk.owner, hk.seen, fun _ _ => nofun, hk.met, hk.marked⟩⟩
  · rw [hm] at hb
    cases hb
  · refine ⟨Iff.rfl, fun hown => ?_, fun _ hx => hx, rfl,
      fun hdel => ⟨hdel, fun _ hx => hx, fun _ => hm⟩⟩
    exact absurd (Option.some.inj (hown.symm.trans (hk.owner.mpr hheld))) hj

lemma follow_deleteDeployment (hI : s.Valid id) (hk : Knows id i s l)
    (hheld : k = id → l.held = true) : Tracks env id i s l (.deleteDeployment k) := by
  have hdeps : (exec env (.deleteDeployment k) s.world).2.deps = s.world.deps.del k := by
    change s.world.store.deleteDeployment k .deployment = _
    rw [Store.deleteDeployment, Store.set_of_ne _ _ (by decide)]
    exact Store.set_self _ _ _
  have hw : (exec env (.deleteDeployment k) s.world).2.workloads.rows ⊆ s.world.workloads.rows :=
    exec_workloads (by simp) s.world
  by_cases hid : k = id
  · subst hid
    simp only [Tracks, Shared.note, View.note, if_true]
    exact follow_removed hI hk (hheld rfl) hdeps hw
  · simp only [Tracks, Shared.note, View.note, if_neg hid]
    refine Follow.of_mark hI hk ?_ fun u hu => hI.workloads u (hw hu)
    rw [Shared.mark, hdeps, Table.get_del_of_ne _ (Ne.symm hid)]
    rfl

/-! ### Workloads -/

lemma follow_known (hI : s.Valid id) (hk : Knows id i s l) (h : l.MayStore id v)
    (hd : w.deps = s.world.deps)
    (hw : ∀ u ∈ w.workloads.rows, u ∈ s.world.workloads.rows ∨ u = v)
    (hv : v.deploymentID = id) :
    Follow id i s { s with world := w, known := v.id :: s.known } l := by
  have hm : ({ s with world := w, known := v.id :: s.known } : Shared).mark id = s.mark id := by
    rw [Shared.mark, hd]
    rfl
  have hinter : ∀ j, Interferes id j s { s with world := w, known := v.id :: s.known } := by
    refine fun j => ⟨Iff.rfl, fun _ _ => hm, List.subset_cons_self _ _, rfl, fun hdel => ?_⟩
    refine ⟨hdel, ?_, fun hn => hm.trans hn⟩
    rcases h hv with ⟨u, hu, hid, hdep⟩ | ⟨hheld, hmark⟩
    · exact List.cons_subset.mpr ⟨hid ▸ hk.met u hu (hdep.trans hv), List.Subset.refl _⟩
    · have hfalse := hI.mark false (hk.mark hheld false hmark)
      rw [hdel] at hfalse
      cases hfalse
  refine ⟨⟨fun b hb => hI.mark b (hm.symm.trans hb), ?_⟩, fun j _ => hinter j, hk.later (hinter i)⟩
  intro u hu hdep
  rcases hw u hu with hu | rfl
  · exact List.mem_cons_of_mem _ (hI.workloads u hu hdep)
  · exact List.mem_cons_self

lemma follow_putWorkload (hI : s.Valid id) (hk : Knows id i s l) (h : l.MayStore id v) :
    Tracks env id i s l (.put .workload v) := by
  have hdeps : (exec env (.put .workload v) s.world).2.deps = s.world.deps :=
    Store.put_of_ne s.world.store .workload .deployment v (by decide)
  have hw : ∀ u ∈ (exec env (.put .workload v) s.world).2.workloads.rows,
      u ∈ s.world.workloads.rows ∨ u = v := by
    intro u hu
    rcases exec_mem (t := .workload) (by decide) hu with hu | ⟨u', hu', rfl⟩
    · exact Or.inl hu
    · cases hu'
      exact Or.inr rfl
  by_cases hv : v.deploymentID = id
  · simp only [Tracks, Shared.note, View.note, if_pos hv]
    exact follow_known hI hk h hdeps hw hv
  · simp only [Tracks, Shared.note, View.note, if_neg hv]
    refine Follow.of_mark hI hk (by rw [Shared.mark, hdeps]; rfl) fun u hu hdep => ?_
    rcases hw u hu with hu | rfl
    · exact hI.workloads u hu hdep
    · exact absurd hdep hv

/-! ### The mutex -/

/-- The mutex passes to or from thread `i`. -/
lemma follow_owner {o : Option ℕ} {l' : View} (hI : s.Valid id)
    (hs : ∀ j, j ≠ i → s.owner ≠ some j) (ho : ∀ j, j ≠ i → o ≠ some j)
    (hk : Knows id i { s with owner := o } l') : Follow id i s { s with owner := o } l' where
  valid := ⟨hI.mark, hI.workloads⟩
  others j hj := ⟨⟨fun h => absurd h (ho j hj), fun h => absurd h (hs j hj)⟩,
    fun h => absurd h (hs j hj), fun _ h => h, rfl, fun hd => ⟨hd, fun _ h => h, fun h => h⟩⟩
  knows := hk

/-! ### One call -/

/-- **A call that the protocol allows** keeps what the threads know, and is answered as the
protocol says. -/
lemma follow_step (env : Env) (hI : s.Valid id) (hk : Knows id i s l)
    (he : (plane env id).enabled i c s = true) (hc : Current id i c s)
    (ha : (watching id).allows l c) :
    (watching id).answers l c (exec env c s.world).1 ∧ Tracks env id i s l c := by
  by_cases hcalm : c.calm = true
  · refine ⟨?_, follow_calm env hcalm hI hk⟩
    cases c with
    | get t k => cases t <;> trivial
    | list t k => cases t <;> trivial
    | _ => trivial
  cases c with
  | get t k =>
    obtain rfl : t = .deployment := by simpa [Call.calm] using hcalm
    refine ⟨⟨fun d hd => Table.key_of_get hd, ?_⟩, ?_⟩
    · rintro rfl hheld hseen
      exact hc rfl (hk.owner.mpr hheld) (hk.seen.trans hseen)
    · by_cases hid : k = id
      · subst hid
        simp only [Tracks, Shared.note, View.note, if_true]
        exact follow_look hI hk fun b hb => hb
      · simp only [Tracks, Shared.note, View.note, if_neg hid]
        exact follow_refl hI hk
  | list t pfx =>
    obtain rfl : t = .deployment := by simpa [Call.calm] using hcalm
    refine ⟨s.world.store.nodup_list .deployment pfx, follow_look hI hk fun b hb => ?_⟩
    obtain ⟨d, hd, rfl⟩ := Option.map_eq_some_iff.mp hb
    have hget := Table.get_of_mem (Store.mem_list (List.mem_of_find?_eq_some hd))
    obtain rfl : d.id = id := by simpa using List.find?_some hd
    exact congrArg (Option.map _) hget
  | put t v =>
    cases t with
    | deployment =>
      refine ⟨trivial, ?_⟩
      by_cases hd : Deployment.id v = id
      · simp only [Tracks, Shared.note, View.note, if_pos hd]
        exact follow_stored hd hI hk hc ha
      · simp only [Tracks, Shared.note, View.note, if_neg hd]
        refine Follow.of_mark hI hk ?_ fun u hu =>
          hI.workloads u (exec_workloads (by simp) s.world hu)
        rw [Shared.mark, deps_put, Table.get_put_of_ne _ (v := Deployment.viaJSON v) (Ne.symm hd)]
        rfl
    | workload => exact ⟨trivial, follow_putWorkload hI hk ha⟩
    | _ => simp [Call.calm] at hcalm
  | deleteDeployment k => exact ⟨trivial, follow_deleteDeployment hI hk ha⟩
  | lock =>
    have hfree : s.owner = none := Option.isNone_iff_eq_none.mp he
    refine ⟨trivial, follow_owner (o := some i) hI (fun j _ => by simp [hfree])
      (fun j hj => by simpa using hj.symm) ?_⟩
    exact ⟨⟨fun _ => rfl, fun _ => rfl⟩, hk.seen, by rintro - - ⟨⟩, hk.met, hk.marked⟩
  | unlock =>
    have hown : s.owner = some i := hk.owner.mpr ha
    refine ⟨trivial, follow_owner (o := none) hI (fun j hj => by simpa [hown] using hj.symm)
      (fun j _ => by simp) ?_⟩
    exact ⟨⟨by rintro ⟨⟩, by rintro ⟨⟩⟩, hk.seen, by rintro ⟨⟩, hk.met, hk.marked⟩
  | del t k =>
    obtain rfl : t = .deployment := by simpa [Call.calm] using hcalm
    exact ha.elim
  | _ => simp [Call.calm] at hcalm

/-- The observations are right, and so is what the threads know. -/
structure Shared.Sound (id : String) (s : Shared) (view : ℕ → View) : Prop where
  valid : s.Valid id
  knows : ∀ i, Knows id i s (view i)

lemma Shared.Sound.follow {view : ℕ → View} {l' : View} (h : s.Sound id view)
    (hf : Follow id i s s' l') : s'.Sound id (Function.update view i l') where
  valid := hf.valid
  knows j := by
    by_cases hj : j = i
    · subst hj
      rw [Function.update_self]
      exact hf.knows
    · rw [Function.update_of_ne hj]
      exact (h.knows j).later (hf.others j hj)

/-- What a deletion leaves for good: the mark, the known workloads, and the absence of the record
once it is gone. -/
def Irrevocable (id : String) (s s' : Shared) : Prop :=
  s.deleted = true →
    s'.deleted = true ∧ s'.known ⊆ s.known ∧ (s.mark id = none → s'.mark id = none)

lemma Irrevocable.refl : Irrevocable id s s := fun hd => ⟨hd, fun _ hx => hx, fun h => h⟩

lemma Irrevocable.trans {s'' : Shared} (h : Irrevocable id s s') (h' : Irrevocable id s' s'') :
    Irrevocable id s s'' := by
  intro hd
  obtain ⟨hd', hk, hn⟩ := h hd
  obtain ⟨hd'', hk', hn'⟩ := h' hd'
  exact ⟨hd'', fun _ hx => hk (hk' hx), fun h0 => hn' (hn h0)⟩

lemma Follow.irrevocable {l' : View} (h : Follow id i s s' l') : Irrevocable id s s' :=
  (h.others (i + 1) (by simp)).deleted

end Orchestrator
