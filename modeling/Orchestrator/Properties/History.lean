/-
# Revision history

Five operations write revisions: creation, update, the rollback of the API, the automatic
rollbacks (on a missed deadline and on failed workloads), and the autoscaler, which edits
the replica count alone.  The history of every stored deployment lists the revisions from 1
to the current one in order, ends with the current specification up to the replica count,
and only ever grows; every stored workload carries the image, the request and the priority
of the revision it names.
-/
import Orchestrator.System

namespace Orchestrator

open Lib

variable {env : Env} {o : Config} {S : Resource → Prop} {w w' : World} {d d' : Deployment}
  {c : DepCore} {v u : Workload} {s : Sys} {history : List DeploymentRevision}

/-! ### One record -/

/-- Two specifications that differ at most in the replica count. -/
def DeploymentSpec.SameUpToReplicas (a b : DeploymentSpec) : Prop :=
  a = { b with replicas := a.replicas }

/-- The history of a deployment: the revisions from 1 to the current one, in order, the last
with the current specification up to the replica count. -/
structure Chronicle (c : DepCore) : Prop where
  current : c.currentRevision = c.revisionHistory.length
  revisions : c.revisionHistory.map DeploymentRevision.revision =
    (List.range c.revisionHistory.length).map fun i : ℕ => (i : ℤ) + 1
  last : ∃ r, c.revisionHistory.getLast? = some r ∧ r.spec.SameUpToReplicas c.spec

/-- What holds of a stored record: it has a history, its rollout is normalized, and writing
it again does not change it. -/
structure Recorded (d : Deployment) : Prop where
  chronicle : Chronicle d.core
  normal : d.spec.normalized = d.spec
  stored : d.core.viaJSON = d.core

lemma DeploymentSpec.SameUpToReplicas.viaJSON {a b : DeploymentSpec} (h : a.SameUpToReplicas b) :
    a.viaJSON.SameUpToReplicas b.viaJSON := by
  rw [SameUpToReplicas] at h ⊢
  rw [h]
  rfl

lemma Chronicle.viaJSON (h : Chronicle c) : Chronicle c.viaJSON where
  current := by
    change c.currentRevision = _
    rw [DepCore.viaJSON, List.length_map]
    exact h.current
  revisions := by
    rw [DepCore.viaJSON, List.map_map, List.length_map, ← h.revisions]
    rfl
  last := by
    obtain ⟨r, hr, hspec⟩ := h.last
    refine ⟨r.viaJSON, ?_, hspec.viaJSON⟩
    rw [DepCore.viaJSON, List.getLast?_map, hr]
    rfl

lemma Chronicle.pos (h : Chronicle c) : 1 ≤ c.currentRevision := by
  obtain ⟨r, hr, -⟩ := h.last
  have hne : c.revisionHistory ≠ [] := by
    rintro hnil
    rw [hnil] at hr
    cases hr
  have hlen := List.length_pos_iff.mpr hne
  have hcur := h.current
  omega

/-- A revision is appended to the history. -/
lemma Chronicle.append (h : Chronicle c) (spec : DeploymentSpec) (now : Time) :
    Chronicle { c with
      spec := spec
      currentRevision := c.currentRevision + 1
      revisionHistory := c.revisionHistory ++
        [{ revision := c.currentRevision + 1, spec := spec, createdAt := now }] } where
  current := by
    change c.currentRevision + 1 = _
    rw [h.current, List.length_append]
    rfl
  revisions := by
    rw [List.map_append, h.revisions, List.length_append, List.length_singleton,
      List.range_succ, List.map_append, h.current]
    rfl
  last := by
    refine ⟨_, List.getLast?_concat, ?_⟩
    rfl

/-- The last entry is the one of the current revision. -/
lemma Chronicle.entry (h : Chronicle c) : ∃ r ∈ c.revisionHistory,
    r.revision = c.currentRevision ∧ r.spec.SameUpToReplicas c.spec := by
  obtain ⟨r, hr, hspec⟩ := h.last
  refine ⟨r, List.mem_of_getLast? hr, ?_, hspec⟩
  have hmap := congrArg List.getLast? h.revisions
  rw [List.getLast?_map, hr, List.getLast?_map] at hmap
  have hcur := h.current
  have hpos := h.pos
  obtain ⟨n, hn⟩ : ∃ n, c.revisionHistory.length = n + 1 :=
    ⟨c.revisionHistory.length - 1, by omega⟩
  rw [hn, List.range_succ, List.getLast?_concat] at hmap
  have hrev : r.revision = (n : ℤ) + 1 := Option.some.inj hmap
  rw [hrev, hcur, hn]
  rfl

lemma Recorded.prepared_core (h : Recorded d) : d.prepared.core = d.core := by
  have hpos := h.chronicle.pos
  have hcur : ¬ d.currentRevision ≤ 0 := by
    change 1 ≤ d.currentRevision at hpos
    omega
  simp [Deployment.core, Deployment.prepared, h.normal, if_neg hcur]

/-- Writing a record whose core is `c`, where `c` has a history that extends the one of `d`. -/
lemma recorded_of_core (hc : d'.core = c.viaJSON) (h : Chronicle c)
    (hnormal : c.spec.normalized = c.spec) (hd : d.core.viaJSON = d.core)
    (hpre : d.revisionHistory <+: c.revisionHistory) :
    Recorded d' ∧ d.revisionHistory <+: d'.revisionHistory := by
  refine ⟨⟨?_, ?_, ?_⟩, ?_⟩
  · rw [hc]
    exact h.viaJSON
  · have hspec : d'.spec = c.spec.viaJSON := congrArg DepCore.spec hc
    rw [hspec, ← hnormal]
    change c.spec.normalized.viaJSON.normalized = c.spec.normalized.viaJSON
    conv_rhs => rw [← DeploymentSpec.normalized_normalized]
    rfl
  · rw [hc, DepCore.viaJSON_viaJSON]
  · have hhist : d'.revisionHistory = c.revisionHistory.map DeploymentRevision.viaJSON :=
      congrArg DepCore.revisionHistory hc
    have hself : d.revisionHistory.map DeploymentRevision.viaJSON = d.revisionHistory :=
      congrArg DepCore.revisionHistory hd
    rw [hhist, ← hself]
    exact hpre.map _

/-- A change to a record keeps the history, or appends to it. -/
lemma DepChange.recorded (hc : DepChange S d d') (h : Recorded d) :
    Recorded d' ∧ d.revisionHistory <+: d'.revisionHistory := by
  cases hc with
  | touch hc =>
    rw [h.prepared_core, or_self] at hc
    exact recorded_of_core hc h.chronicle h.normal h.stored (List.prefix_refl _)
  | rollback d₀ h₀ rev target now ht hc =>
    have hcore : d₀.core = d.core := by
      rcases h₀ with rfl | rfl
      · rfl
      · exact h.prepared_core
    obtain ⟨hid, hspec, hcur, hhist, hdel⟩ := DepCore.mk.inj hcore
    refine recorded_of_core hc ?_ ?_ h.stored ?_
    · have happ := h.chronicle.append target.spec.normalized now
      rw [← hcore] at happ
      exact happ
    · exact DeploymentSpec.normalized_normalized _
    · change d.revisionHistory <+: d₀.revisionHistory ++ _
      rw [hhist]
      exact List.prefix_append _ _
  | scale replicas hc =>
    refine recorded_of_core hc ?_ ?_ h.stored (List.prefix_refl _)
    · obtain ⟨r, hr, hspec⟩ := h.chronicle.last
      refine ⟨h.chronicle.current, h.chronicle.revisions, r, hr, ?_⟩
      rw [DeploymentSpec.SameUpToReplicas] at hspec ⊢
      rw [hspec]
      rfl
    · have hroll : normalizeRolloutSpec d.spec.rollout = d.spec.rollout :=
        congrArg DeploymentSpec.rollout h.normal
      simp only [DeploymentSpec.normalized, hroll]
  | update next now hS hc =>
    have hnormal : (next.inherit d.spec).normalized = next.inherit d.spec := by
      simp only [DeploymentSpec.normalized, DeploymentSpec.inherit, normalizeRolloutSpec_idem]
    by_cases hch : d.spec = next.inherit d.spec
    · rw [Deployment.updatedTo, if_neg (not_not.mpr hch), ← hch] at hc
      exact recorded_of_core hc h.chronicle h.normal h.stored (List.prefix_refl _)
    · rw [Deployment.updatedTo, if_pos hch] at hc
      exact recorded_of_core hc (h.chronicle.append (next.inherit d.spec) now) hnormal h.stored
        (List.prefix_append _ _)
  | mark now hc =>
    exact recorded_of_core hc ⟨h.chronicle.current, h.chronicle.revisions, h.chronicle.last⟩
      h.normal h.stored (List.prefix_refl _)

/-- A new record has a history of one entry. -/
lemma recorded_newDeployment (id : String) (spec : DeploymentSpec) (now : Time) :
    Recorded (newDeployment id spec.admitted now).viaJSON := by
  have hchron : Chronicle (newDeployment id spec.admitted now).core :=
    ⟨rfl, rfl, _, rfl, rfl⟩
  have hstored : (newDeployment id spec.admitted now).core.viaJSON.viaJSON =
      (newDeployment id spec.admitted now).core.viaJSON := DepCore.viaJSON_viaJSON _
  refine ⟨hchron.viaJSON, ?_, hstored⟩
  change spec.admitted.viaJSON.normalized = spec.admitted.viaJSON
  conv_rhs => rw [← admitted_normalized]
  rfl

/-! ### Records and workloads -/

/-- The workload carries what the revision it names says. -/
def Follows (v : Workload) (d : Deployment) : Prop :=
  ∃ r ∈ d.revisionHistory, r.revision = v.version ∧ v.image = r.spec.image ∧
    v.resources = r.spec.resources ∧ v.priority = r.spec.priority

/-- The invariant: every record has its history and an id that was drawn, and every workload
belongs to a stored deployment and follows its history. -/
structure Histories (env : Env) (w : World) : Prop where
  drawn : ∀ d ∈ w.deps.rows, ∃ k < w.tick, d.id = env.deploymentID k
  recorded : ∀ d ∈ w.deps.rows, Recorded d
  owned : ∀ v ∈ w.workloads.rows, ∃ d ∈ w.deps.rows, d.id = v.deploymentID ∧ Follows v d

lemma Follows.mono (h : Follows v d) (hpre : d.revisionHistory <+: d'.revisionHistory) :
    Follows v d' := by
  obtain ⟨r, hr, h⟩ := h
  exact ⟨r, hpre.subset hr, h⟩

/-- A workload that differs only in its status follows the same history. -/
lemma Follows.congr (h : Follows u d) (hver : v.version = u.version)
    (himg : v.image = u.image) (hres : v.resources = u.resources)
    (hprio : v.priority = u.priority) : Follows v d := by
  obtain ⟨r, hr, h₁, h₂, h₃, h₄⟩ := h
  exact ⟨r, hr, h₁.trans hver.symm, himg.trans h₂, hres.trans h₃, hprio.trans h₄⟩

/-- A replica follows the last entry of the history. -/
lemma IsReplica.follows {n : Node} (h : IsReplica d.prepared n v)
    (hd : Recorded d) : Follows v d := by
  obtain ⟨r, hr, hrev, hspec⟩ := hd.chronicle.entry
  have hcore := hd.prepared_core
  have hcur : d.prepared.currentRevision = d.currentRevision :=
    congrArg DepCore.currentRevision hcore
  refine ⟨r, hr, ?_, ?_, ?_, ?_⟩
  · rw [h.version, hcur]
    exact hrev
  · rw [h.image, hspec]
    rfl
  · rw [h.resources, hspec]
    rfl
  · rw [h.priority, hspec]
    rfl

/-- What becomes of a deployment record in one action. -/
lemma Ctl.dep_fate (h : Ctl env S w w') (hw : ∀ d ∈ w.deps.rows, Recorded d)
    (hd : d ∈ w.deps.rows) :
    (w'.deps.get d.id = none ∧ ∀ v ∈ w'.workloads.rows, v.deploymentID ≠ d.id) ∨
    ∃ d' ∈ w'.deps.rows, d'.id = d.id ∧ d.revisionHistory <+: d'.revisionHistory := by
  have hsame : d ∈ w'.deps.rows → ∃ d' ∈ w'.deps.rows, d'.id = d.id ∧
      d.revisionHistory <+: d'.revisionHistory := fun h => ⟨d, h, rfl, List.prefix_refl _⟩
  cases h with
  | quiet A h => exact Or.inr (hsame (by rwa [h.deps]))
  | place _ _ _ h =>
    obtain ⟨_, _, _, _, _, -, -, -, -, -, -, h⟩ := h
    exact Or.inr (hsame (by rwa [h.deps]))
  | evict _ _ h =>
    obtain ⟨_, _, _, -, h⟩ := h
    exact Or.inr (hsame (by rwa [h.deps]))
  | status g W A hg hW h => exact Or.inr (hsame (by rwa [h.deps]))
  | node n status health seen hn h => exact Or.inr (hsame (by rwa [h.deps]))
  | dep e e' he he' h =>
    right
    by_cases hid : d.id = e'.id
    · obtain rfl : d = e := Table.eq_of_mem_of_key_eq hd he (hid.trans he'.id_eq)
      refine ⟨e', ?_, hid.symm, (he'.recorded (hw d hd)).2⟩
      rw [h.deps]
      exact Table.mem_rows_put.mpr (Or.inl rfl)
    · refine hsame ?_
      rw [h.deps]
      exact Table.mem_rows_put.mpr (Or.inr ⟨hd, hid⟩)
  | create spec k hS hnew hk hk' h =>
    refine Or.inr (hsame ?_)
    rw [h.deps]
    refine Table.mem_rows_put.mpr (Or.inr ⟨hd, ?_⟩)
    exact Table.get_eq_none_iff.mp hnew d hd
  | remove e he hall h =>
    by_cases hid : d.id = e.id
    · left
      rw [h.deps, h.workloads, hid]
      refine ⟨Table.get_del_self _ _, ?_⟩
      intro v hv
      have hv' := (Table.mem_rows_delWhere.mp hv).2
      simpa using hv'
    · refine Or.inr (hsame ?_)
      rw [h.deps]
      exact Table.mem_rows_del.mpr ⟨hd, hid⟩

/-- **An action keeps the histories.** -/
lemma Ctl.histories (h : Ctl env S w w') (hw : Histories env w) : Histories env w' := by
  refine ⟨?_, ?_, ?_⟩
  · intro d hd
    rcases h.dep_cases hd with hd | ⟨e, he, hch⟩ | ⟨spec, k, -, -, -, hk, rfl⟩
    · obtain ⟨k, hk, hid⟩ := hw.drawn d hd
      exact ⟨k, hk.trans_le h.tick_le, hid⟩
    · obtain ⟨k, hk, hid⟩ := hw.drawn e he
      exact ⟨k, hk.trans_le h.tick_le, hch.id_eq.trans hid⟩
    · exact ⟨k, hk, rfl⟩
  · intro d hd
    rcases h.dep_cases hd with hd | ⟨e, he, hch⟩ | ⟨spec, k, -, -, -, -, rfl⟩
    · exact hw.recorded d hd
    · exact (hch.recorded (hw.recorded e he)).1
    · exact recorded_newDeployment _ _ _
  · intro v hv
    -- the owner of `v` before the action, or the deployment that `v` is a replica of
    obtain ⟨d, hd, hid, hfol⟩ : ∃ d ∈ w.deps.rows, d.id = v.deploymentID ∧ Follows v d := by
      rcases h.workload_cases hv with ⟨u, hu, hr⟩ | ⟨d, hd, -, n, -, hrep, -⟩
      · obtain ⟨d, hd, hid, hfol⟩ := hw.owned u hu
        obtain ⟨-, -, hres, hdep, hver, himg, hprio⟩ := hr.fields
        exact ⟨d, hd, hid.trans hdep.symm, hfol.congr hver himg hres hprio⟩
      · exact ⟨d, hd, hrep.deploymentID.symm, hrep.follows (hw.recorded d hd)⟩
    rcases h.dep_fate hw.recorded hd with ⟨-, hnone⟩ | ⟨d', hd', hid', hpre⟩
    · exact absurd hid.symm (hnone v hv)
    · exact ⟨d', hd', hid'.trans hid, hfol.mono hpre⟩

/-- The records are as before, and every workload is an old one up to its status. -/
lemma Histories.of_workloads (hw : Histories env w) (hD : w'.deps = w.deps)
    (ht : w.tick ≤ w'.tick)
    (hW : ∀ v ∈ w'.workloads.rows, ∃ u ∈ w.workloads.rows, v.deploymentID = u.deploymentID ∧
      v.version = u.version ∧ v.image = u.image ∧ v.resources = u.resources ∧
      v.priority = u.priority) : Histories env w' := by
  refine ⟨?_, by rw [hD]; exact hw.recorded, ?_⟩
  · intro d hd
    rw [hD] at hd
    obtain ⟨k, hk, hid⟩ := hw.drawn d hd
    exact ⟨k, hk.trans_le ht, hid⟩
  intro v hv
  obtain ⟨u, hu, hdep, hver, himg, hres, hprio⟩ := hW v hv
  obtain ⟨d, hd, hid, hfol⟩ := hw.owned u hu
  rw [hD]
  exact ⟨d, hd, hid.trans hdep.symm, hfol.congr hver himg hres hprio⟩

lemma Histories.of_eq (hw : Histories env w) (hD : w'.deps = w.deps)
    (hW : w'.workloads = w.workloads) (ht : w.tick ≤ w'.tick) : Histories env w' := by
  refine hw.of_workloads hD ht ?_
  rw [hW]
  exact fun v hv => ⟨v, hv, rfl, rfl, rfl, rfl, rfl⟩

lemma Histories.of_released (hw : Histories env w) (h : Released u w w') :
    Histories env w' := by
  obtain ⟨-, seen, he⟩ := h
  refine hw.of_workloads he.deps he.tick ?_
  intro v hv
  rw [he.workloads, Table.mem_rows_del] at hv
  exact ⟨v, hv.1, rfl, rfl, rfl, rfl, rfl⟩

lemma Histories.of_restated {status : WorkloadStatus} (hw : Histories env w)
    (h : Restated u status w w') : Histories env w' := by
  obtain ⟨hu, cid, now, he⟩ := h
  refine hw.of_workloads he.deps he.tick ?_
  intro v hv
  rw [he.workloads, Table.mem_rows_put] at hv
  rcases hv with rfl | ⟨hv, -⟩
  · exact ⟨u, hu, rfl, rfl, rfl, rfl, rfl⟩
  · exact ⟨v, hv, rfl, rfl, rfl, rfl, rfl⟩

/-- **A step keeps the histories.** -/
lemma Caused.histories {e : Event} (h : Caused env S s e w')
    (hw : Histories env s.world) : Histories env w' :=
  h.invariant (fun h => h.histories) (fun hD hW ht hw => hw.of_eq hD hW ht)
    (fun _ h hw => hw.of_restated h) (fun h hw => hw.of_released h) hw

/-! ### Histories grow -/

/-- The record under this id is gone, or its history extends the given one. -/
def Grown (id : String) (history : List DeploymentRevision) (w : World) : Prop :=
  ∀ d, w.deps.get id = some d → history <+: d.revisionHistory

lemma Ctl.grown (hids : Function.Injective env.deploymentID) {k : ℕ} (hk : k < w.tick)
    (h : Ctl env S w w') (hw : Histories env w)
    (hg : Grown (env.deploymentID k) history w) : Grown (env.deploymentID k) history w' := by
  intro d' hd'
  have hmem' := Table.mem_of_get hd'
  have hid' : d'.id = env.deploymentID k := Table.key_of_get hd'
  cases hget : w.deps.get (env.deploymentID k) with
  | some d =>
    have hmem := Table.mem_of_get hget
    have hid : d.id = env.deploymentID k := Table.key_of_get hget
    rcases h.dep_fate hw.recorded hmem with ⟨hnone, -⟩ | ⟨e, he, heid, hpre⟩
    · rw [hid, hd'] at hnone
      cases hnone
    · obtain rfl : e = d' := Table.eq_of_mem_of_key_eq he hmem' (heid.trans (hid.trans hid'.symm))
      exact (hg d hget).trans hpre
  | none =>
    -- the record is not there, and its id is not drawn again
    have habsent := Table.get_eq_none_iff.mp hget
    rcases h.dep_cases hmem' with hd | ⟨e, he, hch⟩ | ⟨spec, j, -, -, hj, -, rfl⟩
    · exact absurd hid' (habsent d' hd)
    · exact absurd (hch.id_eq.symm.trans hid') (habsent e he)
    · have hjk : j = k := hids hid'
      omega

lemma Grown.of_eq {id : String} (hg : Grown id history w)
    (hD : w'.deps = w.deps) : Grown id history w' := by
  rwa [Grown, hD]

/-- What the history of a record needs in order to grow. -/
structure Growing (env : Env) (k : ℕ) (history : List DeploymentRevision) (w : World) : Prop where
  histories : Histories env w
  drawn : k < w.tick
  grown : Grown (env.deploymentID k) history w

lemma Caused.growing (hids : Function.Injective env.deploymentID) {e : Event} {k : ℕ}
    (h : Caused env S s e w')
    (hs : Growing env k history s.world) : Growing env k history w' := by
  refine h.invariant (I := Growing env k history) ?_ ?_ ?_ ?_ hs
  · intro w w' h hw
    exact ⟨h.histories hw.histories, hw.drawn.trans_le h.tick_le,
      h.grown hids hw.drawn hw.histories hw.grown⟩
  · intro w w' hD hW ht hw
    exact ⟨hw.histories.of_eq hD hW ht, hw.drawn.trans_le ht, hw.grown.of_eq hD⟩
  · intro u status w w' _ h hw
    exact ⟨hw.histories.of_restated h, hw.drawn.trans_le h.tick_le, hw.grown.of_eq h.deps⟩
  · intro u w w' h hw
    exact ⟨hw.histories.of_released h, hw.drawn.trans_le h.tick_le, hw.grown.of_eq h.deps⟩

/-! ### Runs -/

lemma Runs.histories {s' : Sys} (h : Runs (Sys.step env o) Event.Any s s')
    (hs : Histories env s.world) : Histories env s'.world :=
  h.invariant (I := fun s => Histories env s.world) hs fun e s hI _ =>
    (Sys.caused_any s e).histories hI

lemma histories_init : Histories env Sys.init.world := by
  constructor <;> intro _ h <;> cases h

/-- Along a run the history of a record that is stored at its start only grows. -/
lemma Runs.grown (hids : Function.Injective env.deploymentID) {s' : Sys}
    (h : Runs (Sys.step env o) Event.Any s s') (hs : Histories env s.world)
    (hd : d ∈ s.world.deps.rows) (hd' : d' ∈ s'.world.deps.rows) (hid : d'.id = d.id) :
    d.revisionHistory <+: d'.revisionHistory := by
  obtain ⟨k, hk, hdk⟩ := hs.drawn d hd
  have hstart : Grown (env.deploymentID k) d.revisionHistory s.world := by
    intro e he
    rw [← hdk, Table.get_of_mem hd] at he
    cases he
    exact List.prefix_refl _
  have hinv : Growing env k d.revisionHistory s'.world :=
    h.invariant (I := fun s => Growing env k d.revisionHistory s.world) ⟨hs, hk, hstart⟩
      fun e s hI _ => (Sys.caused_any s e).growing hids hI
  refine hinv.grown d' ?_
  rw [← hdk, ← hid]
  exact Table.get_of_mem hd'

lemma Recorded.version_bounds (h : Recorded d) (hv : Follows v d) :
    1 ≤ v.version ∧ v.version ≤ d.currentRevision := by
  obtain ⟨r, hr, hrev, -⟩ := hv
  have hmem : r.revision ∈ d.core.revisionHistory.map DeploymentRevision.revision :=
    List.mem_map_of_mem hr
  rw [h.chronicle.revisions] at hmem
  obtain ⟨i, hi, hri⟩ := List.mem_map.mp hmem
  have hlt := List.mem_range.mp hi
  have hcur := h.chronicle.current
  change d.currentRevision = _ at hcur
  omega

/-- **Integrity of the revision histories.** In every reachable state the history of a stored
deployment lists the revisions from 1 to the current one and ends with its specification up
to the replica count; every workload of it follows the entry of its version; along every
run the histories only grow, as long as no id is drawn twice; and a rollback that fails
leaves the records alone. -/
theorem history_integrity {s : Sys} (h : Runs (Sys.step env o) Event.Any Sys.init s) :
    (∀ d ∈ s.world.deps.rows, Chronicle d.core) ∧
    (∀ d ∈ s.world.deps.rows, ∀ v ∈ s.world.workloads.rows, v.deploymentID = d.id →
      1 ≤ v.version ∧ v.version ≤ d.currentRevision ∧ Follows v d) ∧
    (Function.Injective env.deploymentID → ∀ s', Runs (Sys.step env o) Event.Any s s' →
      ∀ d ∈ s.world.deps.rows, ∀ d' ∈ s'.world.deps.rows, d'.id = d.id →
        d.revisionHistory <+: d'.revisionHistory) ∧
    (∀ id rev e, (rollbackDeployment id rev).result (exec env) s.world = .error e →
      ((rollbackDeployment id rev).final (exec env) s.world).deps = s.world.deps) := by
  have hw : Histories env s.world := Runs.histories h histories_init
  refine ⟨fun d hd => (hw.recorded d hd).chronicle, ?_, ?_, ?_⟩
  · intro d hd v hv hdep
    obtain ⟨d', hd', hid, hfol⟩ := hw.owned v hv
    obtain rfl : d' = d := Table.eq_of_mem_of_key_eq hd' hd (hid.trans hdep)
    obtain ⟨h₁, h₂⟩ := (hw.recorded d' hd').version_bounds hfol
    exact ⟨h₁, h₂, hfol⟩
  · intro hids s' h' d hd d' hd' hid
    exact Runs.grown hids h' hw hd hd' hid
  · intro id rev e he
    have hrun : Holds env (planeRules (fun _ => True) fun _ => False) (rollbackDeployment id rev)
        s.world _ := rollbackDeployment_holds id rev
    exact (hrun.run.2.2 e he).deps

/-- A deployment is created, updated and rolled back. -/
def rollbackRun : List Event :=
  webRun ++ [.updateDeployment (steadyEnv.deploymentID 5) { webSpec with image := "img2" },
    .rollbackDeployment (steadyEnv.deploymentID 5) 1]

theorem history_integrity_rollback : ∃ s : Sys, ∃ d ∈ s.world.deps.rows,
    Runs (Sys.step steadyEnv plainConfig) Event.Any Sys.init s ∧ d.currentRevision = 3 ∧
      Chronicle d.core ∧ ∀ s', Runs (Sys.step steadyEnv plainConfig) Event.Any s s' →
        ∀ d' ∈ s'.world.deps.rows, d'.id = d.id → d.revisionHistory <+: d'.revisionHistory := by
  have hrun : Runs (Sys.step steadyEnv plainConfig) Event.Any Sys.init _ :=
    Runs.of_list rollbackRun (admissible_any rollbackRun Sys.init)
  have hthree : ∃ d ∈
      (after (Sys.step steadyEnv plainConfig) rollbackRun Sys.init).world.deps.rows,
      d.currentRevision = 3 := by
    decide +kernel
  obtain ⟨d, hd, h⟩ := hthree
  have hids := Env.deploymentID_injective steadyEnv_clock_pos steadyEnv_clock_injective
  obtain ⟨hchron, -, hgrow, -⟩ := history_integrity hrun
  exact ⟨_, d, hd, hrun, h, hchron d hd, fun s' h' d' hd' => hgrow hids s' h' d hd d' hd'⟩

end Orchestrator
