/-
# Progress of a rollout

A pass over an unfinished rollout should create or terminate some replica.  It does so
exactly if the first replica it wants to create finds a node, or, if it wants none, if it
holds no canary and there are more active replicas than have to be available.  With neither
surge nor unavailability (the defaults), with a canary that needs surge, or when the first
placement fails, the pass does nothing, and the rollout is stuck.
-/
import Orchestrator.Api.Validation
import Orchestrator.Properties.Availability

namespace Orchestrator

open Lib

variable {env : Env} {o : Config} {d dep : Deployment} {w w' : World} {id : String} {v : Workload}
  {m : ℤ}

/-- Between `w` and `w'` some workload of the deployment was created or terminated. -/
def Moved (id : String) (w w' : World) : Prop :=
  (∃ v ∈ w'.deployed id, ∀ u ∈ w.deployed id, u.id ≠ v.id) ∨
    ∃ u ∈ w.deployed id, u.status ≠ .terminating ∧
      ∃ v ∈ w'.deployed id, v.id = u.id ∧ v.status = .terminating

instance (id : String) (w w' : World) : Decidable (Moved id w w') :=
  inferInstanceAs (Decidable (_ ∨ _))

lemma not_moved_of_perm (h : (w'.deployed id).Perm (w.deployed id)) :
    ¬ Moved id w w' := by
  rintro (⟨v, hv, hnew⟩ | ⟨u, hu, hst, v, hv, hid, hvst⟩)
  · exact hnew v (h.mem_iff.mp hv) rfl
  · have hv' := h.mem_iff.mp hv
    obtain rfl := List.inj_on_of_nodup_map (nodup_deployed w id) hv' hu hid
    exact hst hvst

/-! ### What the stages of a pass move -/

/-- A replica that was just created has an id that no other has. -/
lemma Enlarged.moved {n : ℕ} (h : Enlarged dep n w w') (hn : 0 < n) : Moved dep.id w w' := by
  obtain ⟨vs, rfl, -, hperm⟩ := h
  obtain ⟨v, hv⟩ := List.exists_mem_of_length_pos hn
  have hnd : ((vs ++ w.deployed dep.id).map Workload.id).Nodup :=
    (hperm.map _).nodup_iff.mp (nodup_deployed w' dep.id)
  rw [List.map_append, List.nodup_append] at hnd
  refine Or.inl ⟨v, hperm.mem_iff.mpr (List.mem_append_left _ hv), ?_⟩
  intro u hu huv
  exact hnd.2.2 _ (List.mem_map_of_mem hv) _ (List.mem_map_of_mem hu) huv.symm

/-- Marking keeps the ids, and what is terminating stays so. -/
lemma MarkedBy.kept {vs : List Workload} (h : MarkedBy vs w w')
    (hv : v ∈ w.deployed id) : ∃ v' ∈ w'.deployed id, v'.id = v.id ∧
      (v.status = .terminating ∨ v.id ∈ vs.map Workload.id → v'.status = .terminating) := by
  obtain ⟨τ, hτ⟩ := h.deployed id
  rw [hτ]
  refine ⟨_, List.mem_map_of_mem hv, ?_⟩
  split_ifs with hmem
  · exact ⟨rfl, fun _ => rfl⟩
  · exact ⟨rfl, fun h => h.resolve_right hmem⟩

lemma Moved.of_kept {w₁ : World} (h : Moved id w w₁)
    (hkept : ∀ v ∈ w₁.deployed id, ∃ v' ∈ w'.deployed id, v'.id = v.id ∧
      (v.status = .terminating → v'.status = .terminating)) : Moved id w w' := by
  rcases h with ⟨v, hv, hnew⟩ | ⟨u, hu, hst, v, hv, hid, hvst⟩
  · obtain ⟨v', hv', hid, -⟩ := hkept v hv
    refine Or.inl ⟨v', hv', ?_⟩
    rw [hid]
    exact hnew
  · obtain ⟨v', hv', hid', hst'⟩ := hkept v hv
    exact Or.inr ⟨u, hu, hst, v', hv', hid'.trans hid, hst' hvst⟩

lemma ScaledDown.kept (h : ScaledDown dep m w w')
    (hv : v ∈ w.deployed id) : ∃ v' ∈ w'.deployed id, v'.id = v.id ∧
      (v.status = .terminating ∨ v.id ∈ (oldVictims dep m w).map Workload.id →
        v'.status = .terminating) := by
  obtain ⟨w₁, h₁, h₂⟩ := h
  obtain ⟨v₁, hv₁, hid₁, hst₁⟩ := h₁.kept hv
  obtain ⟨v₂, hv₂, hid₂, hst₂⟩ := h₂.kept hv₁
  exact ⟨v₂, hv₂, hid₂.trans hid₁, fun h => hst₂ (Or.inl (hst₁ h))⟩

/-- With an old replica and more active ones than have to be available, some old one goes. -/
lemma ScaledDown.moved (h : ScaledDown dep m w w')
    (hold : 0 < (census dep.currentRevision (w.deployed dep.id)).old)
    (hm : m < (w.activeOf dep.id).length) : Moved dep.id w w' := by
  rw [World.activeOf, length_active dep.currentRevision] at hm
  obtain ⟨hsub, -, -, htotal⟩ := census_oldVictims dep m w
  have hne : oldVictims dep m w ≠ [] := by
    intro hnil
    rw [hnil] at htotal
    have hzero : (census dep.currentRevision ([] : List Workload)).total = 0 := rfl
    rw [hzero] at htotal
    omega
  obtain ⟨v, hv⟩ := List.exists_mem_of_ne_nil _ hne
  have hmem : v ∈ w.deployed dep.id := hsub.subset hv
  obtain ⟨v', hv', hid, hst⟩ := h.kept hmem
  refine Or.inr ⟨v, hmem, ?_, v', hv', hid, hst (Or.inr (List.mem_map_of_mem hv))⟩
  intro hterm
  have hact := (mem_pickScaleDownVictims hv).2
  simp [Workload.active, hterm] at hact

/-- With no victims nothing happens. -/
lemma ScaledDown.eq_of_nil (h : ScaledDown dep m w w') (hold : oldVictims dep m w = [])
    (hexcess : excessVictims dep w = []) : w' = w := by
  obtain ⟨w₁, ⟨-, -, -, -, -, h₁⟩, ⟨-, -, -, -, -, h₂⟩⟩ := h
  obtain rfl := h₁ hold
  exact h₂ hexcess

/-- With no more active replicas than have to be available, none goes. -/
lemma ScaledDown.eq_of_le (h : ScaledDown dep m w w') (hmR : m ≤ dep.spec.replicas.toInt)
    (hm : ((w.activeOf dep.id).length : ℤ) ≤ m) : w' = w := by
  refine h.eq_of_nil (pickScaleDownVictims_of_nonpos ?_) (pickScaleDownVictims_of_nonpos ?_)
  · exact (min_le_right _ _).trans (by omega)
  · omega

/-- The end of a pass keeps the ids, and what is terminating stays so. -/
lemma Finished.kept {plan : RolloutPlan} (h : Finished dep plan w w')
    (hv : v ∈ w.deployed id) : ∃ v' ∈ w'.deployed id, v'.id = v.id ∧
      (v.status = .terminating → v'.status = .terminating) := by
  obtain ⟨w₁, hscale, hback⟩ := h
  rw [hback.deployed]
  split at hscale
  · subst hscale
    exact ⟨v, hv, rfl, fun h => h⟩
  · obtain ⟨v', hv', hid, hst⟩ := hscale.kept hv
    exact ⟨v', hv', hid, fun h => hst (Or.inl h)⟩

/-! ### A pass -/

lemma creations_zero {r : Option Err} (h : Creations env dep 0 w r w') : r = none ∧ w' = w := by
  cases r with
  | none =>
    cases (h : PlacedMany env dep 0 w w')
    exact ⟨rfl, rfl⟩
  | some e =>
    obtain ⟨j, -, hj, -⟩ := h
    exact absurd hj (Nat.not_lt_zero j)

/-- Without a deadline, the check makes no reading and finds none exceeded. -/
lemma progressDeadlineExceeded_of_none (h : d.spec.rollout.progressDeadlineSeconds ≤ 0) :
    progressDeadlineExceeded d.prepared = pure false := by
  have hzero : ¬ d.prepared.spec.rollout.progressDeadlineSeconds > 0 := by
    change ¬ (0 : Int64) < if d.spec.rollout.progressDeadlineSeconds < 0 then 0
      else d.spec.rollout.progressDeadlineSeconds
    split_ifs
    · decide
    · rw [Int64.lt_iff_toInt_lt]
      rw [Int64.le_iff_toInt_le] at h
      omega
  exact if_neg fun hc => hzero hc.2.1

/-- Without a deadline, `reconcileDeployment` is a pass. -/
lemma Reconciled.pass (h : Reconciled env o d w w')
    (hdl : d.spec.rollout.progressDeadlineSeconds ≤ 0) : Pass env o d.prepared w w' := by
  have hnone := progressDeadlineExceeded_of_none hdl
  rcases h with ⟨hpast, -⟩ | ⟨-, h⟩
  · rw [PastDeadline, hnone] at hpast
    cases hpast
  · rw [afterDeadlineCheck, hnone] at h
    exact h

/-- Not more replicas have to be available than are wanted, unless none has to be. -/
lemma minAvailable_le (hone : 0 < (rolloutPlan d.prepared (w.deployed d.id)).minAvailable) :
    (rolloutPlan d.prepared (w.deployed d.id)).minAvailable ≤
      d.prepared.spec.replicas.toInt := by
  have hU : 0 ≤ d.prepared.spec.rollout.rollingUpdate.maxUnavailable.toInt :=
    normalized_maxUnavailable_nonneg d.spec.rollout
  simp only [rolloutPlan] at hone ⊢
  omega

lemma old_pos {rev : ℤ} (h : ∃ v ∈ w.activeOf id, v.version ≠ rev) :
    0 < (census rev (w.deployed id)).old := by
  obtain ⟨v, hv, hold⟩ := h
  rw [← length_oldActive]
  exact List.length_pos_of_mem (List.mem_filter.mpr ⟨hv, by simpa using hold⟩)

/-- **Progress.**  A pass over a rollout with an old replica and without a deadline creates or
terminates a replica exactly if the first replica it wants to create finds a node, or, if it
wants to create none, if it holds no canary and there are more active replicas than have to
be available. -/
theorem rollout_moves_iff (o : Config) (hids : Function.Injective env.workloadID)
    (hw : Fresh env w) {id : String} (hd : w.deps.get id = some d)
    (hdl : d.spec.rollout.progressDeadlineSeconds ≤ 0)
    (hold : ∃ v ∈ w.activeOf id, v.version ≠ d.prepared.currentRevision) :
    let plan := rolloutPlan d.prepared (w.deployed id)
    Moved id w ((reconcileDeployment o id).final (exec env) w) ↔
      if 0 < plan.toCreate then Placeable d.prepared w
      else plan.phase ≠ .canary ∧ plan.minAvailable < (w.activeOf id).length := by
  intro plan
  obtain rfl : d.id = id := Table.key_of_get hd
  have hrec : Reconciled env o d w _ := reconciled_final hd
  obtain ⟨r, w₁, -, hc, hend⟩ := hrec.pass hdl
  generalize (reconcileDeployment o d.id).final (exec env) w = w' at hend ⊢
  change Creations env d.prepared plan.toCreate.toNat w r w₁ at hc
  obtain ⟨-, j, hgrow, hj, -, hpl⟩ := hc.enlarged hids hw
  split_ifs with hcreate
  · have hn : 0 < plan.toCreate.toNat := by omega
    rw [← hpl hn]
    constructor
    · -- without a replica the loop has failed, and nothing else happens
      intro hmoved
      by_contra hj0
      obtain rfl : j = 0 := by omega
      cases r with
      | none => exact absurd (hj rfl) hn.ne
      | some e =>
        obtain ⟨vs, hlen, -, hperm⟩ := hgrow
        obtain rfl := List.length_eq_zero_iff.mp hlen
        refine not_moved_of_perm ?_ hmoved
        rw [hend.deployed]
        exact hperm
    · intro hj0
      refine (hgrow.moved hj0).of_kept ?_
      intro v hv
      cases r with
      | none => exact Finished.kept hend hv
      | some e =>
        refine ⟨v, ?_, rfl, fun h => h⟩
        rw [hend.deployed]
        exact hv
  · have hn : plan.toCreate.toNat = 0 := by omega
    rw [hn] at hc
    obtain ⟨rfl, rfl⟩ := creations_zero hc
    obtain ⟨w₂, hscale, hback⟩ := hend
    have hmoved : Moved d.id w₁ w' ↔ Moved d.id w₁ w₂ := by
      simp only [Moved, hback.deployed]
    rw [hmoved]
    split at hscale
    · next hphase =>
      subst hscale
      exact ⟨fun h => absurd h (not_moved_of_perm (List.Perm.refl _)), fun h => absurd hphase h.1⟩
    · next hphase =>
      refine ⟨fun h => ⟨hphase, ?_⟩, fun h => hscale.moved (old_pos hold) h.2⟩
      by_contra hm
      have hpos : 0 < (w₁.activeOf d.id).length := by
        obtain ⟨v, hv, -⟩ := hold
        exact List.length_pos_of_mem hv
      have hle : plan.minAvailable ≤ d.prepared.spec.replicas.toInt :=
        minAvailable_le (by change 0 < plan.minAvailable; omega)
      rw [hscale.eq_of_le hle (not_lt.mp hm)] at h
      exact not_moved_of_perm (List.Perm.refl _) h

/-- With two replicas of which one may be unavailable, the pass after an update moves. -/
theorem rollout_moves_two :
    let w := updatedWorld (rollingSpec "a" 2 0 1) (rollingSpec "b" 2 0 1)
    Fresh steadyEnv w ∧ Moved servingID w (passOnce w) := by
  intro w
  have hw : Fresh steadyEnv w := fresh_after _
  obtain ⟨d, hd, hdl, hold, hcreate, hphase, hmin⟩ : ∃ d, w.deps.get servingID = some d ∧
      d.spec.rollout.progressDeadlineSeconds ≤ 0 ∧
      (∃ v ∈ w.activeOf servingID, v.version ≠ d.prepared.currentRevision) ∧
      ¬ 0 < (rolloutPlan d.prepared (w.deployed servingID)).toCreate ∧
      (rolloutPlan d.prepared (w.deployed servingID)).phase ≠ .canary ∧
      (rolloutPlan d.prepared (w.deployed servingID)).minAvailable <
        (w.activeOf servingID).length := by
    decide +kernel
  refine ⟨hw, (rollout_moves_iff plainConfig steadyEnv_ids hw hd hdl hold).mpr ?_⟩
  rw [if_neg hcreate]
  exact ⟨hphase, hmin⟩

/-- With neither surge nor unavailability, which are the defaults, nothing happens after an
update: the specification is accepted, the only replica runs, its revision is old, a node
could host one more, and the pass neither creates nor terminates. -/
theorem rollout_stuck :
    let w := updatedWorld (rollingSpec "a" 1 0 0) (rollingSpec "b" 1 0 0)
    Fresh steadyEnv w ∧ ∃ d, w.deps.get servingID = some d ∧
      validateDeploymentSpec d.spec = none ∧
      d.spec.rollout.progressDeadlineSeconds ≤ 0 ∧
      (∀ v ∈ w.activeOf servingID, v.status = .running) ∧
      (∀ v ∈ w.deployed servingID, v.status ≠ .terminating) ∧
      (∃ v ∈ w.activeOf servingID, v.version ≠ d.prepared.currentRevision) ∧
      CanHost d.prepared w.nodes ∧ ¬ Moved servingID w (passOnce w) := by
  intro w
  exact ⟨fresh_after _, by decide +kernel⟩

end Orchestrator
