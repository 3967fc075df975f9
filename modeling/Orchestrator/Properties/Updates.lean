/-
# Updating twice

`UpdateDeployment` starts a new revision if the specification that it is given, completed from the
stored one, differs from the stored one.  The comparison tells a list that is empty from one that
is nil, and the encoding of the store does not: a list tagged `omitempty` that is empty comes back
as nil.  So an update with such a list differs from what it has stored itself.
-/
import Orchestrator.Logic.Operations
import Orchestrator.System

namespace Orchestrator

open Lib

variable {s old : DeploymentSpec} {d d' : Deployment}

/-- No list of the specification is there but empty. -/
structure DeploymentSpec.NoEmptyList (s : DeploymentSpec) : Prop where
  secretMounts : s.secretMounts ≠ some []
  volumeClaims : s.volumeClaims ≠ some []
  tolerations : s.tolerations ≠ some []

lemma omitEmpty_eq_self_iff {α : Type} {l : Option (List α)} : omitEmpty l = l ↔ l ≠ some [] := by
  rcases l with _ | _ | _ <;> simp [omitEmpty]

/-- An update asks for what it has stored. -/
lemma DeploymentSpec.inherit_stored_iff (s old : DeploymentSpec) :
    (s.inherit old).viaJSON = s.inherit (s.inherit old).viaJSON ↔ s.NoEmptyList := by
  constructor
  · intro h
    refine ⟨omitEmpty_eq_self_iff.mp (congrArg secretMounts h),
      omitEmpty_eq_self_iff.mp (congrArg volumeClaims h), fun hempty => ?_⟩
    have htol := congrArg tolerations h
    simp [inherit, viaJSON, hempty, omitEmpty] at htol
  · rintro ⟨hmounts, hclaims, htol⟩
    have htol' : omitEmpty (if s.tolerations = none then old.tolerations else s.tolerations) =
        if s.tolerations = none then
          omitEmpty (if s.tolerations = none then old.tolerations else s.tolerations)
        else s.tolerations := by
      split_ifs with hnone
      · rfl
      · exact omitEmpty_eq_self_iff.mpr htol
    have hinner : ∀ {α : Type} {c : Prop} [Decidable c] (a b : α),
        (if c then a else b) = if c then (if c then a else b) else b := by
      intro α c _ a b
      split_ifs <;> rfl
    simp only [inherit, viaJSON, mk.injEq, Resource.mk.injEq, true_and, and_true]
    exact ⟨omitEmpty_eq_self_iff.mpr hmounts, omitEmpty_eq_self_iff.mpr hclaims, hinner _ _,
      ⟨hinner _ _, hinner _ _⟩, hinner _ _, htol'⟩

/-! ### The stored records -/

/-- What an update leaves of a record, in terms of the stored one. -/
structure Updated (s : DeploymentSpec) (d d' : Deployment) : Prop where
  spec : d'.spec = (s.inherit d.spec).viaJSON
  same : d.spec = s.inherit d.spec → d'.currentRevision = d.currentRevision ∧
    d'.revisionHistory = d.revisionHistory.map DeploymentRevision.viaJSON
  changed : d.spec ≠ s.inherit d.spec → d'.currentRevision = d.currentRevision + 1

lemma updated_of_core {now : Time} (h : d'.core = (d.updatedTo s now).core.viaJSON) :
    Updated s d d' := by
  have hspec : d'.spec = (d.updatedTo s now).spec.viaJSON := congrArg DepCore.spec h
  have hrev : d'.currentRevision = (d.updatedTo s now).currentRevision :=
    congrArg DepCore.currentRevision h
  have hhist : d'.revisionHistory =
      (d.updatedTo s now).revisionHistory.map DeploymentRevision.viaJSON :=
    congrArg DepCore.revisionHistory h
  refine ⟨hspec.trans ?_, fun hsame => ⟨hrev.trans ?_, hhist.trans ?_⟩, fun hne => hrev.trans ?_⟩
  · unfold Deployment.updatedTo
    split_ifs <;> rfl
  · rw [Deployment.updatedTo, if_neg (not_not.mpr hsame)]
  · rw [Deployment.updatedTo, if_neg (not_not.mpr hsame)]
  · rw [Deployment.updatedTo, if_pos hne]
    rfl

/-- The record after an update, which is as it is read from the store. -/
lemma updateDeployment_updates (env : Env) {w : World} {id : String} (s : DeploymentSpec)
    (hd : w.deps.get id = some d) : ∃ d',
      ((updateDeployment id s).final (exec env) w).deps.get id = some d' ∧ Updated s d d' ∧
        d'.revisionHistory.map DeploymentRevision.viaJSON = d'.revisionHistory := by
  have hrun : Holds env Rules.any (updateDeployment id s) w _ := updateDeployment_outcome id s
  rcases hrun.run with ⟨hnone, -⟩ | ⟨e, now, he, d', hcore, heff⟩
  · exact nomatch hd.symm.trans hnone
  obtain rfl : d = e := Option.some.inj (hd.symm.trans he)
  have hid : d'.id = id := by
    have hkey : d.id = id := Table.key_of_get hd
    have hcore' : d'.id = (d.updatedTo s now).id := congrArg DepCore.id hcore
    rw [hcore', Deployment.updatedTo]
    split_ifs <;> exact hkey
  refine ⟨d', ?_, updated_of_core hcore, ?_⟩
  · rw [heff.deps, ← hid]
    exact Table.get_put_self _ d'
  · have hhist : d'.revisionHistory =
        (d.updatedTo s now).revisionHistory.map DeploymentRevision.viaJSON :=
      congrArg DepCore.revisionHistory hcore
    rw [hhist, List.map_map]
    exact List.map_congr_left fun r _ => r.viaJSON_viaJSON

/-- **Updating twice.** An update that is applied again leaves the current revision and the
history as they are exactly if its specification has no empty list where there could be none. -/
theorem update_twice_iff (env : Env) (w : World) (id : String) (d : Deployment)
    (hd : w.deps.get id = some d) (s : DeploymentSpec) :
    let once := (updateDeployment id s).final (exec env) w
    let twice := (updateDeployment id s).final (exec env) once
    ∃ d₁ d₂, once.deps.get id = some d₁ ∧ twice.deps.get id = some d₂ ∧
      (d₂.currentRevision = d₁.currentRevision ∧ d₂.revisionHistory = d₁.revisionHistory ↔
        s.NoEmptyList) := by
  intro once twice
  obtain ⟨d₁, hd₁, hup₁, hhist⟩ := updateDeployment_updates env s hd
  obtain ⟨d₂, hd₂, hup₂, -⟩ := updateDeployment_updates env s hd₁
  refine ⟨d₁, d₂, hd₁, hd₂, ?_⟩
  rw [← s.inherit_stored_iff d.spec, ← hup₁.spec]
  constructor
  · rintro ⟨hrev, -⟩
    by_contra hne
    have hnew := hup₂.changed hne
    omega
  · intro hsame
    obtain ⟨hrev, hsame'⟩ := hup₂.same hsame
    exact ⟨hrev, hsame'.trans hhist⟩

/-- A stored deployment. -/
def storedWeb : World where
  store := Store.empty.put .deployment (newDeployment "dep-0" webSpec 0)
  tick := 0

theorem update_twice_iff_web : ∃ d₁ d₂,
    ((updateDeployment "dep-0" { webSpec with image := "img2" }).final (exec tickingEnv)
      storedWeb).deps.get "dep-0" = some d₁ ∧
    ((updateDeployment "dep-0" { webSpec with image := "img2" }).final (exec tickingEnv)
      ((updateDeployment "dep-0" { webSpec with image := "img2" }).final (exec tickingEnv)
        storedWeb)).deps.get "dep-0" = some d₂ ∧
    d₂.currentRevision = d₁.currentRevision ∧ d₂.revisionHistory = d₁.revisionHistory := by
  obtain ⟨d₁, d₂, h₁, h₂, hiff⟩ := update_twice_iff tickingEnv storedWeb "dep-0"
    (newDeployment "dep-0" webSpec 0) (by decide +kernel) { webSpec with image := "img2" }
  exact ⟨d₁, d₂, h₁, h₂, hiff.mpr ⟨nofun, nofun, nofun⟩⟩

/-- An update with an empty list of tolerations starts a new revision each time. -/
theorem update_twice_starts_revision :
    let update := (updateDeployment "dep-0" { webSpec with tolerations := some [] }).final
      (exec tickingEnv)
    [storedWeb, update storedWeb, update (update storedWeb)].map
      (fun w => (w.deps.get "dep-0").map fun d => (d.currentRevision, d.revisionHistory.length)) =
      [some (1, 1), some (2, 2), some (3, 3)] := by
  decide +kernel

end Orchestrator
