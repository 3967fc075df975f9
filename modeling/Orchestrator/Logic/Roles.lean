/-
# Roles that bindings give

`EffectiveRolesForSubject` visits the bindings of a subject and, by name, those they inherit from.
`LeadsTo` is the relation behind the visit: following the parents from a name leads to a binding.
The roles of a subject are those of the bindings that its own bindings lead to (`mem_rolesFor`).

The visit of the source has no bound.  It ends if and only if it passes no binding that leads back
to itself (`visitRoles_ends_iff`), and then it is no deeper than the number of bindings
(`visitRoles_of_ends`), so the bound that `rolesFor` sets changes nothing.
-/
import Mathlib.Data.Finset.Card
import Orchestrator.Lib.Pointwise
import Orchestrator.Logic.Texts
import Orchestrator.Service.Tenancy

namespace Orchestrator

open Lib

variable {all : List RoleBinding} {name role : String} {rb : RoleBinding} {fuel : ℕ}
  {l : List String} {subject : String}

/-! ### Normalized roles -/

lemma normalizeRole_normalizeRole (q : String) :
    normalizeRole (normalizeRole q) = normalizeRole q := by
  have hcomp : isSpace ∘ lowerChar = isSpace := funext isSpace_lowerChar
  have htrim : trimSpace (toLower (trimSpace q)) = toLower (trimSpace q) := by
    apply String.toList_inj.mp
    rw [toList_trimSpace, toLower, String.toList_ofList, toList_trimSpace, List.dropWhile_map,
      hcomp, dropWhile_trimmed, List.rdropWhile, ← List.map_reverse, List.dropWhile_map, hcomp,
      ← List.map_reverse]
    exact congrArg _ (List.rdropWhile_idempotent _ _)
  unfold normalizeRole
  rw [htrim]
  apply String.toList_inj.mp
  simp only [toLower, String.toList_ofList, List.map_map]
  exact List.map_congr_left fun c _ => lowerChar_lowerChar c

/-! ### Following the parents -/

/-- Following the parents from a name leads to a binding. -/
inductive LeadsTo (all : List RoleBinding) : String → RoleBinding → Prop
  | here {name : String} {rb : RoleBinding} (h : bindingNamed all name = some rb) :
      LeadsTo all name rb
  | parent {name parent : String} {rb rb' : RoleBinding} (h : bindingNamed all name = some rb)
      (hparent : parent ∈ rb.inherits) (hrest : LeadsTo all parent rb') : LeadsTo all name rb'

/-- The bindings give a role to a subject. -/
def Grants (all : List RoleBinding) (subject role : String) : Prop :=
  ∃ b ∈ all, b.bindsTo subject = true ∧
    ∃ rb, LeadsTo all b.name rb ∧ ∃ q ∈ rb.roles, blank q = false ∧ normalizeRole q = role

lemma name_of_bindingNamed (h : bindingNamed all name = some rb) : rb.name = name := by
  simpa using List.find?_some h

lemma bindingNamed_eq_none :
    bindingNamed all name = none ↔ ∀ rb ∈ all, rb.name ≠ name := by
  simp [bindingNamed, List.find?_eq_none]

lemma mem_of_bindingNamed (h : bindingNamed all name = some rb) : rb ∈ all :=
  List.mem_reverse.mp (List.mem_of_find?_eq_some h)

lemma LeadsTo.bound (h : LeadsTo all name rb) : ∃ b, bindingNamed all name = some b := by
  cases h with
  | here h => exact ⟨_, h⟩
  | parent h => exact ⟨_, h⟩

lemma LeadsTo.trans {parent : String} {rb' : RoleBinding} (h : LeadsTo all name rb)
    (hparent : parent ∈ rb.inherits) (hrest : LeadsTo all parent rb') : LeadsTo all name rb' := by
  induction h with
  | here h => exact .parent h hparent hrest
  | parent h hp _ ih => exact .parent h hp (ih hparent)

/-- A binding that a name leads to is the one of its own name. -/
lemma LeadsTo.named (h : LeadsTo all name rb) : bindingNamed all rb.name = some rb := by
  induction h with
  | here h => rwa [name_of_bindingNamed h]
  | parent _ _ _ ih => exact ih

lemma LeadsTo.mem (h : LeadsTo all name rb) : rb ∈ all :=
  mem_of_bindingNamed h.named

/-- What a visit of a name that is bound consists of. -/
lemma visitRoles_succ (h : bindingNamed all name = some rb) :
    visitRoles all (fuel + 1) name = some l ↔
      ∃ parents, List.Forall₂ (fun parent x => visitRoles all fuel parent = some x) rb.inherits
        parents ∧ l = (rb.roles.filter fun r => !blank r).map normalizeRole ++ parents.flatten := by
  rw [visitRoles, h]
  simp only [Option.bind_eq_bind, Option.bind_eq_some_iff, Option.pure_def, Option.some.injEq,
    mapM_eq_some_iff]
  exact ⟨fun ⟨x, hx, he⟩ => ⟨x, hx, he.symm⟩, fun ⟨x, hx, he⟩ => ⟨x, hx, he.symm⟩⟩

lemma visitRoles_unbound (h : bindingNamed all name = none) (fuel : ℕ) :
    visitRoles all (fuel + 1) name = some [] := by
  rw [visitRoles, h]

/-- The roles that a visit finds are those of the bindings that the name leads to. -/
lemma mem_visitRoles (h : visitRoles all fuel name = some l) :
    role ∈ l ↔
      ∃ rb, LeadsTo all name rb ∧ ∃ q ∈ rb.roles, blank q = false ∧ normalizeRole q = role := by
  induction fuel generalizing name l with
  | zero => cases h
  | succ fuel ih =>
    cases hname : bindingNamed all name with
    | none =>
      cases (visitRoles_unbound hname fuel).symm.trans h
      refine iff_of_false List.not_mem_nil ?_
      rintro ⟨rb, hlead, -⟩
      obtain ⟨b, hb⟩ := hlead.bound
      cases hname.symm.trans hb
    | some rb =>
      obtain ⟨parents, hparents, rfl⟩ := (visitRoles_succ hname).mp h
      rw [List.mem_append, List.mem_map, List.mem_flatten]
      constructor
      · rintro (⟨q, hq, rfl⟩ | ⟨x, hx, hrole⟩)
        · rw [List.mem_filter] at hq
          exact ⟨rb, .here hname, q, hq.1, by simpa using hq.2, rfl⟩
        · obtain ⟨parent, hparent, hvisit⟩ := exists_of_mem_right hparents hx
          obtain ⟨rb', hlead, hq⟩ := (ih hvisit).mp hrole
          exact ⟨rb', .parent hname hparent hlead, hq⟩
      · rintro ⟨rb', hlead, q, hq, hblank, rfl⟩
        cases hlead with
        | here h' =>
          cases hname.symm.trans h'
          exact .inl ⟨q, List.mem_filter.mpr ⟨hq, by simp [hblank]⟩, rfl⟩
        | parent h' hparent hrest =>
          cases hname.symm.trans h'
          obtain ⟨x, hx, hvisit⟩ := exists_of_mem_left hparents hparent
          exact .inr ⟨x, hx, (ih hvisit).mpr ⟨rb', hrest, q, hq, hblank, rfl⟩⟩

/-- **The effective roles are those that the bindings give.** -/
theorem mem_rolesFor {roles : List String}
    (h : rolesFor all subject = some roles) : role ∈ roles ↔ Grants all subject role := by
  unfold rolesFor at h
  simp only [Option.bind_eq_bind, Option.bind_eq_some_iff, Option.pure_def, Option.some.injEq,
    mapM_eq_some_iff] at h
  obtain ⟨visited, hvisited, rfl⟩ := h
  rw [mem_sortStable, List.mem_dedup, List.mem_flatten]
  constructor
  · rintro ⟨x, hx, hrole⟩
    obtain ⟨b, hb, hvisit⟩ := exists_of_mem_right hvisited hx
    rw [List.mem_filter] at hb
    exact ⟨b, hb.1, hb.2, (mem_visitRoles hvisit).mp hrole⟩
  · rintro ⟨b, hb, hbinds, hlead⟩
    obtain ⟨x, hx, hvisit⟩ := exists_of_mem_left hvisited (List.mem_filter.mpr ⟨hb, hbinds⟩)
    exact ⟨x, hx, (mem_visitRoles hvisit).mpr hlead⟩

/-- The roles are in order and without repetition. -/
lemma rolesFor_sorted {roles : List String}
    (h : rolesFor all subject = some roles) : roles.Pairwise (· < ·) := by
  unfold rolesFor at h
  simp only [Option.bind_eq_bind, Option.bind_eq_some_iff, Option.pure_def,
    Option.some.injEq] at h
  obtain ⟨visited, -, rfl⟩ := h
  refine pairwise_sortStable_key id ?_
  rw [List.map_id]
  exact List.nodup_dedup _

/-- The first binding inherits from the second, which is one of `V`. -/
def InheritsFrom (V : RoleBinding → Prop) (b b' : RoleBinding) : Prop :=
  V b' ∧ b'.name ∈ b.inherits

/-! ### Other roles for the same bindings -/

section Assigned

variable {f : RoleBinding → List String}

/-- The binding with other roles. -/
def RoleBinding.withRoles (f : RoleBinding → List String) (b : RoleBinding) : RoleBinding :=
  { b with roles := f b }

lemma bindingNamed_withRoles : bindingNamed (all.map (RoleBinding.withRoles f)) name =
    (bindingNamed all name).map (RoleBinding.withRoles f) := by
  rw [bindingNamed, ← List.map_reverse, List.find?_map]
  rfl

/-- Where a name leads does not depend on the roles. -/
lemma leadsTo_withRoles : LeadsTo (all.map (RoleBinding.withRoles f)) name rb ↔
    ∃ b, LeadsTo all name b ∧ b.withRoles f = rb := by
  constructor
  · intro h
    induction h with
    | here h =>
      rw [bindingNamed_withRoles, Option.map_eq_some_iff] at h
      exact h.imp fun b hb => ⟨.here hb.1, hb.2⟩
    | parent h hparent _ ih =>
      rw [bindingNamed_withRoles, Option.map_eq_some_iff] at h
      obtain ⟨b, hb, rfl⟩ := h
      exact ih.imp fun b' hb' => ⟨.parent hb hparent hb'.1, hb'.2⟩
  · rintro ⟨b, h, rfl⟩
    induction h with
    | here h => exact .here (bindingNamed_withRoles.trans (congrArg _ h))
    | parent h hparent _ ih =>
      exact .parent (bindingNamed_withRoles.trans (congrArg _ h)) hparent ih

end Assigned

/-! ### Visits that end -/

/-- More fuel changes nothing. -/
lemma visitRoles_mono {fuel' : ℕ} (hle : fuel ≤ fuel')
    (h : visitRoles all fuel name = some l) : visitRoles all fuel' name = some l := by
  induction fuel generalizing fuel' name l with
  | zero => cases h
  | succ fuel ih =>
    obtain ⟨fuel', rfl⟩ : ∃ k, fuel' = k + 1 := Nat.exists_eq_succ_of_ne_zero (by omega)
    cases hname : bindingNamed all name with
    | none => rwa [visitRoles_unbound hname] at h ⊢
    | some rb =>
      obtain ⟨parents, hparents, rfl⟩ := (visitRoles_succ hname).mp h
      refine (visitRoles_succ hname).mpr ⟨parents, hparents.imp ?_, rfl⟩
      exact fun parent x hx => ih (by omega) hx

/-- A visit passes every binding that the name leads to, with less fuel. -/
lemma LeadsTo.visited (h : LeadsTo all name rb)
    (hl : visitRoles all fuel name = some l) :
    ∃ k ≤ fuel, ∃ l', visitRoles all k rb.name = some l' := by
  induction h generalizing fuel l with
  | here h => exact ⟨fuel, le_rfl, l, by rwa [name_of_bindingNamed h]⟩
  | parent h hparent _ ih =>
    obtain ⟨fuel, rfl⟩ : ∃ k, fuel = k + 1 :=
      Nat.exists_eq_succ_of_ne_zero (by rintro rfl; cases hl)
    obtain ⟨parents, hparents, rfl⟩ := (visitRoles_succ h).mp hl
    obtain ⟨x, -, hx⟩ := exists_of_mem_left hparents hparent
    obtain ⟨k, hk, l', hl'⟩ := ih hx
    exact ⟨k, by omega, l', hl'⟩

/-- If the visit of a name ends, its parents do not lead back to it. -/
lemma not_leadsTo_back (h : bindingNamed all name = some rb)
    (hl : visitRoles all fuel name = some l) {parent : String} (hparent : parent ∈ rb.inherits)
    {rb' : RoleBinding} (hback : LeadsTo all parent rb') : rb'.name ≠ name := by
  rintro rfl
  -- the least fuel with which the visit ends would not be the least
  have hex : ∃ k, ∃ l, visitRoles all k rb'.name = some l := ⟨fuel, l, hl⟩
  classical
  obtain ⟨l₀, hl₀⟩ := Nat.find_spec hex
  obtain ⟨k, hk⟩ : ∃ k, Nat.find hex = k + 1 :=
    Nat.exists_eq_succ_of_ne_zero (by intro h0; rw [h0] at hl₀; cases hl₀)
  rw [hk] at hl₀
  obtain ⟨parents, hparents, -⟩ := (visitRoles_succ h).mp hl₀
  obtain ⟨x, -, hx⟩ := exists_of_mem_left hparents hparent
  obtain ⟨j, hj, hvisit⟩ := hback.visited hx
  exact Nat.find_min hex (by omega : j < Nat.find hex) hvisit

/-- No binding that the name leads to has a parent that leads back to it. -/
def NoWayBack (all : List RoleBinding) (name : String) : Prop :=
  ∀ rb, LeadsTo all name rb → ∀ parent ∈ rb.inherits, ∀ rb', LeadsTo all parent rb' →
    rb'.name ≠ rb.name

lemma NoWayBack.parent (h : NoWayBack all name) (hname : bindingNamed all name = some rb)
    {parent : String} (hparent : parent ∈ rb.inherits) : NoWayBack all parent :=
  fun rb' hlead => h rb' (.parent hname hparent hlead)

lemma noWayBack_of_ends (h : visitRoles all fuel name = some l) :
    NoWayBack all name := by
  intro rb hlead parent hparent rb' hback
  obtain ⟨k, -, l', hl'⟩ := hlead.visited h
  exact not_leadsTo_back hlead.named hl' hparent hback

lemma visitRoles_ends {A : Finset String} (hno : NoWayBack all name)
    (hA : ∀ rb, LeadsTo all name rb → rb.name ∈ A) :
    ∃ l, visitRoles all (A.card + 1) name = some l := by
  induction hn : A.card generalizing A name with
  | zero =>
    cases hname : bindingNamed all name with
    | none => exact ⟨[], visitRoles_unbound hname 0⟩
    | some rb =>
      have := hA rb (.here hname)
      rw [Finset.card_eq_zero.mp hn] at this
      exact absurd this (Finset.notMem_empty _)
  | succ n ih =>
    cases hname : bindingNamed all name with
    | none => exact ⟨[], visitRoles_unbound hname _⟩
    | some rb =>
      have hrb : rb.name = name := name_of_bindingNamed hname
      have hmem : name ∈ A := hrb ▸ hA rb (.here hname)
      -- the parents lead to other names only, so that the names left are fewer
      have hends : ∀ parent ∈ rb.inherits, ∃ l, visitRoles all (n + 1) parent = some l := by
        intro parent hparent
        refine ih (hno.parent hname hparent) (A := A.erase name)
          (fun rb' hlead => Finset.mem_erase.mpr ⟨?_, ?_⟩) ?_
        · exact hrb ▸ hno rb (.here hname) parent hparent rb' hlead
        · exact hA rb' (.parent hname hparent hlead)
        · rw [Finset.card_erase_of_mem hmem, hn]
          rfl
      choose! f hf using hends
      refine ⟨_, (visitRoles_succ hname).mpr ⟨rb.inherits.map f, ?_, rfl⟩⟩
      rw [List.forall₂_map_right_iff, List.forall₂_same]
      exact hf

lemma visitRoles_of_noWayBack (h : NoWayBack all name) :
    ∃ l, visitRoles all (all.length + 1) name = some l := by
  classical
  have hcard : (all.map RoleBinding.name).toFinset.card ≤ all.length := by
    simpa using List.toFinset_card_le (all.map RoleBinding.name)
  obtain ⟨l, hl⟩ := visitRoles_ends (A := (all.map RoleBinding.name).toFinset) h
    fun rb hlead => by simpa using ⟨rb, hlead.mem, rfl⟩
  exact ⟨l, visitRoles_mono (by omega : _ ≤ all.length + 1) hl⟩

/-- **A visit ends if and only if it passes no binding that leads back to itself.** -/
theorem visitRoles_ends_iff :
    (∃ fuel l, visitRoles all fuel name = some l) ↔ NoWayBack all name :=
  ⟨fun ⟨_, _, h⟩ => noWayBack_of_ends h,
    fun h => ⟨all.length + 1, visitRoles_of_noWayBack h⟩⟩

/-- **A visit that ends is no deeper than the number of bindings.** -/
theorem visitRoles_of_ends (h : visitRoles all fuel name = some l) :
    visitRoles all (all.length + 1) name = some l := by
  obtain ⟨l', hl'⟩ := visitRoles_of_noWayBack (noWayBack_of_ends h)
  have hmax := visitRoles_mono (le_max_left (all.length + 1) fuel) hl'
  rw [visitRoles_mono (le_max_right (all.length + 1) fuel) h] at hmax
  rw [hl', hmax]

/-- The roles of a subject are found if and only if the visits of its bindings end. -/
lemma exists_rolesFor_iff : (∃ roles, rolesFor all subject = some roles) ↔
    ∀ b ∈ all, b.bindsTo subject = true → NoWayBack all b.name := by
  unfold rolesFor
  simp only [Option.bind_eq_bind, Option.bind_eq_some_iff, Option.pure_def, Option.some.injEq,
    mapM_eq_some_iff]
  constructor
  · rintro ⟨-, visited, hvisited, -⟩ b hb hbinds
    obtain ⟨l, -, hl⟩ := exists_of_mem_left hvisited (List.mem_filter.mpr ⟨hb, hbinds⟩)
    exact noWayBack_of_ends hl
  · intro h
    have hends : ∀ b ∈ all.filter (RoleBinding.bindsTo subject),
        ∃ l, visitRoles all (all.length + 1) b.name = some l := by
      intro b hb
      obtain ⟨hmem, hbinds⟩ := List.mem_filter.mp hb
      exact visitRoles_of_noWayBack (h b hmem hbinds)
    choose! f hf using hends
    refine ⟨_, (all.filter (RoleBinding.bindsTo subject)).map f, ?_, rfl⟩
    rw [List.forall₂_map_right_iff, List.forall₂_same]
    exact hf

end Orchestrator
