/-
# Lists that correspond element by element

`List.Forall₂ R` relates two lists position by position.  What is shown here is how to get from an
element of one list to its partner, when a traversal with `Option` gives such a list, and that a
list can in addition be put in another order without changing what some element satisfies.
-/
import Mathlib.Data.List.Forall2

namespace Orchestrator.Lib

variable {α β : Type} {R : α → β → Prop} {l : List α} {l' : List β}

lemma exists_of_mem_right (h : List.Forall₂ R l l') {y : β} (hy : y ∈ l') : ∃ x ∈ l, R x y := by
  induction h with
  | nil => cases hy
  | cons hxy _ ih =>
    rcases List.mem_cons.mp hy with rfl | hy
    · exact ⟨_, List.mem_cons_self, hxy⟩
    · obtain ⟨x, hx, hR⟩ := ih hy
      exact ⟨x, List.mem_cons_of_mem _ hx, hR⟩

lemma exists_of_mem_left (h : List.Forall₂ R l l') {x : α} (hx : x ∈ l) : ∃ y ∈ l', R x y :=
  exists_of_mem_right (R := fun y x => R x y) h.flip hx

lemma mapM_eq_some_iff {f : α → Option β} :
    l.mapM f = some l' ↔ List.Forall₂ (fun x y => f x = some y) l l' := by
  induction l generalizing l' with
  | nil => simp [eq_comm]
  | cons x xs ih =>
    rw [List.mapM_cons, List.forall₂_cons_left_iff]
    simp only [Option.bind_eq_bind, Option.bind_eq_some_iff, Option.pure_def, Option.some.injEq,
      ih]
    constructor
    · rintro ⟨y, hy, ys, hys, rfl⟩
      exact ⟨y, ys, hy, hys, rfl⟩
    · rintro ⟨y, ys, hy, hys, rfl⟩
      exact ⟨y, hy, ys, hys, rfl⟩

/-- The elements of the two lists are related one to one, in some order. -/
def Shuffled (R : α → β → Prop) (l : List α) (l' : List β) : Prop :=
  ∃ mid, l.Perm mid ∧ List.Forall₂ R mid l'

lemma Shuffled.exists_iff (h : Shuffled R l l') {P : α → Prop} {Q : β → Prop}
    (hiff : ∀ x y, R x y → (P x ↔ Q y)) : (∃ x ∈ l, P x) ↔ ∃ y ∈ l', Q y := by
  obtain ⟨mid, hperm, hmid⟩ := h
  constructor
  · rintro ⟨x, hx, hP⟩
    obtain ⟨y, hy, hR⟩ := exists_of_mem_left hmid (hperm.mem_iff.mp hx)
    exact ⟨y, hy, (hiff x y hR).mp hP⟩
  · rintro ⟨y, hy, hQ⟩
    obtain ⟨x, hx, hR⟩ := exists_of_mem_right hmid hy
    exact ⟨x, hperm.mem_iff.mpr hx, (hiff x y hR).mpr hQ⟩

lemma Shuffled.eq_nil_iff (h : Shuffled R l l') : l = [] ↔ l' = [] := by
  obtain ⟨mid, hperm, hmid⟩ := h
  rw [← List.length_eq_zero_iff, ← List.length_eq_zero_iff, hperm.length_eq, hmid.length_eq]

lemma Shuffled.filter (h : Shuffled R l l') {p : α → Bool} {q : β → Bool}
    (hpq : ∀ x y, R x y → p x = q y) : Shuffled R (l.filter p) (l'.filter q) := by
  obtain ⟨mid, hperm, hmid⟩ := h
  refine ⟨mid.filter p, hperm.filter p, ?_⟩
  clear hperm
  induction hmid with
  | nil => exact .nil
  | cons hxy _ ih =>
    rw [List.filter_cons, List.filter_cons, hpq _ _ hxy]
    split
    · exact .cons hxy ih
    · exact ih

end Orchestrator.Lib
