/-
# Raising the lowest load

Every member of a finite set carries a load, and a step raises a lowest one by one.  Whatever
member among the lowest is taken, no load gets more than one above another unless it was there
before, so the spread of the loads does not grow beyond one or what it was.  The sum of the loads
grows with every step, and therefore the lowest ones catch up.
-/
import Mathlib.Algebra.BigOperators.Group.Finset.Piecewise
import Mathlib.Algebra.Order.BigOperators.Group.Finset
import Mathlib.Algebra.Order.Ring.Int
import Mathlib.Data.Finset.Lattice.Fold

namespace Orchestrator.Lib

variable {ι : Type} [DecidableEq ι] {S : Finset ι} {M : ℤ} {n : ℕ} {f g : ι → ℤ}

/-- The difference between the highest and the lowest load. -/
def spread (S : Finset ι) (hS : S.Nonempty) (f : ι → ℤ) : ℤ := S.sup' hS f - S.inf' hS f

/-- A lowest load is raised by one. -/
def Raises (S : Finset ι) (f g : ι → ℤ) : Prop :=
  ∃ i ∈ S, (∀ j ∈ S, f i ≤ f j) ∧ g = Function.update f i (f i + 1)

/-- So many steps, each of which raises a lowest load. -/
inductive RaisesMany (S : Finset ι) : ℕ → (ι → ℤ) → (ι → ℤ) → Prop
  | zero (f : ι → ℤ) : RaisesMany S 0 f f
  | succ {n : ℕ} {f g h : ι → ℤ} (hstep : Raises S f g) (hrest : RaisesMany S n g h) :
      RaisesMany S (n + 1) f h

/-- No load is above both `M` and the successor of another load. -/
def Level (S : Finset ι) (M : ℤ) (f : ι → ℤ) : Prop :=
  ∀ i ∈ S, ∀ j ∈ S, f i ≤ max M (f j + 1)

/-! ### One step -/

lemma Raises.le (hstep : Raises S f g) (j : ι) : f j ≤ g j := by
  obtain ⟨i, -, -, rfl⟩ := hstep
  by_cases hj : j = i
  · subst hj
    rw [Function.update_self]
    omega
  · rw [Function.update_of_ne hj]

lemma Raises.level (hstep : Raises S f g) (hf : Level S M f) : Level S M g := by
  intro i hi j hj
  have hle : f j ≤ g j := hstep.le j
  obtain ⟨k, -, hlow, rfl⟩ := hstep
  by_cases hik : i = k
  · subst hik
    rw [Function.update_self]
    have := hlow j hj
    exact le_max_of_le_right (by omega)
  · rw [Function.update_of_ne hik]
    exact (hf i hi j hj).trans (max_le_max_left M (by omega))

lemma Raises.sum (hstep : Raises S f g) : ∑ i ∈ S, g i = ∑ i ∈ S, f i + 1 := by
  obtain ⟨i, hi, -, rfl⟩ := hstep
  rw [Finset.sum_update_of_mem hi, ← Finset.add_sum_erase S f hi, Finset.sdiff_singleton_eq_erase]
  omega

/-! ### Many steps -/

lemma RaisesMany.le (hrun : RaisesMany S n f g) (j : ι) : f j ≤ g j := by
  induction hrun with
  | zero => exact le_rfl
  | succ hstep _ ih => exact (hstep.le j).trans ih

lemma RaisesMany.level (hrun : RaisesMany S n f g) (hf : Level S M f) : Level S M g := by
  induction hrun with
  | zero => exact hf
  | succ hstep _ ih => exact ih (hstep.level hf)

lemma RaisesMany.sum (hrun : RaisesMany S n f g) : ∑ i ∈ S, g i = ∑ i ∈ S, f i + n := by
  induction hrun with
  | zero => simp
  | succ hstep _ ih =>
    rw [ih, hstep.sum]
    omega

/-! ### The spread -/

variable (hS : S.Nonempty)

omit [DecidableEq ι] in
lemma level_sup' : Level S (S.sup' hS f) f :=
  fun _ hi _ _ => le_max_of_le_left (Finset.le_sup' f hi)

omit [DecidableEq ι] in
/-- Two members whose loads are the whole spread apart. -/
lemma exists_spread (f : ι → ℤ) : ∃ i ∈ S, ∃ j ∈ S, spread S hS f = f i - f j := by
  obtain ⟨i, hi, hsup⟩ := Finset.exists_mem_eq_sup' hS f
  obtain ⟨j, hj, hinf⟩ := Finset.exists_mem_eq_inf' hS f
  exact ⟨i, hi, j, hj, by rw [spread, hsup, hinf]⟩

/-- **The spread does not grow** beyond one or what it was. -/
lemma RaisesMany.spread_le (hrun : RaisesMany S n f g) :
    spread S hS g ≤ max 1 (spread S hS f) := by
  obtain ⟨i, hi, j, hj, heq⟩ := exists_spread hS g
  have hlevel := hrun.level (level_sup' hS) i hi j hj
  have hlow : S.inf' hS f ≤ g j := (Finset.inf'_le f hj).trans (hrun.le j)
  rw [heq, spread]
  omega

/-- **The loads get level** after as many steps as they are below the highest one, all taken
together. -/
lemma RaisesMany.spread_le_one (hrun : RaisesMany S n f g)
    (hn : ∑ i ∈ S, (S.sup' hS f - f i) ≤ n) : spread S hS g ≤ 1 := by
  by_contra hwide
  obtain ⟨i, hi, j, hj, heq⟩ := exists_spread hS g
  have hlevel := hrun.level (level_sup' hS)
  have hij := hlevel i hi j hj
  have hjlow : g j < S.sup' hS f := by omega
  -- all loads are still within the old maximum, and one is below it
  have hall : ∀ k ∈ S, g k ≤ S.sup' hS f := by
    intro k hk
    have := hlevel k hk j hj
    omega
  have hlt : ∑ k ∈ S, g k < ∑ _k ∈ S, S.sup' hS f := Finset.sum_lt_sum hall ⟨j, hj, hjlow⟩
  rw [hrun.sum] at hlt
  rw [Finset.sum_sub_distrib] at hn
  omega

end Orchestrator.Lib
