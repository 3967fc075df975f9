/-
# Counters of holders

Each of a family of processes holds at most one thing at a time, as its view tells.  A counter for
each thing is exact if it is the number of the processes that hold it (`Counted`).  This is kept when
a process that holds nothing takes a thing and its counter is increased, and when a process gives a
thing back and its counter is decreased.
-/
import Mathlib.Data.Set.Card
import Mathlib.Logic.Function.Basic

namespace Orchestrator.Lib

variable {ι κ L : Type} {hold : L → Option κ} {v : ι → L} {count : κ → ℤ} {i : ι} {l : L} {e : κ}

/-- The processes that hold a thing. -/
def holders (hold : L → Option κ) (v : ι → L) (e : κ) : Set ι := {i | hold (v i) = some e}

/-- Finitely many processes hold something, and the counters are the numbers of the holders. -/
structure Counted (hold : L → Option κ) (v : ι → L) (count : κ → ℤ) : Prop where
  finite : {i | hold (v i) ≠ none}.Finite
  count_eq : ∀ e, count e = (holders hold v e).ncard

namespace Counted

lemma finite_holders (h : Counted hold v count) (e : κ) : (holders hold v e).Finite := by
  refine h.finite.subset fun i hi => ?_
  rw [Set.mem_ofPred_eq, show hold (v i) = some e from hi]
  simp

lemma nonneg (h : Counted hold v count) (e : κ) : 0 ≤ count e := by
  rw [h.count_eq]
  exact Int.natCast_nonneg _

/-- What is held is counted. -/
lemma pos (h : Counted hold v count) (hi : hold (v i) = some e) : 0 < count e := by
  rw [h.count_eq, Int.natCast_pos, Set.ncard_pos (h.finite_holders e)]
  exact ⟨i, hi⟩

/-- Nothing is held. -/
lemma start (h : ∀ i, hold (v i) = none) : Counted hold v fun _ => 0 := by
  refine ⟨?_, fun e => ?_⟩
  · simp [h]
  · have hempty : holders hold v e = ∅ := by
      ext i
      simp [holders, h]
    rw [hempty, Set.ncard_empty, Nat.cast_zero]

/-- Where nothing is held, all counters are zero. -/
lemma eq_zero (h : Counted hold v count) (hnone : ∀ i, hold (v i) = none) (e : κ) :
    count e = 0 := by
  rw [h.count_eq, (start hnone).count_eq e |>.symm]

variable [DecidableEq ι]

lemma finite_update (h : Counted hold v count) :
    {j | hold (Function.update v i l j) ≠ none}.Finite := by
  refine (h.finite.insert i).subset fun j hj => ?_
  by_cases hji : j = i
  · exact Or.inl hji
  · rw [Set.mem_ofPred_eq, Function.update_of_ne hji] at hj
    exact Or.inr hj

lemma mem_holders_update {j : ι} (hji : j ≠ i) :
    j ∈ holders hold (Function.update v i l) e ↔ j ∈ holders hold v e := by
  rw [holders, Set.mem_ofPred_eq, Function.update_of_ne hji]
  exact Iff.rfl

lemma mem_holders_update_self :
    i ∈ holders hold (Function.update v i l) e ↔ hold l = some e := by
  rw [holders, Set.mem_ofPred_eq, Function.update_self]

/-- A process changes its view, but not what it holds. -/
lemma keep (h : Counted hold v count) (hl : hold l = hold (v i)) :
    Counted hold (Function.update v i l) count := by
  refine ⟨h.finite_update, fun e => ?_⟩
  have hsame : holders hold (Function.update v i l) e = holders hold v e := by
    ext j
    by_cases hji : j = i
    · subst hji
      rw [mem_holders_update_self, hl]
      exact Iff.rfl
    · exact mem_holders_update hji
  rw [hsame, h.count_eq]

variable [DecidableEq κ]

/-- A process takes a thing. -/
lemma take (h : Counted hold v count) (hi : hold (v i) = none) (hl : hold l = some e) :
    Counted hold (Function.update v i l) (Function.update count e (count e + 1)) := by
  refine ⟨h.finite_update, fun e' => ?_⟩
  have hnot : ∀ e', i ∉ holders hold v e' := by
    intro e' hmem
    rw [holders, Set.mem_ofPred_eq, hi] at hmem
    cases hmem
  by_cases he : e' = e
  · subst he
    have hinsert : holders hold (Function.update v i l) e' = insert i (holders hold v e') := by
      ext j
      by_cases hji : j = i
      · subst hji
        rw [mem_holders_update_self]
        exact iff_of_true hl (Or.inl rfl)
      · rw [mem_holders_update hji, Set.mem_insert_iff, or_iff_right hji]
    rw [Function.update_self, hinsert, Set.ncard_insert_of_notMem (hnot e') (h.finite_holders e'),
      h.count_eq]
    push_cast
    rfl
  · have hsame : holders hold (Function.update v i l) e' = holders hold v e' := by
      ext j
      by_cases hji : j = i
      · subst hji
        rw [mem_holders_update_self, hl]
        exact iff_of_false (fun heq => he (Option.some.inj heq).symm) (hnot e')
      · exact mem_holders_update hji
    rw [Function.update_of_ne he, hsame, h.count_eq]

/-- A process gives a thing back. -/
lemma give (h : Counted hold v count) (hi : hold (v i) = some e) (hl : hold l = none) :
    Counted hold (Function.update v i l) (Function.update count e (count e - 1)) := by
  refine ⟨h.finite_update, fun e' => ?_⟩
  have hmem : ∀ j, j ∈ holders hold (Function.update v i l) e' ↔
      j ∈ holders hold v e' ∧ j ≠ i := by
    intro j
    by_cases hji : j = i
    · subst hji
      rw [mem_holders_update_self, hl]
      exact iff_of_false nofun fun hj => hj.2 rfl
    · rw [mem_holders_update hji]
      exact ⟨fun hj => ⟨hj, hji⟩, And.left⟩
  by_cases he : e' = e
  · subst he
    have hdiff : holders hold (Function.update v i l) e' = holders hold v e' \ {i} := by
      ext j
      exact hmem j
    have hpos := h.pos hi
    rw [h.count_eq] at hpos
    have hin : i ∈ holders hold v e' := hi
    rw [Function.update_self, hdiff, Set.ncard_sdiff_singleton_of_mem hin, h.count_eq]
    omega
  · have hsame : holders hold (Function.update v i l) e' = holders hold v e' := by
      ext j
      rw [hmem]
      refine and_iff_left_of_imp fun hj => ?_
      rintro rfl
      exact he (Option.some.inj (hj.symm.trans hi))
    rw [Function.update_of_ne he, hsame, h.count_eq]

end Counted

end Orchestrator.Lib
