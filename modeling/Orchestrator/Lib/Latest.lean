/-
# The latest records

The last records of a list are the latest ones, whatever their number, exactly if the list is in the
order of the times (`latest_drop`, `pairwise_of_latest`).
-/
import Mathlib

namespace Orchestrator.Lib

variable {α T : Type} [LinearOrder T] {time : α → T} {all items l : List α} {n : ℕ}

/-- `l` consists of the `n` latest of the records, the earliest first. -/
structure Latest (time : α → T) (n : ℕ) (all l : List α) : Prop where
  mem_all : ∀ a ∈ l, a ∈ all
  nodup : l.Nodup
  length_eq : l.length = min n all.length
  ordered : l.Pairwise fun a b => time a ≤ time b
  latest : ∀ a ∈ all, a ∉ l → ∀ b ∈ l, time a ≤ time b

/-- The last ones of a list in the order of the times. -/
lemma latest_drop (hnodup : all.Nodup) (h : all.Pairwise fun a b => time a ≤ time b) (n : ℕ) :
    Latest time n all (all.drop (all.length - n)) where
  mem_all _ ha := List.mem_of_mem_drop ha
  nodup := hnodup.sublist (List.drop_sublist _ _)
  length_eq := by
    rw [List.length_drop]
    omega
  ordered := h.sublist (List.drop_sublist _ _)
  latest a ha hnot b hb := by
    rw [← List.take_append_drop (all.length - n) all, List.pairwise_append] at h
    rw [← List.take_append_drop (all.length - n) all, List.mem_append] at ha
    exact h.2.2 a (ha.resolve_right hnot) b hb

/-- All of them are in order as well. -/
lemma pairwise_of_latest (h : ∀ n, 0 < n → Latest time n all (items.drop (items.length - n))) :
    (∀ a ∈ items, a ∈ all) ∧ items.Pairwise fun a b => time a ≤ time b := by
  have hlast := h (items.length + 1) (Nat.succ_pos _)
  rw [Nat.sub_eq_zero_of_le (Nat.le_succ _), List.drop_zero] at hlast
  exact ⟨hlast.mem_all, hlast.ordered⟩

/-- In a list that is sorted by a key, the order of the times is that of the keys. -/
lemma pairwise_time_iff {K : Type} [LinearOrder K] {key : α → K}
    (hsorted : l.Pairwise fun a b => key a < key b) :
    (l.Pairwise fun a b => time a ≤ time b) ↔
      ∀ a ∈ l, ∀ b ∈ l, time a < time b → key a < key b := by
  induction l with
  | nil => simp
  | cons x l ih =>
    rw [List.pairwise_cons] at hsorted ⊢
    rw [ih hsorted.2]
    constructor
    · rintro ⟨hx, hl⟩ a ha b hb hlt
      rcases List.mem_cons.mp ha with rfl | ha'
      · rcases List.mem_cons.mp hb with rfl | hb'
        · exact absurd hlt (lt_irrefl _)
        · exact hsorted.1 b hb'
      · rcases List.mem_cons.mp hb with rfl | hb'
        · exact absurd hlt (not_lt.mpr (hx a ha'))
        · exact hl a ha' b hb' hlt
    · intro h
      refine ⟨fun b hb => not_lt.mp fun hlt => ?_, fun a ha b hb => ?_⟩
      · have hkey := h b (List.mem_cons_of_mem _ hb) x List.mem_cons_self hlt
        exact absurd (hkey.trans (hsorted.1 b hb)) (lt_irrefl _)
      · exact h a (List.mem_cons_of_mem _ ha) b (List.mem_cons_of_mem _ hb)

end Orchestrator.Lib
