/-
# Decimal numerals in strings

A number can be read back from its decimal numeral, also when something that does not
start with a digit follows.  Numerals of the same length are ordered as strings in the same
way as the numbers they stand for.
-/
import Mathlib.Data.List.TakeWhile
import Mathlib.Data.Nat.Notation
import Orchestrator.Lib.Delimited

namespace Orchestrator.Lib

lemma toString_nat_toList (n : ℕ) : (toString n).toList = Nat.toDigits 10 n := by
  rw [Nat.toString_eq_ofList_toDigits, String.toList_ofList]

lemma toDigits_isDigit (n : ℕ) : ∀ c ∈ Nat.toDigits 10 n, c.isDigit = true :=
  fun _ hc => Nat.isDigit_of_mem_toDigits (by decide) le_rfl hc

lemma toDigits_inj {m n : ℕ} (h : Nat.toDigits 10 m = Nat.toDigits 10 n) : m = n := by
  rw [← Nat.ofDigitChars_ten_toDigits (n := m), h, Nat.ofDigitChars_ten_toDigits]

/-- A numeral that is followed by something other than a digit can be read back. -/
lemma toDigits_append_inj {m n : ℕ} {c : Char} {s t : List Char} (hc : c.isDigit = false)
    (h : Nat.toDigits 10 m ++ c :: s = Nat.toDigits 10 n ++ c :: t) : m = n ∧ s = t := by
  have htake : ∀ (k : ℕ) (l : List Char),
      (Nat.toDigits 10 k ++ c :: l).takeWhile Char.isDigit = Nat.toDigits 10 k := by
    intro k l
    rw [List.takeWhile_append_of_pos (toDigits_isDigit k), List.takeWhile_cons, hc]
    simp
  have hdig : Nat.toDigits 10 m = Nat.toDigits 10 n := by
    rw [← htake m s, h, htake n t]
  refine ⟨toDigits_inj hdig, ?_⟩
  rw [hdig] at h
  exact (List.cons.inj (List.append_cancel_left h)).2

/-- A numeral that follows something other than a digit can be read back. -/
lemma append_toDigits_inj {m n : ℕ} {c : Char} {s t : List Char} (hc : c.isDigit = false)
    (h : s ++ c :: Nat.toDigits 10 m = t ++ c :: Nat.toDigits 10 n) : s = t ∧ m = n := by
  have hnot : ∀ k : ℕ, c ∉ (Nat.toDigits 10 k).reverse := by
    intro k hmem
    have := toDigits_isDigit k c (List.mem_reverse.mp hmem)
    rw [hc] at this
    cases this
  have hrev := congrArg List.reverse h
  simp only [List.reverse_append, List.reverse_cons, List.append_assoc, List.singleton_append]
    at hrev
  obtain ⟨hdigits, hrest⟩ := append_sep_inj (hnot m) (hnot n) hrev
  exact ⟨List.reverse_injective hrest, toDigits_inj (List.reverse_injective hdigits)⟩

/-! ### Order -/

/-- Between lists of the same length the order is decided before anything that follows. -/
lemma append_lt_append {l l' : List Char} (hlen : l.length = l'.length) (h : l < l')
    (s t : List Char) : l ++ s < l' ++ t := by
  induction l generalizing l' with
  | nil =>
    obtain rfl := List.length_eq_zero_iff.mp hlen.symm
    exact absurd h (List.not_lt_nil [])
  | cons a l ih =>
    cases l' with
    | nil => simp at hlen
    | cons b l' =>
      rw [List.cons_append, List.cons_append, List.cons_lt_cons_iff]
      rw [List.cons_lt_cons_iff] at h
      rcases h with h | ⟨rfl, h⟩
      · exact Or.inl h
      · exact Or.inr ⟨rfl, ih (by simpa using hlen) h⟩

lemma append_left_lt (l : List Char) {s t : List Char} (h : s < t) : l ++ s < l ++ t := by
  induction l with
  | nil => exact h
  | cons a l ih => exact List.cons_lt_cons_iff.mpr (Or.inr ⟨rfl, ih⟩)

lemma digitChar_lt {m n : ℕ} (h : m < n) (hn : n < 10) : Nat.digitChar m < Nat.digitChar n := by
  have hall : ∀ n < 10, ∀ m < n, Nat.digitChar m < Nat.digitChar n := by decide
  exact hall n hn m h

/-- Numerals of the same length are ordered like the numbers. -/
lemma toDigits_lt {m n : ℕ} (h : m < n)
    (hlen : (Nat.toDigits 10 m).length = (Nat.toDigits 10 n).length) :
    Nat.toDigits 10 m < Nat.toDigits 10 n := by
  induction n using Nat.strong_induction_on generalizing m with
  | _ n ih =>
    by_cases hn : n < 10
    · rw [Nat.toDigits_of_lt_base hn, Nat.toDigits_of_lt_base (h.trans hn)]
      exact List.cons_lt_cons_iff.mpr (Or.inl (digitChar_lt h hn))
    · have hm : ¬ m < 10 := by
        intro hm
        rw [Nat.toDigits_of_lt_base hm, Nat.toDigits_of_base_le (by decide) (not_lt.mp hn),
          List.length_append] at hlen
        simp at hlen
      rw [Nat.toDigits_of_base_le (by decide) (not_lt.mp hm),
        Nat.toDigits_of_base_le (by decide) (not_lt.mp hn)] at hlen ⊢
      have hlen' : (Nat.toDigits 10 (m / 10)).length = (Nat.toDigits 10 (n / 10)).length := by
        simpa using hlen
      rcases (Nat.div_le_div_right h.le : m / 10 ≤ n / 10).lt_or_eq with hlt | heq
      · exact append_lt_append hlen' (ih _ (by omega) hlt hlen') _ _
      · rw [heq]
        refine append_left_lt _ (List.cons_lt_cons_iff.mpr (Or.inl (digitChar_lt ?_ ?_)))
        · omega
        · omega

end Orchestrator.Lib
