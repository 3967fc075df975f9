/-
# Numerals of fixed width

Numerals with zeros in front are ordered like the numbers.  Fractions lose their trailing zeros, so
they are not of one length.  If the text goes on with a character after the digits, then a fraction
comes after a larger one that starts with its digits (`fraction_order`).
-/
import Mathlib.Algebra.Order.Ring.Nat
import Mathlib.Data.List.DropRight
import Orchestrator.Lib.Decimal

namespace Orchestrator.Lib

variable {w m n : ℕ}

/-- The last `w` decimal digits of a number. -/
def fixedDigits : ℕ → ℕ → List Char
  | 0, _ => []
  | w + 1, n => fixedDigits w (n / 10) ++ [Nat.digitChar (n % 10)]

@[simp] lemma length_fixedDigits (w n : ℕ) : (fixedDigits w n).length = w := by
  induction w generalizing n with
  | zero => rfl
  | succ w ih => simp [fixedDigits, ih]

lemma fixedDigits_zero (w : ℕ) : fixedDigits w 0 = List.replicate w '0' := by
  induction w with
  | zero => rfl
  | succ w ih =>
    rw [fixedDigits, Nat.zero_div, ih, List.replicate_succ']
    rfl

/-- A numeral filled up with zeros. -/
lemma replicate_append_toDigits (hw : 0 < w) (hn : n < 10 ^ w) :
    List.replicate (w - (Nat.toDigits 10 n).length) '0' ++ Nat.toDigits 10 n =
      fixedDigits w n := by
  induction w generalizing n with
  | zero => exact absurd hw (lt_irrefl 0)
  | succ w ih =>
    by_cases hlt : n < 10
    · rw [Nat.toDigits_of_lt_base hlt, fixedDigits, Nat.div_eq_of_lt hlt, Nat.mod_eq_of_lt hlt,
        fixedDigits_zero]
      rfl
    · have hpow : n / 10 < 10 ^ w := by
        rw [pow_succ] at hn
        omega
      have hw' : 0 < w := by
        refine Nat.pos_of_ne_zero fun h0 => ?_
        rw [h0, pow_zero] at hpow
        omega
      rw [Nat.toDigits_of_base_le (by decide) (not_lt.mp hlt), fixedDigits, ← ih hw' hpow,
        List.length_append, List.length_singleton, Nat.add_sub_add_right, List.append_assoc]

/-- Numerals of one width are ordered like the numbers. -/
lemma fixedDigits_lt (h : m < n) (hn : n < 10 ^ w) : fixedDigits w m < fixedDigits w n := by
  induction w generalizing m n with
  | zero =>
    rw [pow_zero] at hn
    omega
  | succ w ih =>
    rw [pow_succ] at hn
    rcases (Nat.div_le_div_right h.le : m / 10 ≤ n / 10).lt_or_eq with hlt | heq
    · exact append_lt_append (by simp) (ih hlt (by omega)) _ _
    · rw [fixedDigits, fixedDigits, heq]
      refine append_left_lt _ (List.cons_lt_cons_iff.mpr (.inl (digitChar_lt ?_ ?_)))
      · omega
      · omega

/-- The first digit of a numeral. -/
lemma fixedDigits_succ (w n : ℕ) (hn : n < 10 ^ (w + 1)) :
    fixedDigits (w + 1) n = Nat.digitChar (n / 10 ^ w) :: fixedDigits w (n % 10 ^ w) := by
  induction w generalizing n with
  | zero =>
    rw [zero_add, pow_one] at hn
    have hone : fixedDigits (0 + 1) n = [Nat.digitChar (n % 10)] := rfl
    rw [hone, Nat.mod_eq_of_lt hn, pow_zero, Nat.div_one]
    rfl
  | succ w ih =>
    have hdiv : n / 10 < 10 ^ (w + 1) := by
      rw [pow_succ] at hn
      omega
    have hpow : 10 ^ (w + 1) = 10 * 10 ^ w := pow_succ' 10 w
    rw [fixedDigits, ih _ hdiv, fixedDigits, Nat.div_div_eq_div_mul, ← hpow, hpow,
      Nat.mod_mul_right_div_self, Nat.mod_mul_right_mod, List.cons_append]

/-! ### Fractions -/

/-- The digits after the point, without trailing zeros. -/
def fraction (w n : ℕ) : List Char := (fixedDigits w n).rdropWhile (· == '0')

/-- A fraction that has its last digit at or before the place of `10 ^ j`, and one that is larger by
less than this. -/
def Extends (w m n : ℕ) : Prop := m < n ∧ ∃ j ≤ w, 10 ^ j ∣ m ∧ n < m + 10 ^ j

lemma rdropWhile_cons {α : Type} (p : α → Bool) (a : α) (l : List α) :
    (a :: l).rdropWhile p =
      if l.rdropWhile p = [] then (if p a then [] else [a]) else a :: l.rdropWhile p := by
  have hnil : l.rdropWhile p = [] ↔ l.reverse.dropWhile p = [] := by
    rw [List.rdropWhile, List.reverse_eq_nil_iff]
  rw [List.rdropWhile, List.reverse_cons, List.dropWhile_append, if_congr hnil rfl rfl]
  by_cases h : l.reverse.dropWhile p = []
  · rw [if_pos h, h, if_pos List.isEmpty_nil, List.dropWhile_cons, List.dropWhile_nil]
    split <;> rfl
  · rw [if_neg h, if_neg (by simpa using h), List.reverse_append]
    rfl

lemma digitChar_ne_zero {d : ℕ} (hd : d < 10) (h0 : d ≠ 0) : Nat.digitChar d ≠ '0' := by
  have hall : ∀ d < 10, d ≠ 0 → Nat.digitChar d ≠ '0' := by decide
  exact hall d hd h0

lemma fraction_zero (w : ℕ) : fraction w 0 = [] := by
  rw [fraction, fixedDigits_zero, List.rdropWhile_eq_nil_iff]
  intro c hc
  rw [List.eq_of_mem_replicate hc]
  rfl

lemma eq_zero_of_fraction (hn : n < 10 ^ w) (h : fraction w n = []) : n = 0 := by
  have hall : ∀ c ∈ fixedDigits w n, c = '0' := fun c hc =>
    by simpa using List.rdropWhile_eq_nil_iff.mp h c hc
  have hzeros : fixedDigits w n = fixedDigits w 0 := by
    rw [fixedDigits_zero]
    exact List.eq_replicate_iff.mpr ⟨length_fixedDigits w n, hall⟩
  by_contra h0
  have hlt := fixedDigits_lt (Nat.pos_of_ne_zero h0) hn
  rw [hzeros] at hlt
  exact absurd hlt (lt_irrefl _)

/-- A fraction other than zero starts with its first digit. -/
lemma fraction_succ (hn : n < 10 ^ (w + 1)) (h0 : n ≠ 0) :
    fraction (w + 1) n = Nat.digitChar (n / 10 ^ w) :: fraction w (n % 10 ^ w) := by
  have hpos : 0 < 10 ^ w := Nat.pow_pos (by decide)
  rw [fraction, fixedDigits_succ w n hn, rdropWhile_cons]
  change (if fraction w (n % 10 ^ w) = [] then _ else _ :: fraction w (n % 10 ^ w)) = _
  split_ifs with hnil hdigit
  · -- then all digits would be zero
    have hmod : n % 10 ^ w = 0 := eq_zero_of_fraction (Nat.mod_lt _ hpos) hnil
    have hfirst : n / 10 ^ w ≠ 0 := by
      intro hdiv
      exact h0 (by rw [← Nat.div_add_mod n (10 ^ w), hdiv, hmod, mul_zero])
    have hten : n / 10 ^ w < 10 := by
      rw [Nat.div_lt_iff_lt_mul hpos, ← pow_succ']
      exact hn
    exact absurd (by simpa using hdigit) (digitChar_ne_zero hten hfirst)
  · rw [hnil]
  · rfl

/-! ### The order of fractions -/

section Order

variable (hn : n < 10 ^ (w + 1)) (h0 : m ≠ 0)

include hn h0

lemma not_extends_of_div_lt (h : m / 10 ^ w < n / 10 ^ w) : ¬ Extends (w + 1) m n := by
  rintro ⟨hlt, j, hj, hdvd, hbound⟩
  have hpos : 0 < 10 ^ w := Nat.pow_pos (by decide)
  rcases Nat.le_succ_iff.mp hj with hj | rfl
  · have hm : m < n / 10 ^ w * 10 ^ w := (Nat.div_lt_iff_lt_mul hpos).mp h
    have hle : n / 10 ^ w * 10 ^ w ≤ n := Nat.div_mul_le_self n (10 ^ w)
    have hdvd' : 10 ^ j ∣ n / 10 ^ w * 10 ^ w := (pow_dvd_pow 10 hj).mul_left _
    have hgap : 10 ^ j ≤ n / 10 ^ w * 10 ^ w - m :=
      Nat.le_of_dvd (by omega) (Nat.dvd_sub hdvd' hdvd)
    omega
  · exact h0 (Nat.eq_zero_of_dvd_of_lt hdvd (hlt.trans hn))

lemma extends_succ_iff (h : m / 10 ^ w = n / 10 ^ w) :
    Extends (w + 1) m n ↔ Extends w (m % 10 ^ w) (n % 10 ^ w) := by
  have hm := Nat.div_add_mod m (10 ^ w)
  have hn' := Nat.div_add_mod n (10 ^ w)
  rw [h] at hm
  have hdvd : ∀ j ≤ w, 10 ^ j ∣ m ↔ 10 ^ j ∣ m % 10 ^ w := fun j hj => by
    rw [Nat.dvd_mod_iff (pow_dvd_pow 10 hj)]
  constructor
  · rintro ⟨hlt, j, hj, hj', hbound⟩
    rcases Nat.le_succ_iff.mp hj with hj | rfl
    · exact ⟨by omega, j, hj, (hdvd j hj).mp hj', by omega⟩
    · exact absurd (Nat.eq_zero_of_dvd_of_lt hj' (hlt.trans hn)) h0
  · rintro ⟨hlt, j, hj, hj', hbound⟩
    exact ⟨by omega, j, hj.trans (Nat.le_succ w), (hdvd j hj).mpr hj', by omega⟩

end Order

/-- A fraction that is followed by a character after the digits comes before a larger one, unless
the larger one goes on after its digits. -/
lemma fraction_order {z : Char} (hz : ∀ d < 10, Nat.digitChar d < z) (s t : List Char) (h : m < n)
    (hn : n < 10 ^ w) :
    (Extends w m n ∧ fraction w n ++ z :: t < fraction w m ++ z :: s) ∨
      (¬ Extends w m n ∧ fraction w m ++ z :: s < fraction w n ++ z :: t) := by
  induction w generalizing m n with
  | zero =>
    rw [pow_zero] at hn
    omega
  | succ w ih =>
    have hpos : 0 < 10 ^ w := Nat.pow_pos (by decide)
    have hten : n / 10 ^ w < 10 := by
      rw [Nat.div_lt_iff_lt_mul hpos, ← pow_succ']
      exact hn
    have hn0 : n ≠ 0 := by omega
    by_cases hm0 : m = 0
    · refine .inl ⟨⟨h, w + 1, le_rfl, hm0 ▸ Nat.dvd_zero _, by omega⟩, ?_⟩
      rw [hm0, fraction_zero, fraction_succ hn hn0]
      exact List.cons_lt_cons_iff.mpr (.inl (hz _ hten))
    · rw [fraction_succ hn hn0, fraction_succ (h.trans hn) hm0]
      rcases (Nat.div_le_div_right h.le : m / 10 ^ w ≤ n / 10 ^ w).lt_or_eq with hlt | heq
      · exact .inr ⟨not_extends_of_div_lt hn hm0 hlt,
          List.cons_lt_cons_iff.mpr (.inl (digitChar_lt hlt hten))⟩
      · have hm' := Nat.div_add_mod m (10 ^ w)
        have hn' := Nat.div_add_mod n (10 ^ w)
        rw [heq] at hm' ⊢
        rw [extends_succ_iff hn hm0 heq]
        -- the first digits agree, and the others decide
        exact (ih (by omega) (Nat.mod_lt _ hpos)).imp
          (And.imp_right fun hlt => List.cons_lt_cons_iff.mpr (.inr ⟨rfl, hlt⟩))
          (And.imp_right fun hlt => List.cons_lt_cons_iff.mpr (.inr ⟨rfl, hlt⟩))

end Orchestrator.Lib
