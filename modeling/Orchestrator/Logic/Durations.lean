/-
# Durations

A number of seconds is turned into a `time.Duration` by a 64-bit multiplication, and the difference
of two times is one that saturates.  Where the product is in range the comparison of the two is the
one over unbounded integers.
-/
import Orchestrator.Model.Types

namespace Orchestrator

variable {s : Int64} {t u p : ℤ}

/-- So many seconds are a `time.Duration`. -/
def InDurationRange (s : Int64) : Prop := s.toInt * 1000000000 < 2 ^ 63

instance (s : Int64) : Decidable (InDurationRange s) :=
  inferInstanceAs (Decidable (_ < _))

lemma wrap64_lt (x : ℤ) : wrap64 x < 2 ^ 63 := Int64.toInt_lt _

lemma le_wrap64 (x : ℤ) : -2 ^ 63 ≤ wrap64 x := Int64.le_toInt _

lemma seconds_eq_of_range (h0 : 0 ≤ s) (h : InDurationRange s) :
    seconds s = s.toInt * 1000000000 := by
  have hpos : 0 ≤ s.toInt := Int64.le_iff_toInt_le.mp h0
  exact Int64.toInt_ofInt_of_le (by omega) h

/-- The saturation does not matter for a bound in range. -/
lemma le_sub_iff (h0 : 0 ≤ p) (h : p < 2 ^ 63) : p ≤ Time.sub t u ↔ u + p ≤ t := by
  rw [Time.sub, le_max_iff, le_min_iff]
  omega

/-- In range, the comparison with a difference of times is exact. -/
lemma seconds_le_sub_iff (h0 : 0 ≤ s) (h : InDurationRange s) :
    seconds s ≤ Time.sub t u ↔ u + s.toInt * 1000000000 ≤ t := by
  have hpos : 0 ≤ s.toInt := Int64.le_iff_toInt_le.mp h0
  rw [seconds_eq_of_range h0 h]
  exact le_sub_iff (by omega) h

/-- So many seconds are a `time.Duration`, also if they are negative. -/
def FitsDuration (s : Int64) : Prop :=
  -2 ^ 63 ≤ s.toInt * 1000000000 ∧ s.toInt * 1000000000 < 2 ^ 63

instance (s : Int64) : Decidable (FitsDuration s) := inferInstanceAs (Decidable (_ ∧ _))

/-- These are the settings for which the comparison is exact at all times. -/
lemma fitsDuration_iff (s : Int64) (u : ℤ) : FitsDuration s ↔
    ∀ t : ℤ, (seconds s ≤ Time.sub t u ↔ u + s.toInt * 1000000000 ≤ t) := by
  have hlow := le_wrap64 (s.toInt * 1000000000)
  have hhigh := wrap64_lt (s.toInt * 1000000000)
  constructor
  · rintro ⟨h₁, h₂⟩ t
    rw [seconds, wrap64, Int64.toInt_ofInt_of_le h₁ h₂, Time.sub, le_max_iff, le_min_iff]
    omega
  · intro h
    -- a time at the end of the range, and one before all
    have hend := h (u + (2 ^ 63 - 1))
    have hstart := h (u - 2 ^ 63)
    have hbefore := h (u + s.toInt * 1000000000 - 1)
    simp only [seconds, Time.sub, le_max_iff, le_min_iff] at hend hstart hbefore
    unfold FitsDuration
    omega

end Orchestrator
