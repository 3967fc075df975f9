/-
# The calendar

`civilDate` counts years from March on, in eras of 400 years: the era of a day, the year of the era,
the month and the day.  Each of these is the number of whole units before the day, so the dates are
in the order of the days (`civilDate_lt`).
-/
import Orchestrator.Store.Keys

namespace Orchestrator

variable {a b : ℤ}

/-! ### Years of an era -/

/-- The year of an era that a day belongs to. -/
def yearOfEra (doe : ℤ) : ℤ := (doe - doe / 1460 + doe / 36524 - doe / 146096) / 365

/-- The first day of a year of an era. -/
def yearStart (y : ℤ) : ℤ := 365 * y + y / 4 - y / 100 + y / 400

lemma yearOfEra_le (h : a ≤ b) : yearOfEra a ≤ yearOfEra b := by
  have hleap : a - a / 1460 ≤ b - b / 1460 := by omega
  have hcentury : a / 36524 - a / 146096 ≤ b / 36524 - b / 146096 := by omega
  refine Int.ediv_le_ediv (by decide) ?_
  omega

lemma yearOfEra_nonneg (h0 : 0 ≤ a) : 0 ≤ yearOfEra a := by
  unfold yearOfEra
  omega

lemma yearOfEra_lt (h : a < 146097) : yearOfEra a < 400 := by
  unfold yearOfEra
  omega

/-- The first and the last day of a year belong to it. -/
lemma yearOfEra_ends : ∀ y : ℕ, y < 400 →
    yearOfEra (yearStart y) = y ∧ yearOfEra (yearStart (y + 1) - 1) = y := by
  decide +kernel

/-- A day belongs to the year that it lies in. -/
lemma yearStart_le (h0 : 0 ≤ a) (ha : a < 146097) :
    yearStart (yearOfEra a) ≤ a ∧ a < yearStart (yearOfEra a + 1) := by
  obtain ⟨y, hy⟩ := Int.eq_ofNat_of_zero_le (yearOfEra_nonneg h0)
  have hlt : y < 400 := by
    have := yearOfEra_lt ha
    omega
  rw [hy]
  constructor
  · -- a day before the start belongs to the year before, at the latest
    by_contra hbefore
    rw [not_le] at hbefore
    cases y with
    | zero =>
      have hstart : yearStart ((0 : ℕ) : ℤ) = 0 := by decide
      omega
    | succ y =>
      have hlast := (yearOfEra_ends y (by omega)).2
      have hle := yearOfEra_le (Int.le_sub_one_of_lt hbefore)
      rw [Nat.cast_succ, hlast, hy] at hle
      omega
  · by_contra hafter
    rw [not_lt] at hafter
    by_cases hend : y + 1 < 400
    · have hfirst := (yearOfEra_ends (y + 1) hend).1
      have hle := yearOfEra_le hafter
      rw [← Nat.cast_succ, hfirst, hy] at hle
      omega
    · obtain rfl : y = 399 := by omega
      have hstart : yearStart (((399 : ℕ) : ℤ) + 1) = 146097 := by decide
      omega

lemma yearStart_succ_le (y : ℤ) : yearStart (y + 1) ≤ yearStart y + 366 := by
  have hleap : (y + 1) / 4 ≤ y / 4 + 1 := by omega
  have hcentury : (y + 1) / 400 - (y + 1) / 100 ≤ y / 400 - y / 100 := by omega
  unfold yearStart
  omega

/-! ### Dates -/

/-- The order of dates: by year, month and day. -/
def DateLt (x y : ℤ × ℤ × ℤ) : Prop :=
  x.1 < y.1 ∨ x.1 = y.1 ∧ (x.2.1 < y.2.1 ∨ x.2.1 = y.2.1 ∧ x.2.2 < y.2.2)

/-- The day of the year that starts in March. -/
def dayOfYear (day : ℤ) : ℤ := (day + 719468) % 146097 -
  (365 * yearOfEra ((day + 719468) % 146097) + yearOfEra ((day + 719468) % 146097) / 4 -
    yearOfEra ((day + 719468) % 146097) / 100)

/-- The year, counted from March on. -/
def marchYear (day : ℤ) : ℤ :=
  yearOfEra ((day + 719468) % 146097) + (day + 719468) / 146097 * 400

/-- The month of the year, counted from March on. -/
def marchMonth (day : ℤ) : ℤ := (5 * dayOfYear day + 2) / 153

/-- The day of the month. -/
def dayOfMonth (day : ℤ) : ℤ := dayOfYear day - (153 * marchMonth day + 2) / 5 + 1

lemma civilDate_eq (day : ℤ) : civilDate day =
    (marchYear day + (if (if marchMonth day < 10 then marchMonth day + 3 else marchMonth day - 9) ≤ 2
        then 1 else 0),
      if marchMonth day < 10 then marchMonth day + 3 else marchMonth day - 9, dayOfMonth day) := by
  have hmod : day + 719468 - (day + 719468) / 146097 * 146097 = (day + 719468) % 146097 := by
    omega
  unfold civilDate
  dsimp only
  rw [hmod]
  rfl

lemma dayOfYear_eq (day : ℤ) : dayOfYear day =
    (day + 719468) % 146097 - yearStart (yearOfEra ((day + 719468) % 146097)) := by
  have hy0 := yearOfEra_nonneg (Int.emod_nonneg (day + 719468) (by decide : (146097 : ℤ) ≠ 0))
  have hy := yearOfEra_lt (Int.emod_lt_of_pos (day + 719468) (by decide : (0 : ℤ) < 146097))
  unfold dayOfYear yearStart
  omega

lemma dayOfYear_bounds (day : ℤ) : 0 ≤ dayOfYear day ∧ dayOfYear day ≤ 365 := by
  have h0 : 0 ≤ (day + 719468) % 146097 := Int.emod_nonneg _ (by decide)
  have hlt : (day + 719468) % 146097 < 146097 := Int.emod_lt_of_pos _ (by decide)
  obtain ⟨hstart, hend⟩ := yearStart_le h0 hlt
  have hlen := yearStart_succ_le (yearOfEra ((day + 719468) % 146097))
  rw [dayOfYear_eq]
  omega

/-- The order of dates that are counted from March on. -/
lemma march_lt (h : a < b) : DateLt (marchYear a, marchMonth a, dayOfMonth a)
    (marchYear b, marchMonth b, dayOfMonth b) := by
  have hbound : ∀ day : ℤ, 0 ≤ yearOfEra ((day + 719468) % 146097) ∧
      yearOfEra ((day + 719468) % 146097) < 400 := fun day =>
    ⟨yearOfEra_nonneg (Int.emod_nonneg _ (by decide)),
      yearOfEra_lt (Int.emod_lt_of_pos _ (by decide))⟩
  obtain ⟨ha0, ha⟩ := hbound a
  obtain ⟨hb0, hb⟩ := hbound b
  have hle : (a + 719468) / 146097 ≤ (b + 719468) / 146097 :=
    Int.ediv_le_ediv (by decide) (by omega)
  rcases hle.lt_or_eq with hera | hera
  · refine .inl ?_
    dsimp only [marchYear]
    omega
  -- in the same era
  have hdoe : (a + 719468) % 146097 < (b + 719468) % 146097 := by omega
  rcases (yearOfEra_le hdoe.le).lt_or_eq with hyear | hyear
  · refine .inl ?_
    dsimp only [marchYear]
    omega
  have hday : dayOfYear a < dayOfYear b := by
    rw [dayOfYear_eq, dayOfYear_eq, hyear]
    omega
  refine .inr ⟨by dsimp only [marchYear]; rw [hera, hyear], ?_⟩
  have hle : marchMonth a ≤ marchMonth b := Int.ediv_le_ediv (by decide) (by omega)
  rcases hle.lt_or_eq with hmonth | hmonth
  · exact .inl hmonth
  · refine .inr ⟨hmonth, ?_⟩
    dsimp only [dayOfMonth]
    rw [hmonth]
    omega

lemma marchMonth_bounds (day : ℤ) : 0 ≤ marchMonth day ∧ marchMonth day ≤ 11 := by
  obtain ⟨h0, h⟩ := dayOfYear_bounds day
  unfold marchMonth
  omega

lemma dayOfMonth_bounds (day : ℤ) : 1 ≤ dayOfMonth day ∧ dayOfMonth day ≤ 31 := by
  obtain ⟨h0, h⟩ := dayOfYear_bounds day
  unfold dayOfMonth marchMonth
  omega

/-- Later days have later dates. -/
lemma civilDate_lt (h : a < b) : DateLt (civilDate a) (civilDate b) := by
  have hlt := march_lt h
  obtain ⟨ha0, ha⟩ := marchMonth_bounds a
  obtain ⟨hb0, hb⟩ := marchMonth_bounds b
  rw [civilDate_eq, civilDate_eq]
  unfold DateLt at hlt ⊢
  dsimp only at hlt ⊢
  -- January and February are the last months of a year that starts in March
  split_ifs <;> omega

lemma month_bounds (day : ℤ) : 1 ≤ (civilDate day).2.1 ∧ (civilDate day).2.1 ≤ 12 := by
  obtain ⟨h0, h⟩ := marchMonth_bounds day
  rw [civilDate_eq]
  dsimp only
  split_ifs <;> omega

lemma day_bounds (day : ℤ) : 1 ≤ (civilDate day).2.2 ∧ (civilDate day).2.2 ≤ 31 := by
  rw [civilDate_eq]
  exact dayOfMonth_bounds day

/-- The days of the years 1 to 9999. -/
lemma year_bounds {day : ℤ} (h0 : -719162 ≤ day) (h : day ≤ 2932896) :
    1 ≤ (civilDate day).1 ∧ (civilDate day).1 ≤ 9999 := by
  have hfirst : civilDate (-719162) = (1, 1, 1) := by decide
  have hlast : civilDate 2932896 = (9999, 12, 31) := by decide
  constructor
  · rcases h0.lt_or_eq with hlt | rfl
    · have := civilDate_lt hlt
      rw [hfirst] at this
      unfold DateLt at this
      omega
    · rw [hfirst]
  · rcases h.lt_or_eq with hlt | rfl
    · have := civilDate_lt hlt
      rw [hlast] at this
      unfold DateLt at this
      omega
    · rw [hlast]

end Orchestrator
