/-
# The order of timestamps as texts

`time.RFC3339Nano` writes the date and the time of day in fields of fixed width.  The fraction of
the second has no trailing zeros, and the text ends in `Z`, which comes after the digits and after the
point.  So timestamps in different seconds are ordered like their texts, and within a second the
text of the earlier one comes later if the other one goes on after its digits (`format_order`).
-/
import Mathlib.Tactic.IntervalCases
import Orchestrator.Lib.Fixed
import Orchestrator.Logic.Calendar

namespace Orchestrator

open Lib

variable {t t' : ℤ}

/-- A time in the years 1 to 9999. -/
def InYears (t : ℤ) : Prop := Time.zero ≤ t ∧ t < 253402300800000000000

instance (t : ℤ) : Decidable (InYears t) := inferInstanceAs (Decidable (_ ∧ _))

/-- The later time differs from the earlier one only by digits after its last one. -/
def Overtakes (t t' : ℤ) : Prop := t < t' ∧ ∃ j ≤ 9, 10 ^ j ∣ t ∧ t' < t + 10 ^ j

instance (t t' : ℤ) : Decidable (Overtakes t t') := inferInstanceAs (Decidable (_ ∧ _))

/-! ### Fields -/

lemma toList_padded {w n : ℕ} (hw : 0 < w) (hn : n < 10 ^ w) :
    (padded w n).toList = fixedDigits w n := by
  have hlen : (toString n).length = (Nat.toDigits 10 n).length := by
    rw [← String.length_toList, toString_nat_toList]
  rw [padded, String.toList_append, String.toList_ofList, hlen, toString_nat_toList,
    replicate_append_toDigits hw hn]

/-- A date and a time of day, to the second. -/
def stamp (date : ℤ × ℤ × ℤ) (tod : ℕ) : List Char :=
  fixedDigits 4 date.1.toNat ++ '-' :: (fixedDigits 2 date.2.1.toNat ++ '-' ::
    (fixedDigits 2 date.2.2.toNat ++ 'T' :: (fixedDigits 2 (tod / 3600) ++ ':' ::
      (fixedDigits 2 (tod / 60 % 60) ++ ':' :: fixedDigits 2 (tod % 60)))))

/-- The fields of a date have their width. -/
structure FourDigits (date : ℤ × ℤ × ℤ) : Prop where
  year : 0 ≤ date.1 ∧ date.1 < 10000
  month : 0 ≤ date.2.1 ∧ date.2.1 < 100
  day : 0 ≤ date.2.2 ∧ date.2.2 < 100

lemma length_stamp (date : ℤ × ℤ × ℤ) (tod : ℕ) : (stamp date tod).length = 19 := by
  simp [stamp]

/-- A field of fixed width decides, or what follows it. -/
lemma field_lt {w m n : ℕ} (hn : n < 10 ^ w) (sep : Char) {rest rest' : List Char}
    (h : m < n ∨ m = n ∧ rest < rest') :
    fixedDigits w m ++ sep :: rest < fixedDigits w n ++ sep :: rest' := by
  rcases h with h | ⟨rfl, h⟩
  · exact append_lt_append (by simp) (fixedDigits_lt h hn) _ _
  · exact append_left_lt _ (List.cons_lt_cons_iff.mpr (.inr ⟨rfl, h⟩))

lemma stamp_lt_of_date {x y : ℤ × ℤ × ℤ} (hx : FourDigits x) (hy : FourDigits y) (h : DateLt x y)
    (tod tod' : ℕ) : stamp x tod < stamp y tod' := by
  obtain ⟨⟨hx1, -⟩, ⟨hx2, -⟩, ⟨hx3, -⟩⟩ := hx
  obtain ⟨⟨hy1, hy1'⟩, ⟨hy2, hy2'⟩, ⟨hy3, hy3'⟩⟩ := hy
  refine field_lt (by omega) _ ?_
  rcases h with hlt | ⟨heq, h⟩
  · exact .inl (by omega)
  refine .inr ⟨by rw [heq], field_lt (by omega) _ ?_⟩
  rcases h with hlt | ⟨heq, hlt⟩
  · exact .inl (by omega)
  · exact .inr ⟨by rw [heq], field_lt (by omega) _ (.inl (by omega))⟩

lemma stamp_lt_of_tod {x : ℤ × ℤ × ℤ} (hx : FourDigits x) {tod tod' : ℕ} (h : tod < tod')
    (hmax : tod' < 86400) : stamp x tod < stamp x tod' := by
  obtain ⟨⟨hx1, hx1'⟩, ⟨hx2, hx2'⟩, ⟨hx3, hx3'⟩⟩ := hx
  refine field_lt (by omega) _ (.inr ⟨rfl, ?_⟩)
  refine field_lt (by omega) _ (.inr ⟨rfl, ?_⟩)
  refine field_lt (by omega) _ (.inr ⟨rfl, ?_⟩)
  refine field_lt (by omega) _ ?_
  rcases (Nat.div_le_div_right h.le : tod / 3600 ≤ tod' / 3600).lt_or_eq with hhour | hhour
  · exact .inl hhour
  refine .inr ⟨hhour, field_lt (by omega) _ ?_⟩
  by_cases hmin : tod / 60 % 60 < tod' / 60 % 60
  · exact .inl hmin
  · exact .inr ⟨by omega, fixedDigits_lt (by omega) (by omega)⟩

/-! ### Seconds -/

/-- The date and the time of day of a second. -/
def stampOf (s : ℤ) : List Char := stamp (civilDate (s / 86400)) (s % 86400).toNat

/-- The seconds of the years 1 to 9999. -/
def SecondsInYears (s : ℤ) : Prop := -62135596800 ≤ s ∧ s < 253402300800

lemma SecondsInYears.fourDigits {s : ℤ} (h : SecondsInYears s) :
    FourDigits (civilDate (s / 86400)) := by
  obtain ⟨h0, h⟩ := h
  have hyear : 1 ≤ (civilDate (s / 86400)).1 ∧ (civilDate (s / 86400)).1 ≤ 9999 :=
    year_bounds (by omega) (by omega)
  have hmonth := month_bounds (s / 86400)
  have hday := day_bounds (s / 86400)
  exact ⟨⟨by omega, by omega⟩, ⟨by omega, by omega⟩, ⟨by omega, by omega⟩⟩

/-- Later seconds have later texts. -/
lemma stampOf_lt {s s' : ℤ} (hs : SecondsInYears s) (hs' : SecondsInYears s') (h : s < s') :
    stampOf s < stampOf s' := by
  rcases (Int.ediv_le_ediv (by decide) h.le : s / 86400 ≤ s' / 86400).lt_or_eq with hday | hday
  · exact stamp_lt_of_date hs.fourDigits hs'.fourDigits (civilDate_lt hday) _ _
  · rw [stampOf, stampOf, hday]
    exact stamp_lt_of_tod hs'.fourDigits (by omega) (by omega)

lemma InYears.seconds (h : InYears t) : SecondsInYears (t / 1000000000) := by
  obtain ⟨h0, h⟩ := h
  have h0' : -62135596800000000000 ≤ t := h0
  constructor
  · omega
  · omega

/-- The text of a date and a time of day. -/
def stampText (date : ℤ × ℤ × ℤ) (tod : ℕ) : String :=
  padded 4 date.1.toNat ++ "-" ++ padded 2 date.2.1.toNat ++ "-" ++ padded 2 date.2.2.toNat ++ "T" ++
    padded 2 (tod / 3600) ++ ":" ++ padded 2 (tod / 60 % 60) ++ ":" ++ padded 2 (tod % 60)

lemma toList_stampText {date : ℤ × ℤ × ℤ} (h : FourDigits date) {tod : ℕ} (htod : tod < 86400) :
    (stampText date tod).toList = stamp date tod := by
  obtain ⟨⟨hy, hy'⟩, ⟨hm, hm'⟩, ⟨hd, hd'⟩⟩ := h
  simp only [stampText, String.toList_append]
  rw [toList_padded (by decide) (by omega), toList_padded (by decide) (by omega),
    toList_padded (by decide) (by omega), toList_padded (by decide) (by omega),
    toList_padded (by decide) (by omega), toList_padded (by decide) (by omega)]
  simp [stamp]

lemma format_eq (t : ℤ) : formatRFC3339Nano t =
    stampText (civilDate (t / 1000000000 / 86400)) (t / 1000000000 % 86400).toNat ++
      nanoFraction (t % 1000000000).toNat ++ "Z" := rfl

lemma toList_format (h : InYears t) : (formatRFC3339Nano t).toList =
    stampOf (t / 1000000000) ++ ((nanoFraction (t % 1000000000).toNat).toList ++ ['Z']) := by
  have htod : (t / 1000000000 % 86400).toNat < 86400 := by omega
  rw [format_eq, String.toList_append, String.toList_append,
    toList_stampText h.seconds.fourDigits htod, List.append_assoc]
  rfl

/-! ### Fractions of a second -/

lemma toList_nanoFraction {ns : ℕ} (h : ns < 10 ^ 9) : (nanoFraction ns).toList =
    if ns = 0 then [] else '.' :: fraction 9 ns := by
  unfold nanoFraction
  split_ifs with h0
  · rfl
  · have hpoint : ".".toList = ['.'] := rfl
    rw [String.toList_append, hpoint, String.toList_ofList, toList_padded (by decide) h, fraction,
      List.rdropWhile, List.singleton_append]

/-- The characters after the seconds, with something that follows them. -/
def tailOf (ns : ℕ) (rest : List Char) : List Char := (nanoFraction ns).toList ++ 'Z' :: rest

lemma tail_order {m n : ℕ} (h : m < n) (hn : n < 10 ^ 9) (s s' : List Char) :
    (Extends 9 m n ∧ tailOf n s' < tailOf m s) ∨ (¬ Extends 9 m n ∧ tailOf m s < tailOf n s') := by
  have hn0 : n ≠ 0 := by omega
  rw [tailOf, tailOf, toList_nanoFraction hn, toList_nanoFraction (h.trans hn), if_neg hn0]
  by_cases hm0 : m = 0
  · -- a second without a fraction: `Z` against the point
    refine .inl ⟨⟨h, 9, le_rfl, hm0 ▸ Nat.dvd_zero _, by omega⟩, ?_⟩
    rw [if_pos hm0]
    exact List.cons_lt_cons_iff.mpr (.inl (by decide))
  · rw [if_neg hm0]
    exact (fraction_order (by decide) s s' h hn).imp
      (And.imp_right fun hlt => List.cons_lt_cons_iff.mpr (.inr ⟨rfl, hlt⟩))
      (And.imp_right fun hlt => List.cons_lt_cons_iff.mpr (.inr ⟨rfl, hlt⟩))

lemma overtakes_iff (h : t / 1000000000 = t' / 1000000000) : Overtakes t t' ↔
    Extends 9 (t % 1000000000).toNat (t' % 1000000000).toNat := by
  refine and_congr (by omega) (exists_congr fun j => and_congr_right fun hj => ?_)
  interval_cases j <;> omega

lemma not_overtakes (h : t / 1000000000 < t' / 1000000000) : ¬ Overtakes t t' := by
  rintro ⟨-, j, hj, hdvd, hlt⟩
  interval_cases j <;> omega

/-- The order of the texts of two times, whatever follows them. -/
lemma format_order (ht : InYears t) (ht' : InYears t') (h : t < t') (s s' : List Char) :
    (Overtakes t t' ∧
      (formatRFC3339Nano t').toList ++ s' < (formatRFC3339Nano t).toList ++ s) ∨
    (¬ Overtakes t t' ∧
      (formatRFC3339Nano t).toList ++ s < (formatRFC3339Nano t').toList ++ s') := by
  have htext : ∀ {u : ℤ} (l : List Char), InYears u → (formatRFC3339Nano u).toList ++ l =
      stampOf (u / 1000000000) ++ tailOf (u % 1000000000).toNat l := by
    intro u l hu
    rw [toList_format hu, tailOf, List.append_assoc, List.append_assoc]
    rfl
  rw [htext s ht, htext s' ht']
  rcases (Int.ediv_le_ediv (by decide) h.le : t / 1000000000 ≤ t' / 1000000000).lt_or_eq with
    hsec | hsec
  · refine .inr ⟨not_overtakes hsec, ?_⟩
    refine append_lt_append ?_ (stampOf_lt ht.seconds ht'.seconds hsec) _ _
    rw [stampOf, stampOf, length_stamp, length_stamp]
  · rw [overtakes_iff hsec, hsec]
    exact (tail_order (by omega) (by omega) s s').imp (And.imp_right (append_left_lt _))
      (And.imp_right (append_left_lt _))

end Orchestrator
