/-
# Delimited texts

Lists in which a separator ends the first part, and the order of lists and strings that start
with the same text.
-/
import Mathlib.Data.String.Basic

namespace Orchestrator.Lib

variable {α : Type} {c : α} {a b x y : List α}

/-- Two lists that start with a separator-free part and the separator have the same first part
as soon as they agree. -/
lemma append_sep_inj (ha : c ∉ a) (hb : c ∉ b) (h : a ++ c :: x = b ++ c :: y) :
    a = b ∧ x = y := by
  -- otherwise the longer one of the two parts would contain the separator
  rcases List.append_eq_append_iff.mp h with ⟨d, rfl, hd⟩ | ⟨d, rfl, hd⟩
  · cases d with
    | nil => exact ⟨by simp, by simpa using hd⟩
    | cons e d =>
      obtain rfl : c = e := (List.cons.inj hd).1
      simp at hb
  · cases d with
    | nil => exact ⟨by simp, by simpa using hd.symm⟩
    | cons e d =>
      obtain rfl : c = e := (List.cons.inj hd).1
      simp at ha

/-- A text up to a separator that starts another one is a start of its part before the last
separator. -/
lemma prefix_of_append_sep (hy : c ∉ y) (h : a ++ c :: x = b ++ c :: y) : a <+: b := by
  rcases List.append_eq_append_iff.mp h with ⟨d, rfl, -⟩ | ⟨d, rfl, hd⟩
  · exact List.prefix_append a d
  · cases d with
    | nil => simp
    | cons e d =>
      have hmem : c ∈ y := by
        rw [(List.cons.inj hd).2]
        simp
      exact absurd hmem hy

lemma append_lt_append_left_iff {p s t : List Char} : p ++ s < p ++ t ↔ s < t := by
  refine ⟨fun h => ?_, List.append_left_lt⟩
  rcases lt_trichotomy s t with hlt | rfl | hgt
  · exact hlt
  · exact absurd h (lt_irrefl _)
  · exact absurd (h.trans (List.append_left_lt hgt)) (lt_irrefl _)

/-- Strings that start with the same text are ordered by what follows. -/
lemma string_append_lt_iff {p s t : String} : p ++ s < p ++ t ↔ s < t := by
  rw [String.lt_iff_toList_lt, String.lt_iff_toList_lt, String.toList_append, String.toList_append,
    append_lt_append_left_iff]

end Orchestrator.Lib
