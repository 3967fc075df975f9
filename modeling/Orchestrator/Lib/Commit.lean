/-
# Commit logs

Threads that read one record and write it back.  `effect i r` is what thread `i` makes of the
record `r`.  If every write finds the record as the thread has read it, then the threads can
be ordered, the writers by their writes and the others by their reads, such that applying
their effects in this order gives the record.
-/
import Mathlib.Data.List.Nodup
import Mathlib.Data.List.Range
import Mathlib.Data.Nat.Notation

namespace Orchestrator.Lib

variable {R : Type} {effect : ℕ → R → R} {seen seen' : ℕ → Option R} {wrote wrote' : ℕ → Bool}
  {l l' : List ℕ} {r r₀ : R} {i : ℕ}

/-- The effects of the threads, one after another. -/
def serial (effect : ℕ → R → R) (l : List ℕ) (r : R) : R := l.foldl (fun r i => effect i r) r

/-- The record after the writes of the threads in the list. -/
def replay (effect : ℕ → R → R) (wrote : ℕ → Bool) : List ℕ → R → R
  | [], r => r
  | i :: l, r => replay effect wrote l (if wrote i then effect i r else r)

/-- A thread in the list that has not written has seen the record as the writes before it
leave it. -/
def Consistent (effect : ℕ → R → R) (seen : ℕ → Option R) (wrote : ℕ → Bool) :
    List ℕ → R → Prop
  | [], _ => True
  | i :: l, r => (wrote i = false → seen i = some r) ∧
      Consistent effect seen wrote l (if wrote i then effect i r else r)

lemma replay_append : replay effect wrote (l ++ l') r =
    replay effect wrote l' (replay effect wrote l r) := by
  induction l generalizing r with
  | nil => rfl
  | cons i l ih => exact ih

lemma Consistent.append (h : Consistent effect seen wrote l r)
    (h' : Consistent effect seen wrote l' (replay effect wrote l r)) :
    Consistent effect seen wrote (l ++ l') r := by
  induction l generalizing r with
  | nil => exact h'
  | cons i l ih => exact ⟨h.1, ih h.2 h'⟩

/-- Only what is known of the threads in the list matters. -/
lemma replay_congr (hw : ∀ i ∈ l, wrote' i = wrote i) :
    replay effect wrote' l r = replay effect wrote l r := by
  induction l generalizing r with
  | nil => rfl
  | cons i l ih =>
    rw [List.forall_mem_cons] at hw
    rw [replay, replay, hw.1, ih hw.2]

lemma Consistent.congr (h : Consistent effect seen wrote l r)
    (hw : ∀ i ∈ l, wrote' i = wrote i) (hs : ∀ i ∈ l, seen' i = seen i) :
    Consistent effect seen' wrote' l r := by
  induction l generalizing r with
  | nil => trivial
  | cons i l ih =>
    rw [List.forall_mem_cons] at hw hs
    rw [Consistent, hw.1, hs.1]
    exact ⟨h.1, ih h.2 hw.2 hs.2⟩

/-- A thread that has not written can be taken out. -/
lemma replay_erase (hi : wrote i = false) :
    replay effect wrote (l.erase i) r = replay effect wrote l r := by
  induction l generalizing r with
  | nil => rfl
  | cons j l ih =>
    rw [List.erase_cons]
    split
    · next hj =>
      obtain rfl : j = i := eq_of_beq hj
      rw [replay, hi, if_neg Bool.false_ne_true]
    · exact ih

lemma Consistent.erase (h : Consistent effect seen wrote l r) (hi : wrote i = false) :
    Consistent effect seen wrote (l.erase i) r := by
  induction l generalizing r with
  | nil => trivial
  | cons j l ih =>
    rw [List.erase_cons]
    split
    · next hj =>
      obtain rfl : j = i := eq_of_beq hj
      have hrest := h.2
      rwa [hi, if_neg Bool.false_ne_true] at hrest
    · exact ⟨h.1, ih h.2⟩

/-- The log lists the threads that have read the record, and the writes in it lead from `r₀`
to `r`. -/
structure Logged (effect : ℕ → R → R) (seen : ℕ → Option R) (wrote : ℕ → Bool) (r₀ r : R)
    (log : List ℕ) : Prop where
  nodup : log.Nodup
  mem : ∀ i, i ∈ log ↔ (seen i).isSome = true
  read : ∀ i, wrote i = true → (seen i).isSome = true
  replayed : replay effect wrote log r₀ = r
  consistent : Consistent effect seen wrote log r₀

namespace Logged

lemma init : Logged effect (fun _ => none) (fun _ => false) r r [] :=
  ⟨List.nodup_nil, fun _ => by simp, by rintro _ ⟨⟩, rfl, trivial⟩

/-- A thread reads the record. -/
lemma reading {log : List ℕ} (h : Logged effect seen wrote r₀ r log) (hi : seen i = none) :
    Logged effect (fun j => if j = i then some r else seen j) wrote r₀ r (log ++ [i]) := by
  have hmem : i ∉ log := fun hlog => by
    have := (h.mem i).mp hlog
    rw [hi] at this
    cases this
  have hwi : wrote i = false := by
    by_contra hw
    have := h.read i (by simpa using hw)
    rw [hi] at this
    cases this
  have hne : ∀ j ∈ log, j ≠ i := fun j hj hji => hmem (hji ▸ hj)
  refine ⟨?_, fun j => ?_, fun j hj => ?_, ?_, ?_⟩
  · exact List.Nodup.append h.nodup (List.nodup_singleton i) (by simpa using hmem)
  · by_cases hji : j = i
    · simp [hji]
    · simp [hji, h.mem j]
  · by_cases hji : j = i
    · simp [hji]
    · simpa [hji] using h.read j hj
  · rw [replay_append, h.replayed, replay, hwi, if_neg Bool.false_ne_true]
    rfl
  · refine (h.consistent.congr (fun _ _ => rfl) fun j hj => if_neg (hne j hj)).append ?_
    rw [h.replayed]
    exact ⟨fun _ => if_pos rfl, trivial⟩

/-- A thread writes the record that it has read, and that is still there. -/
lemma writing {log : List ℕ} (h : Logged effect seen wrote r₀ r log) (hi : seen i = some r)
    (hw : wrote i = false) :
    Logged effect seen (fun j => if j = i then true else wrote j) r₀ (effect i r)
      (log.erase i ++ [i]) := by
  have hmem : i ∈ log := (h.mem i).mpr (by rw [hi]; rfl)
  have hne : ∀ j ∈ log.erase i, j ≠ i := fun j hj => ((h.nodup.mem_erase_iff).mp hj).1
  have hsame : ∀ j ∈ log.erase i, (if j = i then true else wrote j) = wrote j :=
    fun j hj => if_neg (hne j hj)
  have hreplay : replay effect (fun j => if j = i then true else wrote j) (log.erase i) r₀ = r := by
    rw [replay_congr hsame, replay_erase hw, h.replayed]
  refine ⟨?_, fun j => ?_, fun j hj => ?_, ?_, ?_⟩
  · refine List.Nodup.append (h.nodup.erase i) (List.nodup_singleton i) ?_
    simpa using fun hi => (hne i hi) rfl
  · rw [← h.mem j, List.mem_append, h.nodup.mem_erase_iff, List.mem_singleton]
    by_cases hji : j = i
    · simp [hji, hmem]
    · simp [hji]
  · by_cases hji : j = i
    · rw [hji, hi]
      rfl
    · exact h.read j (by simpa [hji] using hj)
  · rw [replay_append, hreplay, replay, if_pos (if_pos rfl)]
    rfl
  · refine ((h.consistent.erase hw).congr hsame fun _ _ => rfl).append ?_
    rw [hreplay]
    exact ⟨fun hfalse => (by simp at hfalse), trivial⟩

end Logged

/-- If the threads that have not written would not have changed the record that they have
seen, the record is the one after all effects in the order of the log. -/
lemma Consistent.serial (h : Consistent effect seen wrote l r)
    (hidle : ∀ i ∈ l, wrote i = false → ∀ x, seen i = some x → effect i x = x) :
    serial effect l r = replay effect wrote l r := by
  induction l generalizing r with
  | nil => rfl
  | cons i l ih =>
    rw [List.forall_mem_cons] at hidle
    have hstep : effect i r = if wrote i then effect i r else r := by
      cases hw : wrote i with
      | true => rfl
      | false => exact hidle.1 hw r (h.1 hw)
    have hrest := ih h.2 hidle.2
    rw [← hstep] at hrest
    rw [replay, ← hstep]
    exact hrest

/-- Threads without an effect change nothing. -/
lemma serial_of_idle (h : ∀ i ∈ l, effect i r = r) : serial effect l r = r := by
  induction l with
  | nil => rfl
  | cons i l ih =>
    rw [List.forall_mem_cons] at h
    rw [serial, List.foldl_cons, h.1]
    exact ih h.2

/-- **The effects in some order** lead from `r₀` to `r`, if a thread that has not written has
no effect on the record that it has seen, or on any record if it has seen none. -/
theorem Logged.order {log : List ℕ} {N : ℕ} (h : Logged effect seen wrote r₀ r log)
    (hlt : ∀ i, (seen i).isSome = true → i < N)
    (hidle : ∀ i < N, wrote i = false → (∀ x, seen i = some x → effect i x = x) ∧
      (seen i = none → ∀ x, effect i x = x)) :
    ∃ order : List ℕ, order.Perm (List.range N) ∧ Lib.serial effect order r₀ = r := by
  have hmem : ∀ i ∈ log, i < N := fun i hi => hlt i ((h.mem i).mp hi)
  -- the threads that have not read the record come last
  let rest := (List.range N).filter (· ∉ log)
  have hrest : ∀ i, i ∈ rest ↔ i < N ∧ i ∉ log := fun i => by simp [rest]
  refine ⟨log ++ rest, (List.perm_ext_iff_of_nodup ?_ List.nodup_range).mpr fun i => ?_, ?_⟩
  · refine List.Nodup.append h.nodup (List.nodup_range.filter _) fun i hi hr => ?_
    exact ((hrest i).mp hr).2 hi
  · rw [List.mem_append, hrest, List.mem_range]
    constructor
    · rintro (hi | hi)
      · exact hmem i hi
      · exact hi.1
    · intro hi
      by_cases hlog : i ∈ log
      · exact .inl hlog
      · exact .inr ⟨hi, hlog⟩
  · have hwritten : Lib.serial effect log r₀ = r :=
      (h.consistent.serial fun i hi hw x hx => (hidle i (hmem i hi) hw).1 x hx).trans h.replayed
    rw [Lib.serial, List.foldl_append]
    change Lib.serial effect rest (Lib.serial effect log r₀) = r
    rw [hwritten]
    refine serial_of_idle fun i hi => ?_
    obtain ⟨hN, hlog⟩ := (hrest i).mp hi
    have hseen : seen i = none := by
      by_contra hsome
      exact hlog ((h.mem i).mpr (Option.isSome_iff_ne_none.mpr hsome))
    have hw : wrote i = false := by
      by_contra hw
      have := h.read i (by simpa using hw)
      rw [hseen] at this
      cases this
    exact (hidle i hN hw).2 hseen r

end Orchestrator.Lib
