/-
# What the scheduler selects

`SelectNode` walks through the nodes, keeps those that pass four filters, and sorts them by their
scores.  Said without the walk: it returns the first node of least score among the eligible ones,
and an error exactly if there is none.  A node is eligible (`Eligible`) if it is ready, has room
for the request, its taints are tolerated, and its labels satisfy the affinities.

The room is a 64-bit difference.  The filter is the comparison it is meant to be for nodes whose
room is in the 64-bit range (`Node.RoomInRange`).
-/
import Mathlib.Order.Basic
import Mathlib.Order.Defs.Unbundled
import Orchestrator.Scheduler.Planner

namespace Orchestrator

open Lib

variable {req : Resource} {labels : StrMap} {tolerations : List Toleration} {n : Node}

/-! ### Eligible nodes -/

/-- The toleration is for the taint. -/
structure Toleration.Tolerates (tol : Toleration) (taint : Taint) : Prop where
  named : blank tol.key = false
  key : tol.key = taint.key
  effect : blank tol.effect = true ∨ tol.effect = taint.effect
  value : toLower (trimSpace tol.operator) = "exists" ∨ blank tol.value = true ∨
    tol.value = taint.value

/-- A node on which a workload may be placed. -/
structure Eligible (req : Resource) (labels : StrMap) (tolerations : List Toleration) (n : Node) :
    Prop where
  ready : n.status = .ready
  cpu : n.used.milliCPU.toInt + req.milliCPU.toInt ≤ n.allocatable.milliCPU.toInt
  memory : n.used.memoryMB.toInt + req.memoryMB.toInt ≤ n.allocatable.memoryMB.toInt
  tolerated : ∀ taint ∈ n.taints, ∃ tol ∈ tolerations, tol.Tolerates taint
  affinity : ∀ k v, ("affinity." ++ k, v) ∈ labels.rows → n.labels.lookup k = v
  antiAffinity : ∀ k v, ("anti-affinity." ++ k, v) ∈ labels.rows → n.labels.lookup k ≠ v

/-- The room on the node is a number of 64 bits. -/
structure Node.RoomInRange (n : Node) : Prop where
  cpu : -2 ^ 63 ≤ n.allocatable.milliCPU.toInt - n.used.milliCPU.toInt ∧
    n.allocatable.milliCPU.toInt - n.used.milliCPU.toInt < 2 ^ 63
  memory : -2 ^ 63 ≤ n.allocatable.memoryMB.toInt - n.used.memoryMB.toInt ∧
    n.allocatable.memoryMB.toInt - n.used.memoryMB.toInt < 2 ^ 63

/-- A difference that is in range is exact. -/
lemma le_sub_iff_add_le_toInt {r a u : Int64} (hlow : -2 ^ 63 ≤ a.toInt - u.toInt)
    (hhigh : a.toInt - u.toInt < 2 ^ 63) : r ≤ a - u ↔ u.toInt + r.toInt ≤ a.toInt := by
  have hsub : (a - u).toInt = a.toInt - u.toInt := by
    rw [Int64.toInt_sub]
    exact Int.bmod_eq_of_le (by omega) (by omega)
  rw [Int64.le_iff_toInt_le, hsub]
  omega

lemma fits_iff (h : n.RoomInRange) : fits n req = true ↔
    n.used.milliCPU.toInt + req.milliCPU.toInt ≤ n.allocatable.milliCPU.toInt ∧
      n.used.memoryMB.toInt + req.memoryMB.toInt ≤ n.allocatable.memoryMB.toInt := by
  rw [fits, Bool.and_eq_true, decide_eq_true_eq, decide_eq_true_eq,
    le_sub_iff_add_le_toInt h.cpu.1 h.cpu.2, le_sub_iff_add_le_toInt h.memory.1 h.memory.2]

lemma Toleration.covers_iff {tol : Toleration} {taint : Taint} :
    tol.covers taint = true ↔ tol.Tolerates taint := by
  simp only [Toleration.covers, Bool.and_eq_true, Bool.or_eq_true, Bool.not_eq_true',
    decide_eq_true_eq]
  constructor
  · rintro ⟨⟨⟨hnamed, hkey⟩, heffect⟩, hvalue⟩
    exact ⟨hnamed, hkey, heffect, or_assoc.mp hvalue⟩
  · rintro ⟨hnamed, hkey, heffect, hvalue⟩
    exact ⟨⟨⟨hnamed, hkey⟩, heffect⟩, or_assoc.mpr hvalue⟩

lemma toleratesNodeTaints_iff : toleratesNodeTaints n tolerations = true ↔
    ∀ taint ∈ n.taints, ∃ tol ∈ tolerations, tol.Tolerates taint := by
  simp only [toleratesNodeTaints, List.all_eq_true, List.any_eq_true, Toleration.covers_iff]

lemma trimPrefix_append (pfx s : String) : trimPrefix (pfx ++ s) pfx = s := by
  rw [trimPrefix, if_pos (hasPrefix_iff.mpr ⟨s, rfl⟩), String.toList_append, List.drop_left,
    String.ofList_toList]

/-- A loop over the labels with a prefix. -/
lemma all_labels_iff (pfx : String) (P : String → String → Bool) :
    (labels.rows.all fun (k, v) => !hasPrefix k pfx || P (trimPrefix k pfx) v) = true ↔
      ∀ k v, (pfx ++ k, v) ∈ labels.rows → P k v = true := by
  simp only [List.all_eq_true, Bool.or_eq_true, Bool.not_eq_true']
  constructor
  · intro h k v hkv
    rcases h _ hkv with hno | hP
    · rw [hasPrefix_iff.mpr ⟨k, rfl⟩] at hno
      cases hno
    · rwa [trimPrefix_append] at hP
  · rintro h ⟨k, v⟩ hkv
    cases hk : hasPrefix k pfx with
    | false => exact Or.inl rfl
    | true =>
      obtain ⟨k, rfl⟩ := hasPrefix_iff.mp hk
      exact Or.inr (by rw [trimPrefix_append]; exact h k v hkv)

lemma matchesAffinity_iff : matchesAffinity n labels = true ↔
    (∀ k v, ("affinity." ++ k, v) ∈ labels.rows → n.labels.lookup k = v) ∧
      ∀ k v, ("anti-affinity." ++ k, v) ∈ labels.rows → n.labels.lookup k ≠ v := by
  rw [matchesAffinity, Bool.and_eq_true, all_labels_iff "affinity." fun k v => n.labels.lookup k = v,
    all_labels_iff "anti-affinity." fun k v => n.labels.lookup k ≠ v]
  simp only [decide_eq_true_eq]

/-- The filters let exactly the eligible nodes pass. -/
lemma schedulable_iff (h : n.RoomInRange) :
    schedulable req labels tolerations n = true ↔ Eligible req labels tolerations n := by
  rw [schedulable, Bool.and_eq_true, Bool.and_eq_true, Bool.and_eq_true, decide_eq_true_eq,
    fits_iff h, toleratesNodeTaints_iff, matchesAffinity_iff]
  constructor
  · rintro ⟨⟨⟨hready, hcpu, hmem⟩, htaints⟩, haff, hanti⟩
    exact ⟨hready, hcpu, hmem, htaints, haff, hanti⟩
  · rintro ⟨hready, hcpu, hmem, htaints, haff, hanti⟩
    exact ⟨⟨⟨hready, hcpu, hmem⟩, htaints⟩, haff, hanti⟩

/-! ### Scores -/

section Scores

variable {S : Type} [Preorder S]

/-- `SelectNode` with scores of any type. -/
def selectBy [DecidableLT S] (score : Node → S) (nodes : List Node) (req : Resource) (labels : StrMap)
    (tolerations : List Toleration) : Option Node :=
  let candidates := (nodes.filter (schedulable req labels tolerations)).map fun n => (n, score n)
  (sortStable (fun a b => decide (a.2 < b.2)) candidates).head?.map Prod.fst

/-- The node is the first one in list order among those with the property `E` that have the least
score. -/
def FirstBest (E : Node → Prop) (score : Node → S) (nodes : List Node) (n : Node) : Prop :=
  ∃ pre post, nodes = pre ++ n :: post ∧ E n ∧ (∀ m ∈ pre, E m → score n < score m) ∧
    ∀ m ∈ post, E m → score n ≤ score m

variable {score : Node → S} {nodes : List Node}

lemma le_of_not_lt_of_total [Std.Total (· ≤ · : S → S → Prop)] {a b : S} (h : ¬ b < a) : a ≤ b := by
  rcases total_of (· ≤ ·) a b with hab | hba
  · exact hab
  · by_contra hab
    exact h (lt_of_le_not_ge hba hab)

lemma FirstBest.congr {E E' : Node → Prop} (h : ∀ m ∈ nodes, E m ↔ E' m)
    (hn : FirstBest E score nodes n) : FirstBest E' score nodes n := by
  obtain ⟨pre, post, rfl, hEn, hpre, hpost⟩ := hn
  refine ⟨pre, post, rfl, (h n (by simp)).mp hEn, fun m hm hE => ?_, fun m hm hE => ?_⟩
  · exact hpre m hm ((h m (by simp [hm])).mpr hE)
  · exact hpost m hm ((h m (by simp [hm])).mpr hE)

variable [DecidableLT S]

/-- Sorting by the scores puts the first among the best candidates in front. -/
lemma selectBy_eq_some_iff [Std.Total (· ≤ · : S → S → Prop)] :
    selectBy score nodes req labels tolerations = some n ↔
      FirstBest (fun m => schedulable req labels tolerations m = true) score nodes n := by
  set E := schedulable req labels tolerations with hE
  have hasymm : ∀ a b : Node × S, decide (a.2 < b.2) = true → decide (b.2 < a.2) = false := by
    intro a b hab
    simpa using lt_asymm (of_decide_eq_true hab)
  have htrans : ∀ a b c : Node × S, decide (b.2 < a.2) = false → decide (c.2 < b.2) = false →
      decide (c.2 < a.2) = false := by
    intro a b c hba hcb
    have hab := le_of_not_lt_of_total (of_decide_eq_false hba)
    have hbc := le_of_not_lt_of_total (of_decide_eq_false hcb)
    exact decide_eq_false (hab.trans hbc).not_gt
  have hhead : selectBy score nodes req labels tolerations = some n ↔
      FirstLeast (fun a b : Node × S => decide (a.2 < b.2))
        ((nodes.filter E).map fun m => (m, score m)) (n, score n) := by
    rw [selectBy, ← hE, Option.map_eq_some_iff]
    constructor
    · rintro ⟨⟨m, x⟩, hm, rfl⟩
      have hmem := List.mem_of_mem_head? hm
      rw [mem_sortStable, List.mem_map] at hmem
      obtain ⟨m', -, heq⟩ := hmem
      obtain ⟨rfl, rfl⟩ := Prod.mk.inj heq
      exact (head?_sortStable_eq_some_iff hasymm htrans).mp hm
    · intro h
      exact ⟨_, (head?_sortStable_eq_some_iff hasymm htrans).mpr h, rfl⟩
  rw [hhead]
  constructor
  · rintro ⟨cpre, cpost, heq, hpre, hpost⟩
    obtain ⟨l₁, l₂, hfilter, rfl, hl₂⟩ := List.map_eq_append_iff.mp heq
    obtain ⟨m, l₃, rfl, hm, rfl⟩ := List.map_eq_cons_iff.mp hl₂
    obtain ⟨rfl, -⟩ := Prod.mk.inj hm
    obtain ⟨n₁, n₂, rfl, rfl, hn₂⟩ := List.filter_eq_append_iff.mp hfilter
    obtain ⟨p₁, p₂, rfl, hp₁, hEm, rfl⟩ := List.filter_eq_cons_iff.mp hn₂
    refine ⟨n₁ ++ p₁, p₂, by simp, hEm, fun x hx hEx => ?_, fun x hx hEx => ?_⟩
    · rcases List.mem_append.mp hx with hx | hx
      · exact of_decide_eq_true (hpre (x, score x)
          (List.mem_map_of_mem (List.mem_filter.mpr ⟨hx, hEx⟩)))
      · exact absurd hEx (hp₁ x hx)
    · exact le_of_not_lt_of_total (of_decide_eq_false (hpost (x, score x)
        (List.mem_map_of_mem (List.mem_filter.mpr ⟨hx, hEx⟩))))
  · rintro ⟨pre, post, rfl, hEn, hpre, hpost⟩
    refine ⟨(pre.filter E).map fun m => (m, score m), (post.filter E).map fun m => (m, score m),
      ?_, ?_, ?_⟩
    · rw [List.filter_append, List.filter_cons_of_pos hEn, List.map_append, List.map_cons]
    · intro b hb
      obtain ⟨m, hm, rfl⟩ := List.mem_map.mp hb
      obtain ⟨hm, hEm⟩ := List.mem_filter.mp hm
      exact decide_eq_true (hpre m hm hEm)
    · intro b hb
      obtain ⟨m, hm, rfl⟩ := List.mem_map.mp hb
      obtain ⟨hm, hEm⟩ := List.mem_filter.mp hm
      exact decide_eq_false (hpost m hm hEm).not_gt

lemma selectBy_eq_none_iff : selectBy score nodes req labels tolerations = none ↔
    ∀ n ∈ nodes, schedulable req labels tolerations n ≠ true := by
  rw [selectBy, Option.map_eq_none_iff, List.head?_eq_none_iff, ← List.length_eq_zero_iff,
    length_sortStable, List.length_map, List.length_eq_zero_iff, List.filter_eq_nil_iff]

/-- **The selection is sound, complete and optimal**, for scores in any total preorder; that of a
planner is the case of its own scores. -/
theorem selectNode_first_best [Std.Total (· ≤ · : S → S → Prop)] (score : Node → S) (nodes : List Node)
    (req : Resource) (labels : StrMap) (tolerations : List Toleration)
    (hrange : ∀ n ∈ nodes, n.RoomInRange) :
    (selectBy score nodes req labels tolerations = none ↔
      ∀ n ∈ nodes, ¬ Eligible req labels tolerations n) ∧
    (∀ n, selectBy score nodes req labels tolerations = some n ↔
      FirstBest (Eligible req labels tolerations) score nodes n) ∧
    ∀ (fl : ℚ → ℚ) (p : Planner) (ext : Node → Resource → Option ℚ),
      p.selectNode fl ext nodes req labels tolerations =
        selectBy (fun n => p.scoreNode fl ext n req) nodes req labels tolerations := by
  have heligible : ∀ m ∈ nodes, schedulable req labels tolerations m = true ↔
      Eligible req labels tolerations m := fun m hm => schedulable_iff (hrange m hm)
  refine ⟨?_, fun n => ?_, fun fl p ext => rfl⟩
  · rw [selectBy_eq_none_iff]
    exact forall₂_congr fun m hm => not_congr (heligible m hm)
  · rw [selectBy_eq_some_iff]
    exact ⟨FirstBest.congr heligible, FirstBest.congr fun m hm => (heligible m hm).symm⟩

/-- Of three nodes, a tainted one, one with a forbidden label and a plain one, the plain one. -/
theorem selectNode_first_best_plain :
    let plain : Node := { id := "n3", allocatable := ⟨1000, 1000⟩ }
    let nodes : List Node := [
      { id := "n1", allocatable := ⟨1000, 1000⟩, taints := [⟨"gpu", "", "NoSchedule"⟩] },
      { id := "n2", allocatable := ⟨1000, 1000⟩, labels := Table.empty.put ("zone", "a") }, plain]
    FirstBest (Eligible ⟨100, 100⟩ (Table.empty.put ("anti-affinity.zone", "a")) [])
      (fun n => (newPlanner id "best-fit").scoreNode id (fun _ _ => none) n ⟨100, 100⟩)
      nodes plain := by
  intro plain nodes
  have hrange : ∀ n ∈ nodes, n.RoomInRange := by
    intro n hn
    simp only [nodes, List.mem_cons, List.not_mem_nil, or_false] at hn
    rcases hn with rfl | rfl | rfl <;> exact ⟨by decide, by decide⟩
  refine ((selectNode_first_best _ nodes ⟨100, 100⟩ _ [] hrange).2.1 plain).mp ?_
  decide +kernel

end Scores

end Orchestrator
