/-
# Stable sorting by a comparison function

`sort.SliceStable` takes a strict comparison `less` and keeps elements in place that it
does not order.  For a comparison that is a strict weak order this is insertion sort by
"the second is not less than the first".
-/
import Mathlib.Data.List.Sort

namespace Orchestrator.Lib

variable {α : Type}

/-- The list sorted stably by `less`. -/
def sortStable (less : α → α → Bool) (l : List α) : List α :=
  l.insertionSort fun a b => less b a = false

lemma sortStable_perm (less : α → α → Bool) (l : List α) : (sortStable less l).Perm l :=
  List.perm_insertionSort _ l

@[simp] lemma mem_sortStable {less : α → α → Bool} {l : List α} {a : α} :
    a ∈ sortStable less l ↔ a ∈ l :=
  (sortStable_perm less l).mem_iff

@[simp] lemma length_sortStable (less : α → α → Bool) (l : List α) :
    (sortStable less l).length = l.length :=
  (sortStable_perm less l).length_eq

/-- Only the comparisons between elements of the list matter. -/
lemma sortStable_congr {less less' : α → α → Bool} {l : List α}
    (h : ∀ a ∈ l, ∀ b ∈ l, less a b = less' a b) : sortStable less l = sortStable less' l := by
  induction l with
  | nil => rfl
  | cons a l ih =>
    have hins : ∀ s : List α, (∀ b ∈ s, less b a = less' b a) →
        s.orderedInsert (fun a b => less b a = false) a =
          s.orderedInsert (fun a b => less' b a = false) a := by
      intro s hs
      induction s with
      | nil => rfl
      | cons b s ihs =>
        obtain ⟨hb, hs⟩ := List.forall_mem_cons.mp hs
        simp only [List.orderedInsert_cons, hb, ihs hs]
    have htail := ih fun b hb c hc => h b (List.mem_cons_of_mem _ hb) c (List.mem_cons_of_mem _ hc)
    rw [sortStable, sortStable, List.insertionSort_cons, List.insertionSort_cons,
      ← sortStable, ← sortStable, htail]
    exact hins _ fun b hb =>
      h b (List.mem_cons_of_mem _ (mem_sortStable.mp hb)) a List.mem_cons_self

/-! ### Strict weak orders -/

/-- The order of a sorted list: by `less`, and by `R` among elements that it does not order. -/
def Ranked (less : α → α → Bool) (R : α → α → Prop) (a b : α) : Prop :=
  less a b = true ∨ (less b a = false ∧ R a b)

section Ranked

variable {less : α → α → Bool} {R : α → α → Prop}
  (hasymm : ∀ a b, less a b = true → less b a = false)
  (htrans : ∀ a b c, less b a = false → less c b = false → less c a = false)

include hasymm

lemma Ranked.not_less {a b : α} (h : Ranked less R a b) : less b a = false :=
  h.elim (hasymm a b) And.left

lemma Ranked.asymm (hR : ∀ a b, R a b → ¬ R b a) {a b : α} (h : Ranked less R a b) :
    ¬ Ranked less R b a := by
  rintro (hba | ⟨hnot, hba⟩)
  · rw [h.not_less hasymm] at hba
    cases hba
  · rcases h with hab | ⟨-, hab⟩
    · rw [hnot] at hab
      cases hab
    · exact hR a b hab hba

include htrans

/-- **Stability**: a list that is ordered by `R` is, after sorting, ordered by `less` with `R`
deciding between elements that `less` does not order. -/
lemma ranked_sortStable {l : List α} (hl : l.Pairwise R) :
    (sortStable less l).Pairwise (Ranked less R) := by
  induction l with
  | nil => exact List.Pairwise.nil
  | cons a l ih =>
    obtain ⟨ha, hl⟩ := List.pairwise_cons.mp hl
    have hins : ∀ s : List α, s.Pairwise (Ranked less R) → (∀ b ∈ s, R a b) →
        (s.orderedInsert (fun a b => less b a = false) a).Pairwise (Ranked less R) := by
      intro s hs hR
      induction s with
      | nil => exact List.pairwise_singleton _ _
      | cons b s ihs =>
        obtain ⟨hb, hs'⟩ := List.pairwise_cons.mp hs
        rw [List.orderedInsert_cons]
        split_ifs with hab
        · refine List.pairwise_cons.mpr ⟨?_, hs⟩
          intro c hc
          refine Or.inr ⟨?_, hR c hc⟩
          rcases List.mem_cons.mp hc with rfl | hc
          · exact hab
          · exact htrans a b c hab ((hb c hc).not_less hasymm)
        · refine List.pairwise_cons.mpr ⟨?_, ihs hs' fun c hc => hR c (List.mem_cons_of_mem _ hc)⟩
          intro c hc
          rcases List.mem_cons.mp ((List.perm_orderedInsert _ a s).mem_iff.mp hc) with rfl | hc
          · exact Or.inl (by simpa using hab)
          · exact hb c hc
    exact hins _ (ih hl) fun b hb => ha b (mem_sortStable.mp hb)

/-- The first element of a sorted list that passes a test ranks before all others that do. -/
lemma ranked_of_findSome? {β : Type} {l : List α} (hl : l.Pairwise R) {f : α → Option β} {b : β}
    (h : (sortStable less l).findSome? f = some b) :
    ∃ a ∈ l, f a = some b ∧ ∀ c ∈ l, (f c).isSome → c = a ∨ Ranked less R a c := by
  obtain ⟨pre, a, post, heq, ha, hpre⟩ := List.findSome?_eq_some_iff.mp h
  have hsorted := ranked_sortStable hasymm htrans hl
  rw [heq, List.pairwise_append, List.pairwise_cons] at hsorted
  have hmem : ∀ c, c ∈ l ↔ c ∈ pre ++ a :: post := fun c => by
    rw [← heq, mem_sortStable]
  refine ⟨a, (hmem a).mpr (by simp), ha, ?_⟩
  intro c hc hfc
  rcases List.mem_append.mp ((hmem c).mp hc) with hc | hc
  · rw [hpre c hc] at hfc
    cases hfc
  · rcases List.mem_cons.mp hc with rfl | hc
    · exact Or.inl rfl
    · exact Or.inr (hsorted.2.1.1 c hc)

end Ranked

/-! ### Sorting by a key -/

section Key

variable {κ : Type} [LinearOrder κ] (key : α → κ) {l l' : List α}

lemma ranked_sortStable_key {R : α → α → Prop} (hl : l.Pairwise R) :
    (sortStable (fun a b => decide (key a < key b)) l).Pairwise
      (Ranked (fun a b => decide (key a < key b)) R) := by
  refine ranked_sortStable (fun a b h => ?_) (fun a b c hba hcb => ?_) hl
  · exact decide_eq_false (lt_asymm (of_decide_eq_true h))
  · simp only [decide_eq_false_iff_not, not_lt] at hba hcb ⊢
    exact hba.trans hcb

/-- Elements with keys of their own are in the order of their keys after sorting. -/
lemma pairwise_sortStable_key (hkeys : (l.map key).Nodup) :
    (sortStable (fun a b => decide (key a < key b)) l).Pairwise fun a b => key a < key b := by
  refine (ranked_sortStable_key key (List.pairwise_map.mp hkeys)).imp ?_
  rintro a b (hlt | ⟨hnot, hne⟩)
  · exact of_decide_eq_true hlt
  · exact lt_of_le_of_ne (not_lt.mp (of_decide_eq_false hnot)) hne

/-- The order in which such elements are given does not matter. -/
lemma sortStable_key_congr (hperm : l.Perm l') (hkeys : (l.map key).Nodup) :
    sortStable (fun a b => decide (key a < key b)) l =
      sortStable (fun a b => decide (key a < key b)) l' := by
  have hperm' := ((sortStable_perm (fun a b => decide (key a < key b)) l).trans hperm).trans
    (sortStable_perm (fun a b => decide (key a < key b)) l').symm
  refine hperm'.eq_of_pairwise (fun a b _ _ hab hba => absurd hba (lt_asymm hab))
    (pairwise_sortStable_key key hkeys) (pairwise_sortStable_key key ?_)
  exact (hperm.map key).nodup_iff.mp hkeys

/-- What is taken from the front of a list that is sorted by its keys has no larger key than what
is left. -/
lemma key_le_of_mem_take {less : α → α → Bool} {n : ℕ} {a b : α}
    (hless : ∀ a ∈ l, ∀ b ∈ l, less a b = decide (key a < key b))
    (ha : a ∈ (sortStable less l).take n) (hb : b ∈ l) (hrest : b ∉ (sortStable less l).take n) :
    key a ≤ key b := by
  rw [sortStable_congr hless] at ha hrest
  have hsorted := ranked_sortStable_key key (List.pairwise_of_forall fun _ _ => trivial :
    l.Pairwise fun _ _ => True)
  rw [← List.take_append_drop n (sortStable _ l), List.pairwise_append] at hsorted
  have hdrop : b ∈ sortStable (fun a b => decide (key a < key b)) l := mem_sortStable.mpr hb
  rw [← List.take_append_drop n (sortStable _ l), List.mem_append] at hdrop
  rcases hsorted.2.2 a ha b (hdrop.resolve_left hrest) with hlt | ⟨hle, -⟩
  · exact (of_decide_eq_true hlt).le
  · exact not_lt.mp (of_decide_eq_false hle)

/-- The first element that passes a test has the least key among those that do. -/
lemma key_le_of_find? {less : α → α → Bool} {p : α → Bool} {a b : α}
    (hless : ∀ a ∈ l, ∀ b ∈ l, less a b = decide (key a < key b))
    (h : (sortStable less l).find? p = some a) (hb : b ∈ l) (hp : p b = true) :
    key a ≤ key b := by
  rw [sortStable_congr hless] at h
  obtain ⟨-, pre, post, heq, hpre⟩ := List.find?_eq_some_iff_append.mp h
  have hsorted := ranked_sortStable_key key (List.pairwise_of_forall fun _ _ => trivial :
    l.Pairwise fun _ _ => True)
  have hmem : b ∈ sortStable (fun a b => decide (key a < key b)) l := mem_sortStable.mpr hb
  rw [heq, List.pairwise_append, List.pairwise_cons] at hsorted
  rw [heq, List.mem_append, List.mem_cons] at hmem
  rcases hmem with hmem | rfl | hmem
  · have hnot := hpre b hmem
    rw [hp] at hnot
    cases hnot
  · exact le_rfl
  · exact (hsorted.2.1.1 b hmem).elim (fun h => (of_decide_eq_true h).le)
      fun h => not_lt.mp (of_decide_eq_false h.1)

end Key

/-! ### The head of a sorted list -/

/-- The first among the least elements of a list: it is less than what stands before it, and
nothing behind it is less. -/
def FirstLeast (less : α → α → Bool) (l : List α) (a : α) : Prop :=
  ∃ pre post, l = pre ++ a :: post ∧ (∀ b ∈ pre, less a b = true) ∧ ∀ b ∈ post, less b a = false

section FirstLeast

variable {less : α → α → Bool} {l : List α} {a b x : α}

lemma FirstLeast.unique (ha : FirstLeast less l a) (hb : FirstLeast less l b) : a = b := by
  obtain ⟨pre, post, rfl, hpre, hpost⟩ := ha
  obtain ⟨pre', post', heq, hpre', hpost'⟩ := hb
  rcases List.append_eq_append_iff.mp heq with ⟨t, rfl, ht⟩ | ⟨t, rfl, ht⟩
  · cases t with
    | nil => exact (List.cons.inj ht).1
    | cons y t =>
      -- `b` stands behind `a`
      obtain ⟨rfl, rfl⟩ := List.cons.inj ht
      have hlt := hpre' a (by simp)
      rw [hpost b (by simp)] at hlt
      cases hlt
  · cases t with
    | nil => exact (List.cons.inj ht).1.symm
    | cons y t =>
      obtain ⟨rfl, rfl⟩ := List.cons.inj ht
      have hlt := hpre b (by simp)
      rw [hpost' a (by simp)] at hlt
      cases hlt

lemma FirstLeast.cons (h : FirstLeast less l a) (hx : less a x = true) :
    FirstLeast less (x :: l) a := by
  obtain ⟨pre, post, rfl, hpre, hpost⟩ := h
  exact ⟨x :: pre, post, rfl, List.forall_mem_cons.mpr ⟨hx, hpre⟩, hpost⟩

lemma head?_sortStable_cons : (sortStable less (x :: l)).head? =
    some (match (sortStable less l).head? with
      | none => x
      | some b => if less b x = false then x else b) := by
  rw [sortStable, List.insertionSort_cons, ← sortStable]
  cases sortStable less l with
  | nil => rfl
  | cons b s =>
    rw [List.orderedInsert_cons, List.head?_cons]
    dsimp only
    split_ifs <;> rfl

variable (hasymm : ∀ a b, less a b = true → less b a = false)
  (htrans : ∀ a b c, less b a = false → less c b = false → less c a = false)

include hasymm in
/-- Nothing is less than the first among the least elements. -/
lemma FirstLeast.not_less (h : FirstLeast less l a) {c : α} (hc : c ∈ l) : less c a = false := by
  obtain ⟨pre, post, rfl, hpre, hpost⟩ := h
  rcases List.mem_append.mp hc with hc | hc
  · exact hasymm a c (hpre c hc)
  rcases List.mem_cons.mp hc with rfl | hc
  · by_contra h
    rw [Bool.not_eq_false] at h
    exact absurd (hasymm c c h) (by rw [h]; decide)
  · exact hpost c hc

include hasymm htrans in
lemma firstLeast_of_head? (h : (sortStable less l).head? = some a) : FirstLeast less l a := by
  induction l generalizing a with
  | nil => cases h
  | cons x l ih =>
    rw [head?_sortStable_cons, Option.some.injEq] at h
    cases hl : (sortStable less l).head? with
    | none =>
      obtain rfl : l = [] := by
        rw [List.head?_eq_none_iff] at hl
        simpa [hl] using (length_sortStable less l).symm
      rw [hl] at h
      exact ⟨[], [], by rw [← h]; rfl, by simp, by simp⟩
    | some b =>
      have hb := ih hl
      rw [hl] at h
      dsimp only at h
      split_ifs at h with hbx
      · subst h
        exact ⟨[], l, rfl, by simp, fun c hc => htrans x b c hbx (hb.not_less hasymm hc)⟩
      · subst h
        exact hb.cons (by simpa using hbx)

include hasymm htrans in
/-- **A stable sort puts the first among the least elements in front.** -/
lemma head?_sortStable_eq_some_iff : (sortStable less l).head? = some a ↔ FirstLeast less l a := by
  refine ⟨firstLeast_of_head? hasymm htrans, fun h => ?_⟩
  cases hl : (sortStable less l).head? with
  | none =>
    obtain ⟨pre, post, rfl, -⟩ := h
    have hlen := length_sortStable less (pre ++ a :: post)
    rw [List.head?_eq_none_iff.mp hl] at hlen
    simp at hlen
  | some b => rw [(firstLeast_of_head? hasymm htrans hl).unique h]

end FirstLeast

/-! ### Classes

A comparison that puts the elements of a class before all others sorts them to the front,
whatever it does otherwise: it need not be transitive. -/

/-- The elements of the class `p` come first. -/
def ClassFirst (p : α → Bool) (l : List α) : Prop := l.Pairwise fun a b => p b = true → p a = true

section ClassFirst

variable {p : α → Bool} {less : α → α → Bool}

lemma ClassFirst.orderedInsert {a : α} {l : List α} (hl : ClassFirst p l)
    (hfirst : ∀ b ∈ l, p a = true → p b = false → less b a = false)
    (hlast : ∀ b ∈ l, p a = false → p b = true → less b a = true) :
    ClassFirst p (l.orderedInsert (fun a b => less b a = false) a) := by
  induction l with
  | nil => exact List.pairwise_singleton _ _
  | cons b l ih =>
    obtain ⟨hb, hl'⟩ := List.pairwise_cons.mp hl
    rw [List.orderedInsert_cons]
    split_ifs with h
    · refine List.pairwise_cons.mpr ⟨?_, hl⟩
      intro c hc hpc
      -- the class comes first, so `b` is in it too, and `a` would have gone behind it
      have hpb : p b = true := by
        rcases List.mem_cons.mp hc with rfl | hc
        · exact hpc
        · exact hb c hc hpc
      by_contra hpa
      rw [hlast b List.mem_cons_self (Bool.eq_false_iff.mpr hpa) hpb] at h
      cases h
    · refine List.pairwise_cons.mpr ⟨?_, ih hl' (fun c hc => hfirst c (List.mem_cons_of_mem _ hc))
        fun c hc => hlast c (List.mem_cons_of_mem _ hc)⟩
      intro c hc hpc
      rcases List.mem_cons.mp ((List.perm_orderedInsert _ a l).mem_iff.mp hc) with rfl | hc
      · by_contra hpb
        exact h (hfirst b List.mem_cons_self hpc (Bool.eq_false_iff.mpr hpb))
      · exact hb c hc hpc

/-- Sorting by such a comparison puts the class first. -/
lemma classFirst_sortStable {l : List α}
    (hfirst : ∀ a ∈ l, ∀ b ∈ l, p a = true → p b = false → less b a = false)
    (hlast : ∀ a ∈ l, ∀ b ∈ l, p a = false → p b = true → less b a = true) :
    ClassFirst p (sortStable less l) := by
  induction l with
  | nil => exact List.Pairwise.nil
  | cons a l ih =>
    have hmem : ∀ b ∈ sortStable less l, b ∈ a :: l := fun b hb =>
      List.mem_cons_of_mem _ (mem_sortStable.mp hb)
    refine ClassFirst.orderedInsert ?_ ?_ ?_
    · exact ih (fun b hb c hc => hfirst b (List.mem_cons_of_mem _ hb) c (List.mem_cons_of_mem _ hc))
        fun b hb c hc => hlast b (List.mem_cons_of_mem _ hb) c (List.mem_cons_of_mem _ hc)
    · exact fun b hb => hfirst a List.mem_cons_self b (hmem b hb)
    · exact fun b hb => hlast a List.mem_cons_self b (hmem b hb)

/-- Taking from the front takes from the class as long as it lasts. -/
lemma ClassFirst.countP_take {l : List α} (hl : ClassFirst p l) (n : ℕ) :
    (l.take n).countP p = min n (l.countP p) := by
  induction l generalizing n with
  | nil => simp
  | cons a l ih =>
    obtain ⟨ha, hl'⟩ := List.pairwise_cons.mp hl
    cases n with
    | zero => simp
    | succ n =>
      rw [List.take_succ_cons, List.countP_cons, List.countP_cons, ih hl']
      by_cases hpa : p a = true
      · rw [if_pos hpa]
        omega
      · have hnone : l.countP p = 0 := List.countP_eq_zero.mpr fun b hb hpb => hpa (ha b hb hpb)
        rw [if_neg hpa, hnone]
        omega

end ClassFirst

end Orchestrator.Lib
