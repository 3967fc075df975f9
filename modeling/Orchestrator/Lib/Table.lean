/-
# Tables of records in key order

A table is a list of records sorted strictly by a key that is a function of the
record.  This is the view of an ordered key-value store in which every record is
stored under a key computed from itself: a record cannot be stored under the key of
another one, a key holds at most one record, and a listing comes in key order.

The file provides the point operations (`get`, `put`, `del`), the bulk deletion
`delWhere`, and the laws by which they are used: the lookups after an update, and the
permutation form of an update, from which sums and counts over a table follow.
-/
import Mathlib.Data.String.Basic
import Mathlib.Data.List.Nodup
import Mathlib.Data.List.Perm.Basic
import Mathlib.Algebra.BigOperators.Group.List.Basic
import Mathlib.Data.Multiset.Basic

namespace Orchestrator.Lib

/-- Records of type `V` sorted strictly by `key`. -/
@[ext] structure Table {K : Type} [LinearOrder K] (V : Type) (key : V → K) where
  /-- The records, in key order. -/
  rows : List V
  /-- The keys increase strictly. -/
  sorted : rows.Pairwise (fun a b => key a < key b)

namespace Table

variable {K V : Type} [LinearOrder K] {key : V → K} {l : List V} {v y : V} {k : K} {p : V → Bool}

/-! ### Operations -/

/-- Insert a record in key order, replacing the record that holds its key. -/
def putRows (key : V → K) (v : V) : List V → List V
  | [] => [v]
  | x :: xs =>
      if key v < key x then v :: x :: xs
      else if key x < key v then x :: putRows key v xs
      else v :: xs

lemma mem_putRows (h : y ∈ putRows key v l) : y = v ∨ y ∈ l := by
  induction l with
  | nil => simpa [putRows] using h
  | cons x xs ih =>
    rw [putRows] at h
    split_ifs at h with h1 h2
    · simpa using h
    · rcases List.mem_cons.mp h with rfl | h
      · simp
      · rcases ih h with rfl | h <;> simp_all
    · rcases List.mem_cons.mp h with rfl | h <;> simp_all

lemma sorted_putRows (v : V) (hl : l.Pairwise (fun a b => key a < key b)) :
    (putRows key v l).Pairwise (fun a b => key a < key b) := by
  induction l with
  | nil => simp [putRows]
  | cons x xs ih =>
    obtain ⟨hx, hxs⟩ := List.pairwise_cons.mp hl
    rw [putRows]
    split_ifs with h1 h2
    · refine List.pairwise_cons.mpr ⟨?_, hl⟩
      intro y hy
      rcases List.mem_cons.mp hy with rfl | hy
      · exact h1
      · exact h1.trans (hx y hy)
    · refine List.pairwise_cons.mpr ⟨?_, ih hxs⟩
      intro y hy
      rcases mem_putRows hy with rfl | hy
      · exact h2
      · exact hx y hy
    · have heq : key v = key x := le_antisymm (not_lt.mp h2) (not_lt.mp h1)
      refine List.pairwise_cons.mpr ⟨?_, hxs⟩
      intro y hy
      rw [heq]
      exact hx y hy

/-- The table without records. -/
def empty : Table V key := ⟨[], List.Pairwise.nil⟩

instance : Inhabited (Table V key) := ⟨empty⟩

/-- The record stored under a key. -/
def get (t : Table V key) (k : K) : Option V := t.rows.find? (fun v => decide (key v = k))

/-- Store a record under its key. -/
def put (t : Table V key) (v : V) : Table V key :=
  ⟨putRows key v t.rows, sorted_putRows v t.sorted⟩

/-- Remove the records that satisfy `p`. -/
def delWhere (t : Table V key) (p : V → Bool) : Table V key :=
  ⟨t.rows.filter (fun v => !p v), t.sorted.filter _⟩

/-- Remove the record stored under a key. -/
def del (t : Table V key) (k : K) : Table V key := t.delWhere (fun v => decide (key v = k))

/-- The table with the records of a list, later records replacing earlier ones. -/
def ofList (l : List V) : Table V key := l.foldl put empty

/-! ### Lookups -/

@[simp] lemma rows_empty : (empty : Table V key).rows = [] := rfl

@[simp] lemma get_empty (k : K) : (empty : Table V key).get k = none := rfl

variable {t : Table V key}

lemma key_of_get (h : t.get k = some v) : key v = k := by
  simpa using List.find?_some h

lemma mem_of_get (h : t.get k = some v) : v ∈ t.rows :=
  List.mem_of_find?_eq_some h

lemma nodup_keys (t : Table V key) : (t.rows.map key).Nodup := by
  rw [List.nodup_iff_pairwise_ne, List.pairwise_map]
  exact t.sorted.imp fun h => h.ne

lemma nodup_rows (t : Table V key) : t.rows.Nodup :=
  List.Nodup.of_map key t.nodup_keys

lemma eq_of_mem_of_key_eq {v' : V} (h : v ∈ t.rows) (h' : v' ∈ t.rows)
    (hk : key v = key v') : v = v' :=
  List.inj_on_of_nodup_map t.nodup_keys h h' hk

lemma get_of_mem (h : v ∈ t.rows) : t.get (key v) = some v := by
  have hsome : (t.rows.find? (fun x => decide (key x = key v))).isSome := by
    rw [List.find?_isSome]
    exact ⟨v, h, by simp⟩
  obtain ⟨x, hx⟩ := Option.isSome_iff_exists.mp hsome
  have hxv : x = v := eq_of_mem_of_key_eq (mem_of_get hx) h (key_of_get hx)
  rw [← hxv] at hx ⊢
  exact hx

lemma mem_rows_iff : v ∈ t.rows ↔ t.get (key v) = some v :=
  ⟨get_of_mem, mem_of_get⟩

lemma get_eq_some_iff :
    t.get k = some v ↔ v ∈ t.rows ∧ key v = k := by
  constructor
  · intro h
    exact ⟨mem_of_get h, key_of_get h⟩
  · rintro ⟨h, rfl⟩
    exact get_of_mem h

lemma get_eq_none_iff :
    t.get k = none ↔ ∀ v ∈ t.rows, key v ≠ k := by
  simp [get]

lemma mem_putRows_iff (hl : l.Pairwise (fun a b => key a < key b)) :
    y ∈ putRows key v l ↔ y = v ∨ (y ∈ l ∧ key y ≠ key v) := by
  induction l with
  | nil => simp [putRows]
  | cons x xs ih =>
    obtain ⟨hx, hxs⟩ := List.pairwise_cons.mp hl
    rw [putRows]
    split_ifs with h1 h2
    · -- every stored key is above the new one
      have hne : ∀ z ∈ x :: xs, key z ≠ key v := by
        intro z hz
        rcases List.mem_cons.mp hz with rfl | hz
        · exact h1.ne'
        · exact (h1.trans (hx z hz)).ne'
      constructor
      · intro h
        rcases List.mem_cons.mp h with rfl | h
        · exact Or.inl rfl
        · exact Or.inr ⟨h, hne y h⟩
      · rintro (rfl | ⟨h, -⟩)
        · simp
        · exact List.mem_cons_of_mem _ h
    · rw [List.mem_cons, ih hxs, List.mem_cons]
      constructor
      · rintro (rfl | rfl | ⟨h, hk⟩)
        · exact Or.inr ⟨Or.inl rfl, h2.ne⟩
        · exact Or.inl rfl
        · exact Or.inr ⟨Or.inr h, hk⟩
      · rintro (rfl | ⟨rfl | h, hk⟩)
        · exact Or.inr (Or.inl rfl)
        · exact Or.inl rfl
        · exact Or.inr (Or.inr ⟨h, hk⟩)
    · -- the record under the same key is replaced
      have heq : key v = key x := le_antisymm (not_lt.mp h2) (not_lt.mp h1)
      rw [List.mem_cons, List.mem_cons]
      constructor
      · rintro (rfl | h)
        · exact Or.inl rfl
        · exact Or.inr ⟨Or.inr h, by rw [heq]; exact (hx y h).ne'⟩
      · rintro (rfl | ⟨rfl | h, hk⟩)
        · exact Or.inl rfl
        · exact absurd heq.symm hk
        · exact Or.inr h

lemma mem_rows_put :
    y ∈ (t.put v).rows ↔ y = v ∨ (y ∈ t.rows ∧ key y ≠ key v) :=
  mem_putRows_iff t.sorted

@[simp] lemma get_put_self (t : Table V key) (v : V) : (t.put v).get (key v) = some v :=
  get_of_mem (mem_rows_put.mpr (Or.inl rfl))

lemma get_put_of_ne (t : Table V key) (h : k ≠ key v) :
    (t.put v).get k = t.get k := by
  apply Option.ext
  intro y
  rw [get_eq_some_iff, get_eq_some_iff, mem_rows_put]
  constructor
  · rintro ⟨rfl | ⟨hy, -⟩, hk⟩
    · exact absurd hk.symm h
    · exact ⟨hy, hk⟩
  · rintro ⟨hy, rfl⟩
    exact ⟨Or.inr ⟨hy, h⟩, rfl⟩

lemma get_put (t : Table V key) (v : V) (k : K) :
    (t.put v).get k = if k = key v then some v else t.get k := by
  split_ifs with h
  · subst h; simp
  · exact t.get_put_of_ne h

@[simp] lemma rows_delWhere (t : Table V key) (p : V → Bool) :
    (t.delWhere p).rows = t.rows.filter (fun v => !p v) := rfl

lemma mem_rows_delWhere :
    v ∈ (t.delWhere p).rows ↔ v ∈ t.rows ∧ p v = false := by
  simp

lemma mem_rows_del :
    v ∈ (t.del k).rows ↔ v ∈ t.rows ∧ key v ≠ k := by
  simp [del]

@[simp] lemma get_del_self (t : Table V key) (k : K) : (t.del k).get k = none := by
  rw [get_eq_none_iff]
  intro v hv
  exact (mem_rows_del.mp hv).2

lemma get_del_of_ne (t : Table V key) {k' : K} (h : k' ≠ k) : (t.del k).get k' = t.get k' := by
  apply Option.ext
  intro y
  rw [get_eq_some_iff, get_eq_some_iff, mem_rows_del]
  constructor
  · rintro ⟨⟨hy, -⟩, hk⟩
    exact ⟨hy, hk⟩
  · rintro ⟨hy, rfl⟩
    exact ⟨⟨hy, h⟩, rfl⟩

lemma get_del (t : Table V key) (k k' : K) :
    (t.del k).get k' = if k' = k then none else t.get k' := by
  split_ifs with h
  · subst h; simp
  · exact t.get_del_of_ne h

/-! ### Extensionality -/

/-- Two sorted lists with the same members are equal. -/
lemma rows_eq_of_mem_iff {l' : List V} (hl : l.Pairwise (fun a b => key a < key b))
    (hl' : l'.Pairwise (fun a b => key a < key b)) (h : ∀ v, v ∈ l ↔ v ∈ l') : l = l' := by
  have hnd : l.Nodup := hl.imp fun hab heq => hab.ne (by rw [heq])
  have hnd' : l'.Nodup := hl'.imp fun hab heq => hab.ne (by rw [heq])
  have hperm : l.Perm l' := (List.perm_ext_iff_of_nodup hnd hnd').mpr h
  exact hperm.eq_of_pairwise (fun a b _ _ hab hba => absurd (hab.trans hba) (lt_irrefl _)) hl hl'

lemma ext_mem {t' : Table V key} (h : ∀ v, v ∈ t.rows ↔ v ∈ t'.rows) : t = t' :=
  Table.ext (rows_eq_of_mem_iff t.sorted t'.sorted h)

lemma ext_get {t' : Table V key} (h : ∀ k, t.get k = t'.get k) : t = t' := by
  apply ext_mem
  intro v
  rw [mem_rows_iff, mem_rows_iff, h]

/-! Records that are stored one after another: of those with the same key, the last one stays. -/

lemma mem_of_mem_foldl_put
    (h : v ∈ (l.foldl put t).rows) : v ∈ l ∨ (v ∈ t.rows ∧ key v ∉ l.map key) := by
  induction l generalizing t with
  | nil => exact .inr ⟨h, List.not_mem_nil⟩
  | cons x l ih =>
    rcases ih h with hl | ⟨hput, hkey⟩
    · exact .inl (List.mem_cons_of_mem _ hl)
    · rcases mem_rows_put.mp hput with rfl | ⟨ht, hne⟩
      · exact .inl List.mem_cons_self
      · exact .inr ⟨ht, by simpa [hne] using hkey⟩

lemma mem_foldl_put_of_mem (h : v ∈ t.rows)
    (hkey : key v ∉ l.map key) : v ∈ (l.foldl put t).rows := by
  induction l generalizing t with
  | nil => exact h
  | cons x l ih =>
    rw [List.map_cons, List.mem_cons, not_or] at hkey
    exact ih (mem_rows_put.mpr (.inr ⟨h, hkey.1⟩)) hkey.2

/-- Under the key of each of them there is a record. -/
lemma exists_mem_foldl_put (h : v ∈ l) :
    ∃ v' ∈ (l.foldl put t).rows, key v' = key v := by
  induction l generalizing t v with
  | nil => cases h
  | cons x l ih =>
    by_cases hkey : key v ∈ l.map key
    · obtain ⟨u, hu, huv⟩ := List.mem_map.mp hkey
      obtain ⟨v', hv', hkey'⟩ := ih (t := t.put x) hu
      exact ⟨v', hv', hkey'.trans huv⟩
    · rcases List.mem_cons.mp h with rfl | h
      · have hv : v ∈ (t.put v).rows := mem_rows_put.mpr (.inl rfl)
        exact ⟨v, mem_foldl_put_of_mem (t := t.put v) hv hkey, rfl⟩
      · exact absurd (List.mem_map_of_mem h) hkey

lemma mem_foldl_put_of_nodup (hl : (l.map key).Nodup)
    (h : v ∈ l) : v ∈ (l.foldl put t).rows := by
  induction l generalizing t with
  | nil => cases h
  | cons x l ih =>
    rw [List.map_cons, List.nodup_cons] at hl
    rcases List.mem_cons.mp h with rfl | h
    · have hv : v ∈ (t.put v).rows := mem_rows_put.mpr (.inl rfl)
      exact mem_foldl_put_of_mem (t := t.put v) hv hl.1
    · exact ih hl.2 h

lemma del_of_get_none (h : t.get k = none) : t.del k = t := by
  apply ext_get
  intro k'
  rw [get_del]
  split_ifs with hk
  · rw [hk, h]
  · rfl

lemma put_put (t : Table V key) {v' : V} (h : key v = key v') : (t.put v).put v' = t.put v' := by
  apply ext_get
  intro k
  simp only [get_put, h]
  split_ifs <;> rfl

lemma delWhere_of_forall_false (h : ∀ v ∈ t.rows, p v = false) :
    t.delWhere p = t := by
  apply ext_mem
  intro v
  rw [mem_rows_delWhere]
  exact ⟨fun hv => hv.1, fun hv => ⟨hv, h v hv⟩⟩

/-! ### Updates row by row -/

/-- A change of the records that keeps their keys. -/
def mapRows (t : Table V key) (g : V → V) (hg : ∀ v, key (g v) = key v) : Table V key :=
  ⟨t.rows.map g, by
    rw [List.pairwise_map]
    exact t.sorted.imp fun h => by rwa [hg, hg]⟩

@[simp] lemma rows_mapRows (t : Table V key) (g : V → V) (hg : ∀ v, key (g v) = key v) :
    (t.mapRows g hg).rows = t.rows.map g := rfl

/-- Storing a record under a key in use replaces the record in its place. -/
lemma rows_put_of_get {u : V} (h : t.get (key v) = some u) :
    (t.put v).rows = t.rows.map fun x => if key x = key v then v else x := by
  have hg : ∀ x, key (if key x = key v then v else x) = key x := by
    intro x
    split_ifs with hx
    · exact hx.symm
    · rfl
  have hput : t.put v = t.mapRows _ hg := by
    apply ext_mem
    intro y
    rw [mem_rows_put, rows_mapRows, List.mem_map]
    constructor
    · rintro (rfl | ⟨hy, hne⟩)
      · exact ⟨u, mem_of_get h, if_pos (key_of_get h)⟩
      · exact ⟨y, hy, if_neg hne⟩
    · rintro ⟨x, hx, rfl⟩
      split_ifs with hk
      · exact Or.inl rfl
      · exact Or.inr ⟨hx, hk⟩
  rw [hput, rows_mapRows]

/-- Storing a changed copy of a stored record changes it in its place. -/
lemma rows_put_modified {g : V → V} (hv : v ∈ t.rows)
    (hg : key (g v) = key v) :
    (t.put (g v)).rows = t.rows.map fun x => if key x = key v then g x else x := by
  have hget : t.get (key (g v)) = some v := by
    rw [hg]
    exact get_of_mem hv
  rw [rows_put_of_get hget]
  refine List.map_congr_left ?_
  intro x hx
  rw [hg]
  split_ifs with hk
  · rw [eq_of_mem_of_key_eq hx hv hk]
  · rfl

/-! ### Updates up to permutation -/

lemma perm_of_get (h : t.get k = some v) :
    t.rows.Perm (v :: (t.del k).rows) := by
  obtain rfl := key_of_get h
  refine (List.perm_ext_iff_of_nodup t.nodup_rows ?_).mpr ?_
  · refine List.nodup_cons.mpr ⟨?_, (t.del _).nodup_rows⟩
    intro hv
    exact (mem_rows_del.mp hv).2 rfl
  · intro y
    rw [List.mem_cons, mem_rows_del]
    constructor
    · intro hy
      by_cases hk : key y = key v
      · exact Or.inl (eq_of_mem_of_key_eq hy (mem_of_get h) hk)
      · exact Or.inr ⟨hy, hk⟩
    · rintro (rfl | ⟨hy, -⟩)
      · exact mem_of_get h
      · exact hy

lemma perm_put (t : Table V key) (v : V) :
    (t.put v).rows.Perm (v :: (t.del (key v)).rows) := by
  have h := perm_of_get (t.get_put_self v)
  have hdel : (t.put v).del (key v) = t.del (key v) := by
    apply ext_get
    intro k
    simp only [get_del, get_put]
    split_ifs <;> rfl
  rwa [hdel] at h

/-- Storing a record under a free key adds it. -/
lemma perm_put_of_get_none (h : t.get (key v) = none) :
    (t.put v).rows.Perm (v :: t.rows) := by
  have hp := t.perm_put v
  rwa [del_of_get_none h] at hp

/-! ### Parts of a table -/

/-- Storing a record of another kind leaves a part of the table as it is. -/
lemma filter_rows_put_of_false (hv : p v = false)
    (hnew : ∀ x ∈ t.rows, key x ≠ key v) : (t.put v).rows.filter p = t.rows.filter p := by
  refine rows_eq_of_mem_iff ((t.put v).sorted.filter p) (t.sorted.filter p) ?_
  intro x
  rw [List.mem_filter, List.mem_filter, mem_rows_put]
  constructor
  · rintro ⟨rfl | ⟨hx, -⟩, hp⟩
    · rw [hv] at hp
      cases hp
    · exact ⟨hx, hp⟩
  · rintro ⟨hx, hp⟩
    exact ⟨Or.inr ⟨hx, hnew x hx⟩, hp⟩

/-- A record with a larger key than all of its kind becomes the last of them. -/
lemma filter_rows_put_last (hv : p v = true)
    (hnew : ∀ x ∈ t.rows, key x ≠ key v) (hlast : ∀ x ∈ t.rows, p x = true → key x < key v) :
    (t.put v).rows.filter p = t.rows.filter p ++ [v] := by
  have hsorted : (t.rows.filter p ++ [v]).Pairwise (fun a b => key a < key b) := by
    refine List.pairwise_append.mpr ⟨t.sorted.filter p, List.pairwise_singleton _ _, ?_⟩
    intro x hx y hy
    obtain ⟨hx, hp⟩ := List.mem_filter.mp hx
    obtain rfl := List.mem_singleton.mp hy
    exact hlast x hx hp
  refine rows_eq_of_mem_iff ((t.put v).sorted.filter p) hsorted ?_
  intro x
  rw [List.mem_filter, mem_rows_put, List.mem_append, List.mem_filter, List.mem_singleton]
  constructor
  · rintro ⟨rfl | ⟨hx, -⟩, hp⟩
    · exact Or.inr rfl
    · exact Or.inl ⟨hx, hp⟩
  · rintro (⟨hx, hp⟩ | rfl)
    · exact ⟨Or.inr ⟨hx, hnew x hx⟩, hp⟩
    · exact ⟨Or.inl rfl, hv⟩

end Table

/-! ### Taking from a list -/

section Take

variable {α : Type} [DecidableEq α] {l : List α} (m : α → Bool) (n : ℕ)

/-- The elements that were taken and the others make up the list. -/
lemma perm_take_filter (hl : l.Nodup) :
    l.Perm ((l.filter m).take n ++ l.filter fun a => a ∉ (l.filter m).take n) := by
  have hsub : ((l.filter m).take n).Sublist l := (List.take_sublist _ _).trans List.filter_sublist
  refine (List.perm_ext_iff_of_nodup hl ?_).mpr ?_
  · refine List.nodup_append.mpr ⟨hl.sublist hsub, hl.filter _, ?_⟩
    rintro a ha b hb rfl
    exact absurd ha (by simpa using (List.mem_filter.mp hb).2)
  · intro a
    rw [List.mem_append, List.mem_filter, decide_eq_true_eq]
    by_cases ha : a ∈ (l.filter m).take n
    · exact ⟨fun _ => Or.inl ha, fun _ => hsub.subset ha⟩
    · simp [ha]

/-- Taking the first elements of a kind takes the first ones of every kind within it. -/
lemma filter_take_filter (hl : l.Nodup) {p : α → Bool} (hp : ∀ a ∈ l, p a = true → m a = true) :
    l.filter p = ((l.filter m).take n).filter p ++
      (l.filter fun a => a ∉ (l.filter m).take n).filter p := by
  have hwithin : ∀ q : α → Bool, (∀ a ∈ l, q a = true → m a = true) →
      l.filter q = ((l.filter m).take n).filter q ++ ((l.filter m).drop n).filter q := by
    intro q hq
    rw [← List.filter_append, List.take_append_drop, List.filter_filter]
    refine List.filter_congr ?_
    intro a ha
    cases hqa : q a with
    | true => simp [hq a ha hqa]
    | false => simp
  rw [hwithin p hp, List.filter_filter]
  congr 1
  rw [hwithin (fun a => p a && decide (a ∉ (l.filter m).take n))
    fun a ha h => hp a ha (Bool.and_elim_left h)]
  have hnone : ((l.filter m).take n).filter
      (fun a => p a && decide (a ∉ (l.filter m).take n)) = [] := by
    refine List.filter_eq_nil_iff.mpr ?_
    intro a ha
    simp [ha]
  rw [hnone, List.nil_append]
  refine List.filter_congr ?_
  intro a ha
  -- what is behind the first elements is none of them
  have hnot : a ∉ (l.filter m).take n := by
    have hnd : ((l.filter m).take n ++ (l.filter m).drop n).Nodup := by
      rw [List.take_append_drop]
      exact hl.filter m
    intro hta
    exact (List.nodup_append.mp hnd).2.2 a hta a ha rfl
  simp [hnot]

/-- Taking elements of another kind takes none. -/
lemma filter_take_filter_of_false {p : α → Bool} (hp : ∀ a ∈ l, p a = true → m a = false) :
    ((l.filter m).take n).filter p = [] ∧
      (l.filter fun a => a ∉ (l.filter m).take n).filter p = l.filter p := by
  have hnone : ∀ a ∈ (l.filter m).take n, ¬ p a = true := by
    intro a ha hpa
    obtain ⟨hal, hma⟩ := List.mem_filter.mp (List.mem_of_mem_take ha)
    rw [hp a hal hpa] at hma
    cases hma
  refine ⟨List.filter_eq_nil_iff.mpr hnone, ?_⟩
  rw [List.filter_filter]
  refine List.filter_congr ?_
  intro a _
  by_cases ha : a ∈ (l.filter m).take n
  · simp [ha, Bool.eq_false_iff.mpr (hnone a ha)]
  · simp [ha]

end Take

end Orchestrator.Lib
