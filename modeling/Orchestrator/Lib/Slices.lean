/-
# Slices of a table

One table that holds the records of several others: the entry of a record is stored in a place
that is computed from the index of its table and from its slot there.  If the places of
different tables are different, and the places of one table are ordered as its slots are, then
the operations on the big table are the operations on the slices.
-/
import Mathlib.Logic.Function.Basic
import Orchestrator.Lib.Table

namespace Orchestrator.Lib

/-- How the records of a family of tables are stored in one table. -/
structure Slicing {ι K K' E : Type} [LinearOrder K] [LinearOrder K'] (V : ι → Type)
    (key : E → K) (slot : ∀ i, V i → K') where
  entry : ∀ i, V i → E
  /-- The place of a slot. -/
  place : ι → K' → K
  /-- The slots that can be used. -/
  valid : ι → K' → Prop
  key_entry : ∀ {i} {v : V i}, valid i (slot i v) → key (entry i v) = place i (slot i v)
  place_lt : ∀ {i a b}, valid i a → valid i b → (place i a < place i b ↔ a < b)
  place_index : ∀ {i j a b}, valid i a → valid j b → place i a = place j b → i = j
  entry_inj : ∀ {i} {v u : V i}, entry i v = entry i u → v = u

namespace Slicing

variable {ι K K' E : Type} [LinearOrder K] [LinearOrder K'] {V : ι → Type} {key : E → K}
  {slot : ∀ i, V i → K'} (σ : Slicing V key slot)

/-- The table holds the entries of the records of the slices, and nothing else. -/
structure Sliced (B : Table E key) (T : ∀ i, Table (V i) (slot i)) : Prop where
  valid : ∀ i, ∀ v ∈ (T i).rows, σ.valid i (slot i v)
  mem : ∀ e, e ∈ B.rows ↔ ∃ i, ∃ v ∈ (T i).rows, σ.entry i v = e

variable {σ} {B : Table E key} {T : ∀ i, Table (V i) (slot i)} {i j : ι} {v : V i} {a b : K'}

lemma place_eq (ha : σ.valid i a) (hb : σ.valid i b) (h : σ.place i a = σ.place i b) : a = b := by
  refine le_antisymm (not_lt.mp fun hlt => ?_) (not_lt.mp fun hlt => ?_)
  · exact absurd ((σ.place_lt hb ha).mpr hlt) (by rw [h]; exact lt_irrefl _)
  · exact absurd ((σ.place_lt ha hb).mpr hlt) (by rw [h]; exact lt_irrefl _)

lemma Sliced.empty : σ.Sliced Table.empty fun _ => Table.empty :=
  ⟨fun _ _ h => absurd h List.not_mem_nil,
    fun _ => ⟨fun h => absurd h List.not_mem_nil, fun ⟨_, _, h, _⟩ => absurd h List.not_mem_nil⟩⟩

/-- A record of a slice has its entry in the table. -/
lemma Sliced.entry_mem (h : σ.Sliced B T) (hv : σ.valid i (slot i v)) :
    σ.entry i v ∈ B.rows ↔ v ∈ (T i).rows := by
  rw [h.mem]
  constructor
  · rintro ⟨j, u, hu, heq⟩
    have hvalid := h.valid j u hu
    have hplace : σ.place j (slot j u) = σ.place i (slot i v) := by
      rw [← σ.key_entry hvalid, ← σ.key_entry hv, heq]
    obtain rfl := σ.place_index hvalid hv hplace
    rwa [← σ.entry_inj heq]
  · exact fun hv => ⟨i, v, hv, rfl⟩

/-- A lookup. -/
lemma Sliced.get (h : σ.Sliced B T) (ha : σ.valid i a) :
    B.get (σ.place i a) = ((T i).get a).map (σ.entry i) := by
  cases hget : (T i).get a with
  | some v =>
    obtain ⟨hv, rfl⟩ := Table.get_eq_some_iff.mp hget
    rw [Option.map_some, ← σ.key_entry ha]
    exact Table.get_of_mem ((h.entry_mem ha).mpr hv)
  | none =>
    refine Table.get_eq_none_iff.mpr fun e he hkey => ?_
    obtain ⟨j, u, hu, rfl⟩ := (h.mem e).mp he
    have hvalid := h.valid j u hu
    rw [σ.key_entry hvalid] at hkey
    obtain rfl := σ.place_index hvalid ha hkey
    exact Table.get_eq_none_iff.mp hget u hu (place_eq hvalid ha hkey)

variable [DecidableEq ι]

/-- A record is stored. -/
lemma Sliced.put (h : σ.Sliced B T) (hv : σ.valid i (slot i v)) :
    σ.Sliced (B.put (σ.entry i v)) (Function.update T i ((T i).put v)) := by
  refine ⟨fun j u hu => ?_, fun e => ?_⟩
  · by_cases hji : j = i
    · subst hji
      rw [Function.update_self] at hu
      rcases Table.mem_rows_put.mp hu with rfl | ⟨hu, -⟩
      · exact hv
      · exact h.valid j u hu
    · rw [Function.update_of_ne hji] at hu
      exact h.valid j u hu
  · rw [Table.mem_rows_put]
    constructor
    · rintro (rfl | ⟨he, hkey⟩)
      · refine ⟨i, v, ?_, rfl⟩
        rw [Function.update_self]
        exact Table.mem_rows_put.mpr (.inl rfl)
      · obtain ⟨j, u, hu, rfl⟩ := (h.mem e).mp he
        refine ⟨j, u, ?_, rfl⟩
        by_cases hji : j = i
        · subst hji
          rw [Function.update_self]
          refine Table.mem_rows_put.mpr (.inr ⟨hu, fun hslot => hkey ?_⟩)
          rw [σ.key_entry (h.valid j u hu), σ.key_entry hv, hslot]
        · rwa [Function.update_of_ne hji]
    · rintro ⟨j, u, hu, rfl⟩
      by_cases hji : j = i
      · subst hji
        rw [Function.update_self] at hu
        rcases Table.mem_rows_put.mp hu with rfl | ⟨hu, hslot⟩
        · exact .inl rfl
        · refine .inr ⟨(h.entry_mem (h.valid j u hu)).mpr hu, fun hkey => hslot ?_⟩
          rw [σ.key_entry (h.valid j u hu), σ.key_entry hv] at hkey
          exact place_eq (h.valid j u hu) hv hkey
      · rw [Function.update_of_ne hji] at hu
        have hvalid := h.valid j u hu
        refine .inr ⟨(h.entry_mem hvalid).mpr hu, fun hkey => hji ?_⟩
        rw [σ.key_entry hvalid, σ.key_entry hv] at hkey
        exact σ.place_index hvalid hv hkey

/-- The records of one slice that satisfy a predicate are removed. -/
lemma Sliced.delWhere (h : σ.Sliced B T) {p : E → Bool} {q : V i → Bool}
    (hsame : ∀ u ∈ (T i).rows, p (σ.entry i u) = q u)
    (hother : ∀ j, j ≠ i → ∀ u ∈ (T j).rows, p (σ.entry j u) = false) :
    σ.Sliced (B.delWhere p) (Function.update T i ((T i).delWhere q)) := by
  refine ⟨fun j u hu => ?_, fun e => ?_⟩
  · by_cases hji : j = i
    · subst hji
      rw [Function.update_self] at hu
      exact h.valid j u (Table.mem_rows_delWhere.mp hu).1
    · rw [Function.update_of_ne hji] at hu
      exact h.valid j u hu
  · rw [Table.mem_rows_delWhere, h.mem]
    constructor
    · rintro ⟨⟨j, u, hu, rfl⟩, hp⟩
      refine ⟨j, u, ?_, rfl⟩
      by_cases hji : j = i
      · subst hji
        rw [Function.update_self, Table.mem_rows_delWhere, ← hsame u hu]
        exact ⟨hu, hp⟩
      · rwa [Function.update_of_ne hji]
    · rintro ⟨j, u, hu, rfl⟩
      by_cases hji : j = i
      · subst hji
        rw [Function.update_self, Table.mem_rows_delWhere] at hu
        exact ⟨⟨j, u, hu.1, rfl⟩, (hsame u hu.1).trans hu.2⟩
      · rw [Function.update_of_ne hji] at hu
        exact ⟨⟨j, u, hu, rfl⟩, hother j hji u hu⟩

/-- The record in a slot is removed. -/
lemma Sliced.del (h : σ.Sliced B T) (ha : σ.valid i a) :
    σ.Sliced (B.del (σ.place i a)) (Function.update T i ((T i).del a)) := by
  refine h.delWhere (fun u hu => ?_) fun j hji u hu => ?_
  · have hvalid := h.valid i u hu
    rw [σ.key_entry hvalid]
    refine decide_eq_decide.mpr ⟨fun heq => place_eq hvalid ha heq, fun heq => by rw [heq]⟩
  · have hvalid := h.valid j u hu
    rw [σ.key_entry hvalid]
    exact decide_eq_false fun heq => hji (σ.place_index hvalid ha heq)

omit [DecidableEq ι] in
/-- The records of one slice that satisfy a predicate, in the order of the table. -/
lemma Sliced.filter (h : σ.Sliced B T) {p : E → Bool} {q : V i → Bool}
    (hsame : ∀ u ∈ (T i).rows, p (σ.entry i u) = q u)
    (hother : ∀ j, j ≠ i → ∀ u ∈ (T j).rows, p (σ.entry j u) = false) :
    B.rows.filter p = ((T i).rows.filter q).map (σ.entry i) := by
  have hsorted : (((T i).rows.filter q).map (σ.entry i)).Pairwise (fun a b => key a < key b) := by
    rw [List.pairwise_map]
    refine ((T i).sorted.filter q).imp_of_mem fun {a b} ha hb hab => ?_
    have hva := h.valid i a (List.mem_of_mem_filter ha)
    have hvb := h.valid i b (List.mem_of_mem_filter hb)
    rw [σ.key_entry hva, σ.key_entry hvb]
    exact (σ.place_lt hva hvb).mpr hab
  refine Table.rows_eq_of_mem_iff (B.sorted.filter p) hsorted fun e => ?_
  rw [List.mem_filter, List.mem_map, h.mem]
  constructor
  · rintro ⟨⟨j, u, hu, rfl⟩, hp⟩
    by_cases hji : j = i
    · subst hji
      exact ⟨u, List.mem_filter.mpr ⟨hu, hsame u hu ▸ hp⟩, rfl⟩
    · rw [hother j hji u hu] at hp
      cases hp
  · rintro ⟨u, hu, rfl⟩
    obtain ⟨hu, hq⟩ := List.mem_filter.mp hu
    exact ⟨⟨i, u, hu, rfl⟩, (hsame u hu).trans hq⟩

end Slicing

end Orchestrator.Lib
