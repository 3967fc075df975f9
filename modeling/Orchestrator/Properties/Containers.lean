/-
# Attempts to start a container

A container that is created and cannot be started is not removed.  It is still managed, and its
name keeps every later attempt from creating another one.  As long as no attempt gets that far
and fails, a failed attempt leaves nothing behind and the next one is not held up.
-/
import Orchestrator.Runtime.Docker

namespace Orchestrator

open Lib

variable {E : Engine} {id : String} {x : ℕ → EngineOutcome} {cs : List EngineContainer} {k n : ℕ}

/-- There is no container of the workload, by name or by label. -/
def Unmanaged (id : String) (cs : List EngineContainer) : Prop :=
  ∀ c ∈ cs, c.name ≠ "orch-" ++ id ∧ c.workload ≠ id

/-- The container is created, and it cannot be started. -/
def EngineOutcome.Strands (x : EngineOutcome) : Prop :=
  x.pullError = none ∧ x.createError = none ∧ x.startError ≠ none

/-- The steps succeed as far as they depend on this attempt. -/
def EngineOutcome.Works (x : EngineOutcome) : Prop :=
  x.pullError = none ∧ x.createError = none ∧ x.startError = none

lemma managed_none_iff (hid : blank id = false) :
    (listManagedWorkloads cs).get id = none ↔ ∀ c ∈ cs, c.workload ≠ id := by
  rw [Table.get_eq_none_iff]
  constructor
  · intro h c hc he
    have hmem : (c.workload, c.id) ∈ (cs.filter fun c => !blank c.workload).map fun c =>
        (c.workload, c.id) := List.mem_map_of_mem (List.mem_filter.mpr ⟨hc, by simp [he, hid]⟩)
    obtain ⟨v, hv, hk⟩ := Table.exists_mem_foldl_put (t := (Table.empty : StrMap)) hmem
    exact h v hv (hk.trans he)
  · intro h v hv hk
    obtain hv | ⟨hv, -⟩ := Table.mem_of_mem_foldl_put hv
    · obtain ⟨c, hc, rfl⟩ := List.mem_map.mp hv
      exact h c (List.mem_of_mem_filter hc) hk
    · exact List.not_mem_nil hv

/-- An attempt for a workload that has no container. -/
lemma runWorkload_cases (hE : E.Lawful) (h : Unmanaged id cs) (x : EngineOutcome) :
    (x.Works ∧ ¬ x.Strands ∧ (runWorkload E id x cs).1 = .ok x.id) ∨
    (¬ x.Works ∧ x.Strands ∧ (runWorkload E id x cs).1.toOption = none ∧
      ⟨x.id, "orch-" ++ id, id⟩ ∈ (runWorkload E id x cs).2) ∨
    (¬ x.Works ∧ ¬ x.Strands ∧ (runWorkload E id x cs).1.toOption = none ∧
      (runWorkload E id x cs).2 = cs) := by
  unfold EngineOutcome.Works EngineOutcome.Strands runWorkload
  cases hpull : x.pullError with
  | some e => simp [hE.pull, hpull, Except.toOption]
  | none =>
    by_cases hcreate : x.createError = none
    · have hcreated := hE.create x _ id cs (fun c hc => (h c hc).1) hcreate
      cases hstart : x.startError <;>
        simp [hE.pull, hpull, hcreate, hcreated, hE.start, hstart, Except.toOption]
    · obtain ⟨e, he⟩ := hE.refuse x ("orch-" ++ id) id cs (.inr hcreate)
      simp [hE.pull, hpull, hcreate, he, Except.toOption]

lemma runWithBackoff_succ (started : ℕ → Option String) (k : ℕ) :
    runWithBackoff started (k + 1) = (runWithBackoff started k).or (started k) := by
  simp [runWithBackoff, List.range_succ, List.findSome?_append]

/-- Attempts that fail before a container is created leave none. -/
lemma unmanaged_engineAfter (hE : E.Lawful) (hcs : Unmanaged id cs)
    (hk : runWithBackoff (startedBy E id x cs) k = none)
    (h : ∀ j < k, runWithBackoff (startedBy E id x cs) j = none → ¬ (x j).Strands) :
    Unmanaged id (engineAfter E id x cs k) := by
  induction k with
  | zero => exact hcs
  | succ k ih =>
    rw [runWithBackoff_succ, Option.or_eq_none_iff] at hk
    have hun := ih hk.1 fun j hj => h j (by omega)
    obtain ⟨-, -, hok⟩ | ⟨-, hs, -⟩ | ⟨-, -, -, hsame⟩ := runWorkload_cases hE hun (x k)
    · have hnone := hk.2
      rw [startedBy, hok] at hnone
      cases hnone
    · exact absurd hs (h k (by omega) hk.1)
    · rw [engineAfter, hsame]
      exact hun

/-- While the attempts fail nothing is managed, and one that works is not held up, if and only if
no attempt creates a container that it cannot start. -/
theorem failed_starts_retryable_iff (hE : E.Lawful) (id : String) (x : ℕ → EngineOutcome)
    (cs : List EngineContainer) (n : ℕ) (hid : blank id = false) (hcs : Unmanaged id cs) :
    ((∀ k ≤ n, runWithBackoff (startedBy E id x cs) k = none →
        (listManagedWorkloads (engineAfter E id x cs k)).get id = none) ∧
      ∀ k < n, runWithBackoff (startedBy E id x cs) k = none → (x k).Works →
        runWithBackoff (startedBy E id x cs) (k + 1) = some (x k).id) ↔
    ∀ k < n, runWithBackoff (startedBy E id x cs) k = none → ¬ (x k).Strands := by
  constructor
  · rintro ⟨hnone, -⟩ k
    induction k using Nat.strong_induction_on with
    | _ k ih =>
      intro hkn hk hs
      have hun := unmanaged_engineAfter hE hcs hk fun j hj => ih j hj (by omega)
      obtain ⟨-, hno, -⟩ | ⟨-, -, herr, hmem⟩ | ⟨-, hno, -⟩ := runWorkload_cases hE hun (x k)
      · exact hno hs
      · have hnext : runWithBackoff (startedBy E id x cs) (k + 1) = none := by
          rw [runWithBackoff_succ, hk]
          exact herr
        exact (managed_none_iff hid).mp (hnone (k + 1) hkn hnext) _ hmem rfl
      · exact hno hs
  · intro h
    have hun : ∀ k ≤ n, runWithBackoff (startedBy E id x cs) k = none →
        Unmanaged id (engineAfter E id x cs k) := fun k hkn hk =>
      unmanaged_engineAfter hE hcs hk fun j hj => h j (by omega)
    refine ⟨fun k hkn hk => (managed_none_iff hid).mpr fun c hc => (hun k hkn hk c hc).2, ?_⟩
    intro k hkn hk hworks
    obtain ⟨-, -, hok⟩ | ⟨hno, -⟩ | ⟨hno, -⟩ := runWorkload_cases hE (hun k hkn.le hk) (x k)
    · rw [runWithBackoff_succ, hk, Option.none_or, startedBy, hok]
      rfl
    · exact absurd hworks hno
    · exact absurd hworks hno

/-- An engine that does what is assumed of it. -/
def listEngine : Engine where
  imagePull x cs := (x.pullError, cs)
  containerCreate x name workload cs :=
    if ∃ c ∈ cs, c.name = name then (.error ("the name " ++ name ++ " is in use"), cs)
    else
      match x.createError with
      | some e => (.error e, cs)
      | none => (.ok x.id, cs ++ [⟨x.id, name, workload⟩])
  containerStart x _ cs := (x.startError, cs)

lemma listEngine_lawful : listEngine.Lawful where
  pull _ _ := rfl
  start _ _ _ := rfl
  create x name workload cs hfree hnone := by simpa [listEngine, hnone] using hfree
  refuse x name workload cs h := by
    by_cases hused : ∃ c ∈ cs, c.name = name
    · exact ⟨_, if_pos hused⟩
    · obtain ⟨e, he⟩ := Option.ne_none_iff_exists'.mp (h.resolve_left hused)
      exact ⟨e, by simp [listEngine, hused, he]⟩

/-- A registry that cannot be reached at first. -/
theorem failed_starts_retryable_pull :
    let x : ℕ → EngineOutcome := fun k => ⟨if k = 0 then some "timeout" else none, none, none, "c1"⟩
    blank "w1" = false ∧ Unmanaged "w1" [] ∧
      runWithBackoff (startedBy listEngine "w1" x []) 2 = some "c1" := by
  intro x
  refine ⟨by decide, nofun, ((failed_starts_retryable_iff listEngine_lawful "w1" x [] 2 (by decide)
    nofun).mpr ?_).2 1 (by decide) (by decide) ⟨rfl, rfl, rfl⟩⟩
  intro k _ _ hs
  exact absurd rfl hs.2.2

/-- The first attempt cannot start its container: the others, which could, fail, and the
container is still managed after the last. -/
theorem failed_start_holds_up :
    let x : ℕ → EngineOutcome := fun k => ⟨none, none, if k = 0 then some "no space" else none, "c1"⟩
    (∀ k, 0 < k → (x k).Works) ∧ runWithBackoff (startedBy listEngine "w1" x []) 3 = none ∧
      (listManagedWorkloads (engineAfter listEngine "w1" x [] 3)).get "w1" = some ("w1", "c1") := by
  refine ⟨fun k hk => ⟨rfl, rfl, if_neg (by omega)⟩, by decide, by decide⟩

end Orchestrator
