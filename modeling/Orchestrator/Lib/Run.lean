/-
# Runs of a system

A system takes a step for every event.  `Runs step ok s s'` says that `s'` is reached from
`s` by a finite sequence of events, each of which is admissible (`ok`) in the state in
which it happens.  An invariant is a property that holds at the start and that every
admissible step keeps.
-/
import Mathlib.Logic.Relation

namespace Orchestrator.Lib

variable {E S : Type} (step : E → S → S) (ok : E → S → Prop)

/-- Reachability by admissible events. -/
inductive Runs (s : S) : S → Prop
  | refl : Runs s s
  | tail {s' : S} (e : E) : Runs s s' → ok e s' → Runs s (step e s')

/-- The state after a list of events. -/
def after : List E → S → S
  | [], s => s
  | e :: es, s => after es (step e s)

/-- Every event of a list is admissible where it happens. -/
def Admissible : List E → S → Prop
  | [], _ => True
  | e :: es, s => ok e s ∧ Admissible es (step e s)

instance [∀ e s, Decidable (ok e s)] (es : List E) (s : S) : Decidable (Admissible step ok es s) :=
  match es with
  | [] => .isTrue trivial
  | e :: es =>
    have : Decidable (Admissible step ok es (step e s)) := instDecidableAdmissible es (step e s)
    inferInstanceAs (Decidable (ok e s ∧ Admissible step ok es (step e s)))

variable {step ok} in
lemma after_append (es es' : List E) (s : S) :
    after step (es ++ es') s = after step es' (after step es s) := by
  induction es generalizing s with
  | nil => rfl
  | cons e es ih => exact ih (step e s)

variable {step ok} in
lemma admissible_append {es es' : List E} {s : S} : Admissible step ok (es ++ es') s ↔
    Admissible step ok es s ∧ Admissible step ok es' (after step es s) := by
  induction es generalizing s with
  | nil => simp [Admissible, after]
  | cons e es ih => simp [Admissible, after, ih, and_assoc]

variable {step ok} in
/-- Events that are admissible everywhere. -/
lemma admissible_of_forall {es : List E} (h : ∀ e ∈ es, ∀ s, ok e s) (s : S) :
    Admissible step ok es s := by
  induction es generalizing s with
  | nil => trivial
  | cons e es ih =>
    exact ⟨h e List.mem_cons_self s, ih (fun e he => h e (List.mem_cons_of_mem _ he)) _⟩

variable {step ok} in
/-- What holds in every state of a run. -/
lemma Admissible.and {J : S → Prop} {es : List E} {s : S} (h : Admissible step ok es s)
    (hJ : ∀ es₁ es₂, es = es₁ ++ es₂ → J (after step es₁ s)) :
    Admissible step (fun e s => ok e s ∧ J s) es s := by
  induction es generalizing s with
  | nil => trivial
  | cons e es ih =>
    refine ⟨⟨h.1, hJ [] _ rfl⟩, ih h.2 fun es₁ es₂ he => ?_⟩
    subst he
    exact hJ (e :: es₁) es₂ rfl

namespace Runs

variable {step ok} {s s' s'' : S}

/-- The invariant rule. -/
lemma invariant {I : S → Prop} (h : Runs step ok s s') (h0 : I s)
    (hstep : ∀ e s, I s → ok e s → I (step e s)) : I s' := by
  induction h with
  | refl => exact h0
  | tail e _ hok ih => exact hstep e _ ih hok

lemma trans (h : Runs step ok s s') (h' : Runs step ok s' s'') : Runs step ok s s'' := by
  induction h' with
  | refl => exact h
  | tail e _ hok ih => exact ih.tail e hok

/-- A list of admissible events is a run. -/
lemma of_list (es : List E) (h : Admissible step ok es s) : Runs step ok s (after step es s) := by
  induction es generalizing s with
  | nil => exact .refl
  | cons e es ih => exact ((Runs.refl).tail e h.1).trans (ih h.2)

lemma mono {ok' : E → S → Prop} (h : Runs step ok s s') (hok : ∀ e s, ok e s → ok' e s) :
    Runs step ok' s s' := by
  induction h with
  | refl => exact .refl
  | tail e _ he ih => exact ih.tail e (hok e _ he)

end Runs

end Orchestrator.Lib
