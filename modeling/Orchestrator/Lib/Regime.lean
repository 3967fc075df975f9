/-
# Regimes on the calls of a program

A regime has two sides: what a program may assume of the answers to its calls, and which calls
it may make in return.  `Prog.Under K p Q` says that the program `p` keeps its side as long as
the answers keep theirs, and that the values it returns satisfy `Q`.  The judgement looks at the
program alone, so that it is established once, without a state.

It is used with an invariant of the state that matches the regime (`Regime.Kept`): in a
state where the invariant holds the answers are as assumed, and a call that the regime allows
keeps the invariant.  Then it holds after a run (`Prog.Under.run`).

For processes that are interleaved a regime may also speak about a state that is still to come.
This is sound for facts that no call takes back: what is true now is then still true later
(`Sessions.run_lasting`).
-/
import Orchestrator.Lib.Sessions

namespace Orchestrator.Lib

/-- What is assumed of the answers to the calls, and the calls that are allowed. -/
structure Regime {C : Type} (Res : C → Type) where
  answers : (c : C) → Res c → Prop
  allows : C → Prop

variable {C : Type} {Res : C → Type} {ε α β γ σ : Type} {K : Regime Res}

/-- Every call that the program makes is allowed, and the values it returns satisfy `Q`, as long
as the answers are as assumed. -/
def Prog.Under (K : Regime Res) : Prog Res ε α → (α → Prop) → Prop
  | ret (.ok a), Q => Q a
  | ret (.error _), _ => True
  | call c k, Q => K.allows c ∧ ∀ a, K.answers c a → Under K (k a) Q

namespace Prog.Under

variable {p : Prog Res ε α} {f : α → Prog Res ε β} {Q : α → Prop} {Q' : β → Prop}

lemma pure {a : α} (h : Q a) : Under K (Pure.pure a : Prog Res ε α) Q := h

lemma issue {c : C} {Q : Res c → Prop} (hc : K.allows c) (h : ∀ a, K.answers c a → Q a) :
    Under K (Prog.issue c : Prog Res ε (Res c)) Q := ⟨hc, h⟩

lemma mono {Q₂ : α → Prop} (h : Under K p Q) (hQ : ∀ a, Q a → Q₂ a) : Under K p Q₂ := by
  induction p with
  | ret r =>
    cases r with
    | ok a => exact hQ a h
    | error e => trivial
  | call c k ih => exact ⟨h.1, fun a ha => ih a (h.2 a ha)⟩

lemma bind (hp : Under K p Q) (hf : ∀ a, Q a → Under K (f a) Q') : Under K (p >>= f) Q' := by
  induction p with
  | ret r =>
    cases r with
    | ok a => exact hf a hp
    | error e => trivial
  | call c k ih => exact ⟨hp.1, fun a ha => ih a (hp.2 a ha)⟩

lemma attempt (h : Under K p Q) : Under K p.attempt fun r => ∀ a, r = .ok a → Q a := by
  induction p with
  | ret r =>
    rintro a rfl
    exact h
  | call c k ih => exact ⟨h.1, fun a ha => ih a (h.2 a ha)⟩

/-- Sequencing after a part whose outcome is passed on. -/
lemma attempt_bind {f : Except ε α → Prog Res ε β} (hp : Under K p Q)
    (hok : ∀ a, Q a → Under K (f (.ok a)) Q') (herr : ∀ e, Under K (f (.error e)) Q') :
    Under K (p.attempt >>= f) Q' := by
  refine hp.attempt.bind fun r hr => ?_
  cases r with
  | ok a => exact hok a (hr a rfl)
  | error e => exact herr e

lemma ite {c : Prop} [Decidable c] {q : Prog Res ε α} (hp : c → Under K p Q)
    (hq : ¬ c → Under K q Q) : Under K (if c then p else q) Q := by
  split
  · exact hp ‹_›
  · exact hq ‹_›

lemma onlyIf {c : Prop} [Decidable c] {p : Prog Res ε Unit}
    (hp : c → Under K p fun _ => True) : Under K (Prog.onlyIf c p) fun _ => True :=
  ite hp fun _ => pure trivial

lemma forEach {l : List β} {f : β → Prog Res ε Unit}
    (hf : ∀ x ∈ l, Under K (f x) fun _ => True) :
    Under K (Prog.forEach l f) fun _ => True := by
  induction l with
  | nil => trivial
  | cons x xs ih => exact (hf x (by simp)).bind fun _ _ => ih fun y hy => hf y (by simp [hy])

/-- A loop that ends is one whose body has returned for each of the elements. -/
lemma forEach_all {l : List β} {f : β → Prog Res ε Unit} {R : β → Prop}
    (hf : ∀ x ∈ l, Under K (f x) fun _ => R x) :
    Under K (Prog.forEach l f) fun _ => ∀ x ∈ l, R x := by
  induction l with
  | nil => exact fun _ h => absurd h List.not_mem_nil
  | cons x xs ih =>
    refine (hf x (by simp)).bind fun _ hx => (ih fun y hy => hf y (by simp [hy])).mono ?_
    intro _ hxs y hy
    rcases List.mem_cons.mp hy with rfl | hy
    · exact hx
    · exact hxs y hy

lemma mapEach {l : List β} {f : β → Prog Res ε γ} {R : γ → Prop}
    (hf : ∀ x ∈ l, Under K (f x) R) : Under K (Prog.mapEach l f) fun ys => ∀ y ∈ ys, R y := by
  induction l with
  | nil => exact fun _ h => absurd h List.not_mem_nil
  | cons x xs ih =>
    refine (hf x (by simp)).bind fun y hy => (ih fun z hz => hf z (by simp [hz])).bind ?_
    intro ys hys z hz
    rcases List.mem_cons.mp hz with rfl | hz
    · exact hy
    · exact hys z hz

/-- Where nothing is assumed of the answers. -/
lemma of_only {R : Except ε α → Prop} (h : Only K.allows p R) (hR : ∀ a, R (.ok a) → Q a) :
    Under K p Q := by
  induction p with
  | ret r =>
    cases r with
    | ok a => exact hR a h
    | error e => trivial
  | call c k ih => exact ⟨h.1, fun a _ => ih a (h.2 a)⟩

/-- A regime that assumes nothing says which calls the program makes. -/
lemma only {P : C → Prop} (h : Under ⟨fun _ _ => True, P⟩ p Q) : Only P p fun _ => True := by
  induction p with
  | ret r => trivial
  | call c k ih => exact ⟨h.1, fun a => ih a (h.2 a trivial)⟩

end Prog.Under

/-! ### Runs -/

variable {exec : (c : C) → σ → Res c × σ} {I : σ → Prop}

/-- The invariant matches the regime. -/
structure Regime.Kept (K : Regime Res) (exec : (c : C) → σ → Res c × σ) (I : σ → Prop) :
    Prop where
  answered : ∀ c s, K.allows c → I s → K.answers c (exec c s).1
  kept : ∀ c s, K.allows c → I s → I (exec c s).2

/-- The invariant holds after the run of a program that keeps the regime. -/
lemma Prog.Under.run {p : Prog Res ε α} {Q : α → Prop} (hK : K.Kept exec I) (h : p.Under K Q)
    {s : σ} (hs : I s) : (∀ a, p.result exec s = .ok a → Q a) ∧ I (p.final exec s) := by
  induction p generalizing s with
  | ret r =>
    refine ⟨?_, hs⟩
    rintro a rfl
    exact h
  | call c k ih => exact ih _ (h.2 _ (hK.answered c s h.1 hs)) (hK.kept c s h.1 hs)

/-! ### Processes -/

/-- A regime for each state that may be still to come, and an invariant with it.  A call that the
regime of a state allows there leads to a later state; as seen from a state `t` that is later
still, the answer is as assumed and the invariant holds again. -/
structure Regime.Lasting (K : σ → Regime Res) (exec : (c : C) → σ → Res c × σ)
    (I : σ → σ → Prop) (later : σ → σ → Prop) : Prop where
  forward : ∀ c s, (K s).allows c → later s (exec c s).2
  answered : ∀ t c s, (K t).allows c → I t s → later (exec c s).2 t →
    (K t).answers c (exec c s).1
  kept : ∀ t c s, (K t).allows c → I t s → later (exec c s).2 t → I t (exec c s).2

/-- If every operation that is started keeps the regimes of all later states, the invariant holds
in every state of a run in which the operations are interleaved call by call. -/
theorem Sessions.run_lasting {Op L S X : Type} {B : Behaviour Res ε α Op L S X}
    {K : S → Regime Res} {I later : S → S → Prop} (hrefl : ∀ s, later s s)
    (htrans : ∀ s t u, later s t → later t u → later s u)
    (hK : ∀ i, Regime.Lasting K (B.exec i) I later)
    (hforward : ∀ x s, later s (B.outside x s))
    (houtside : ∀ t x s, I t s → I t (B.outside x s)) {shared : S}
    {view : L} {s : Sessions Res ε α Op L S} (h0 : ∀ t, later shared t → I t shared)
    (hrun : Runs (step B) (fun e s => ∀ i op, e = .invoke i op → ∀ t, later s.shared t →
      (B.program i op).Under (K t) fun _ => True) (start shared view) s) : I s.shared s.shared := by
  suffices h : (∀ t, later s.shared t → I t s.shared) ∧ ∀ i op p,
      (s.processes i).running = some (op, p) → ∀ t, later s.shared t →
        p.Under (K t) fun _ => True from h.1 _ (hrefl _)
  refine hrun.invariant (I := fun s => (∀ t, later s.shared t → I t s.shared) ∧ ∀ i op p,
    (s.processes i).running = some (op, p) → ∀ t, later s.shared t →
      p.Under (K t) fun _ => True) ⟨h0, by rintro _ _ _ ⟨⟩⟩ fun e s hs hok => ?_
  obtain ⟨hI, hbusy⟩ := hs
  -- one process is replaced, by one that keeps the regimes as well
  have hset : ∀ (i : ℕ) (q : Process Res ε α Op L) (s' : S), later s.shared s' →
      (∀ op p, q.running = some (op, p) → ∀ t, later s' t → p.Under (K t) fun _ => True) →
      ∀ j op p, (Function.update s.processes i q j).running = some (op, p) →
        ∀ t, later s' t → p.Under (K t) fun _ => True := by
    intro i q s' hs' hq j op p hj t ht
    by_cases hji : j = i
    · subst hji
      rw [Function.update_self] at hj
      exact hq op p hj t ht
    · rw [Function.update_of_ne hji] at hj
      exact hbusy j op p hj t (htrans _ _ _ hs' ht)
  cases e with
  | outside x =>
    have hnext := hforward x s.shared
    exact ⟨fun t ht => houtside t x _ (hI t (htrans _ _ _ hnext ht)),
      fun i op p hi t ht => hbusy i op p hi t (htrans _ _ _ hnext ht)⟩
  | invoke i op =>
    rw [step]
    split
    · refine ⟨hI, hset i _ _ (hrefl _) ?_⟩
      rintro _ _ ⟨⟩
      exact hok i op rfl
    · exact ⟨hI, hbusy⟩
  | move i =>
    rw [step]
    split
    · exact ⟨hI, hbusy⟩
    · exact ⟨hI, hset i _ _ (hrefl _) (by rintro _ _ ⟨⟩)⟩
    · next op c k hi =>
      have hnext := (hK i).forward c _ (hbusy i op _ hi _ (hrefl _)).1
      refine ⟨fun t ht => ?_, hset i _ _ hnext ?_⟩
      · have hback := htrans _ _ _ hnext ht
        exact (hK i).kept t c _ (hbusy i op _ hi t hback).1 (hI t hback) ht
      · rintro _ _ ⟨⟩ t ht
        have hback := htrans _ _ _ hnext ht
        obtain ⟨hallow, hrest⟩ := hbusy i op _ hi t hback
        exact hrest _ ((hK i).answered t c _ hallow (hI t hback) ht)

/-- The case of a single regime. -/
theorem Sessions.run_kept {Op L S X : Type} {B : Behaviour Res ε α Op L S X} {I : S → Prop}
    (hK : ∀ i, K.Kept (B.exec i) I) (houtside : ∀ x s, I s → I (B.outside x s)) {shared : S}
    {view : L} {s : Sessions Res ε α Op L S} (h0 : I shared)
    (hrun : Runs (step B)
      (fun e _ => ∀ i op, e = .invoke i op → (B.program i op).Under K fun _ => True)
      (start shared view) s) : I s.shared := by
  refine run_lasting (K := fun _ => K) (I := fun _ => I) (fun _ => trivial)
    (fun _ _ _ _ _ => trivial) (fun i => ⟨fun _ _ _ => trivial, ?_, ?_⟩) (fun _ _ => trivial)
    (fun _ => houtside) (fun _ _ => h0) (hrun.mono fun e _ he i op hi _ _ => he i op hi)
  · exact fun _ c s hc hs _ => (hK i).answered c s hc hs
  · exact fun _ c s hc hs _ => (hK i).kept c s hc hs

end Orchestrator.Lib
