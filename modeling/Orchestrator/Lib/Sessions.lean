/-
# Processes that run one operation after another

A system of processes over a shared state.  An idle process can be asked for an operation;
then it makes the calls of its program one by one, with those of the other processes in
between, and at the end it takes note of the result.  Besides, the environment can change the
shared state.  What a process does while it runs an operation is described by a protocol; the
rule `Sessions.run_upheld` turns the protocols of the operations into an invariant of the
whole system.
-/
import Mathlib.Logic.Function.Basic
import Orchestrator.Lib.Protocol

namespace Orchestrator.Lib

variable {C : Type} {Res : C → Type} {ε α Op L S X : Type}

/-- A process. -/
structure Process {C : Type} (Res : C → Type) (ε α Op L : Type) where
  /-- The operation that it runs, and what is left of its program. -/
  running : Option (Op × Prog Res ε α)
  /-- What it has noted. -/
  view : L

/-- The processes and what they share. -/
structure Sessions {C : Type} (Res : C → Type) (ε α Op L S : Type) where
  shared : S
  processes : ℕ → Process Res ε α Op L

/-- What can happen. -/
inductive SessionEvent (Op X : Type)
  /-- The process is asked for an operation. -/
  | invoke (i : ℕ) (op : Op)
  /-- The process makes its next call, or it returns. -/
  | move (i : ℕ)
  /-- The environment acts. -/
  | outside (x : X)

/-- How the processes and the environment behave. -/
structure Behaviour {C : Type} (Res : C → Type) (ε α Op L S X : Type) where
  program : ℕ → Op → Prog Res ε α
  exec : ℕ → (c : C) → S → Res c × S
  note : (c : C) → Res c → L → L
  /-- What a process notes when an operation has returned. -/
  finish : Op → Except ε α → L → L
  outside : X → S → S

namespace Sessions

/-- The views of all processes. -/
def views (s : Sessions Res ε α Op L S) (i : ℕ) : L := (s.processes i).view

/-- Replace one process. -/
def set (s : Sessions Res ε α Op L S) (i : ℕ) (p : Process Res ε α Op L) :
    Sessions Res ε α Op L S :=
  { s with processes := Function.update s.processes i p }

/-- All processes are idle. -/
def start (shared : S) (view : L) : Sessions Res ε α Op L S where
  shared := shared
  processes _ := ⟨none, view⟩

variable (B : Behaviour Res ε α Op L S X)

def step : SessionEvent Op X → Sessions Res ε α Op L S → Sessions Res ε α Op L S
  | .invoke i op, s =>
    match (s.processes i).running with
    | none => s.set i ⟨some (op, B.program i op), s.views i⟩
    | some _ => s
  | .move i, s =>
    match (s.processes i).running with
    | none => s
    | some (op, .ret r) => s.set i ⟨none, B.finish op r (s.views i)⟩
    | some (op, .call c k) =>
      { shared := (B.exec i c s.shared).2
        processes := Function.update s.processes i
          ⟨some (op, k (B.exec i c s.shared).1), B.note c (B.exec i c s.shared).1 (s.views i)⟩ }
  | .outside x, s => { s with shared := B.outside x s.shared }

/-- The next call of process `i`, if it has one, meets a condition. -/
def Next (cond : ℕ → C → S → L → Prop) (s : Sessions Res ε α Op L S) : SessionEvent Op X → Prop
  | .move i =>
    match (s.processes i).running with
    | some (_, .call c _) => cond i c s.shared (s.views i)
    | _ => True
  | _ => True

instance {cond : ℕ → C → S → L → Prop} [∀ i c s l, Decidable (cond i c s l)]
    (s : Sessions Res ε α Op L S) (e : SessionEvent Op X) : Decidable (s.Next cond e) := by
  unfold Next
  split
  · split <;> infer_instance
  · infer_instance

/-- The condition that always holds. -/
lemma next_true (s : Sessions Res ε α Op L S) (e : SessionEvent Op X) :
    s.Next (fun _ _ _ _ => True) e := by
  unfold Next
  split
  · split <;> trivial
  · trivial

/-- The processes follow the protocols of the operations that they run, and `I` holds of the
shared state and the views. -/
structure Upheld (π : ℕ → Op → Protocol Res L) (I : S → (ℕ → L) → Prop) (idle : ℕ → L → Prop)
    (Q : ℕ → Op → Except ε α → L → Prop) (s : Sessions Res ε α Op L S) : Prop where
  inv : I s.shared s.views
  busy : ∀ i op p, (s.processes i).running = some (op, p) →
    (π i op).Follows p (s.views i) (Q i op)
  idle : ∀ i, (s.processes i).running = none → idle i (s.views i)

variable {B} {π : ℕ → Op → Protocol Res L} {I : S → (ℕ → L) → Prop} {idle : ℕ → L → Prop}
  {Q : ℕ → Op → Except ε α → L → Prop} {cond : ℕ → C → S → L → Prop}
  {s s' : Sessions Res ε α Op L S}

lemma views_update (s : Sessions Res ε α Op L S) (i : ℕ) (p : Process Res ε α Op L) (shared : S) :
    (Sessions.mk shared (Function.update s.processes i p)).views =
      Function.update s.views i p.view := by
  funext j
  by_cases h : j = i
  · subst h
    simp [views]
  · simp [views, h]

/-- One process is replaced. -/
lemma Upheld.update (h : Upheld π I idle Q s) {i : ℕ} {p : Process Res ε α Op L} {shared : S}
    (hinv : I shared (Function.update s.views i p.view))
    (hbusy : ∀ op q, p.running = some (op, q) → (π i op).Follows q p.view (Q i op))
    (hidle : p.running = none → idle i p.view) :
    Upheld π I idle Q ⟨shared, Function.update s.processes i p⟩ := by
  refine ⟨by rwa [views_update], fun j op q hj => ?_, fun j hj => ?_⟩
  · rw [views_update]
    change (Function.update s.processes i p j).running = some (op, q) at hj
    by_cases hji : j = i
    · subst hji
      rw [Function.update_self] at hj ⊢
      exact hbusy op q hj
    · rw [Function.update_of_ne hji] at hj ⊢
      exact h.busy j op q hj
  · rw [views_update]
    change (Function.update s.processes i p j).running = none at hj
    by_cases hji : j = i
    · subst hji
      rw [Function.update_self] at hj ⊢
      exact hidle hj
    · rw [Function.update_of_ne hji] at hj ⊢
      exact h.idle j hj

/-- **The invariant rule.**  An operation that is asked of an idle process follows its
protocol; every call that a protocol allows, if it meets the condition, is answered as the
protocol says and keeps the invariant; so do a return and the environment. -/
theorem run_upheld
    (hnote : ∀ i op, (π i op).note = B.note)
    (hinvoke : ∀ i op l, idle i l → (π i op).Follows (B.program i op) l (Q i op))
    (hcall : ∀ i op c s v, I s v → cond i c s (v i) → (π i op).allows (v i) c →
      (π i op).answers (v i) c (B.exec i c s).1 ∧
        I (B.exec i c s).2 (Function.update v i (B.note c (B.exec i c s).1 (v i))))
    (hreturn : ∀ i op r s v, I s v → Q i op r (v i) →
      idle i (B.finish op r (v i)) ∧ I s (Function.update v i (B.finish op r (v i))))
    (houtside : ∀ x s v, I s v → I (B.outside x s) v)
    (h : Upheld π I idle Q s) (hrun : Runs (step B) (fun e s => Next cond s e) s s') :
    Upheld π I idle Q s' := by
  refine hrun.invariant h fun e s hs hok => ?_
  cases e with
  | invoke i op =>
    rw [step]
    split
    · next hi =>
      refine hs.update ?_ ?_ (by rintro ⟨⟩)
      · have hsame : Function.update s.views i (s.views i) = s.views := Function.update_eq_self _ _
        rw [hsame]
        exact hs.inv
      · rintro _ _ ⟨⟩
        exact hinvoke i op _ (hs.idle i hi)
    · exact hs
  | move i =>
    rw [step]
    split
    · exact hs
    · next op r hi =>
      obtain ⟨hidle, hinv⟩ := hreturn i op r _ _ hs.inv (hs.busy i op _ hi)
      exact hs.update hinv (by rintro _ _ ⟨⟩) fun _ => hidle
    · next op c k hi =>
      rw [Next, hi] at hok
      obtain ⟨hallow, hrest⟩ := hs.busy i op _ hi
      obtain ⟨hanswer, hinv⟩ := hcall i op c _ _ hs.inv hok hallow
      refine hs.update hinv ?_ (by rintro ⟨⟩)
      rintro _ _ ⟨⟩
      have hfollow := hrest _ hanswer
      rwa [hnote] at hfollow
  | outside x => exact ⟨houtside x _ _ hs.inv, hs.busy, hs.idle⟩

/-! ### What a process comes to -/

/-- In the course of the events the process is about to run one of the programs of `T`. -/
def Reaches {γ : Type} (B : Behaviour Res ε α Op L S X) (T : Prog Res ε γ → Prop) (i : ℕ)
    (es : List (SessionEvent Op X)) (s : Sessions Res ε α Op L S) : Prop :=
  ∃ es₁ es₂, es = es₁ ++ es₂ ∧ ∃ op p,
    ((after (step B) es₁ s).processes i).running = some (op, p) ∧ p.Enters T

/-- In the course of the events the process starts the operation and ends it. -/
def Performs (B : Behaviour Res ε α Op L S X) (i : ℕ) (op : Op) (es : List (SessionEvent Op X))
    (s : Sessions Res ε α Op L S) : Prop :=
  ∃ es₁ es₂ es₃, es = es₁ ++ .invoke i op :: (es₂ ++ es₃) ∧
    ((after (step B) es₁ s).processes i).running = none ∧
    ((after (step B) (es₁ ++ .invoke i op :: es₂) s).processes i).running = none

/-- Other processes and the environment leave a process alone. -/
lemma step_other (B : Behaviour Res ε α Op L S X) (s : Sessions Res ε α Op L S) {i : ℕ} {op : Op}
    {p : Prog Res ε α} (hi : (s.processes i).running = some (op, p)) {e : SessionEvent Op X}
    (he : e ≠ .move i) : (step B e s).processes i = s.processes i := by
  cases e with
  | outside x => rfl
  | invoke j op' =>
    rw [step]
    split
    · next hj =>
      refine Function.update_of_ne ?_ _ _
      rintro rfl
      rw [hi] at hj
      cases hj
    · rfl
  | move j =>
    have hij : i ≠ j := fun h => he (h ▸ rfl)
    rw [step]
    split
    · rfl
    · exact Function.update_of_ne hij _ _
    · exact Function.update_of_ne hij _ _

/-- A process whose program comes to `T` has come to it when it is idle again, if its calls are
answered as the protocol says. -/
lemma reaches_of_comes {γ : Type} {T : Prog Res ε γ → Prop} {π : Protocol Res L}
    (hnote : π.note = B.note) {ok : SessionEvent Op X → Sessions Res ε α Op L S → Prop} {i : ℕ}
    (hanswer : ∀ s op c k, ok (.move i) s → (s.processes i).running = some (op, .call c k) →
      π.answers (s.views i) c (B.exec i c s.shared).1)
    {es : List (SessionEvent Op X)} {op : Op} {p : Prog Res ε α}
    (hes : Admissible (step B) ok es s) (hi : (s.processes i).running = some (op, p))
    (hp : π.Comes T p (s.views i))
    (hidle : ((after (step B) es s).processes i).running = none) : Reaches B T i es s := by
  induction es generalizing s p with
  | nil => exact absurd (hi.symm.trans hidle) (by simp)
  | cons e es ih =>
    cases hp with
    | here h => exact ⟨[], e :: es, rfl, op, p, hi, h⟩
    | call h =>
      rename_i c k
      -- the next state has the rest of the program, one call further on if it is its turn
      have hnext : ∃ p', ((step B e s).processes i).running = some (op, p') ∧
          π.Comes T p' ((step B e s).views i) := by
        by_cases he : e = .move i
        · subst he
          refine ⟨k (B.exec i c s.shared).1, ?_, ?_⟩
          · rw [step, hi]
            simp
          · have hview : (step B (.move i) s).views i =
                π.note c (B.exec i c s.shared).1 (s.views i) := by
              rw [step, hi, hnote]
              simp [views]
            rw [hview]
            exact h _ (hanswer s op c k hes.1 hi)
        · have hsame := step_other B s hi he
          exact ⟨_, hsame ▸ hi, by rw [views, hsame]; exact .call h⟩
      obtain ⟨p', hi', hp'⟩ := hnext
      obtain ⟨es₁, es₂, rfl, hreach⟩ := ih hes.2 hi' hp' hidle
      exact ⟨e :: es₁, es₂, rfl, hreach⟩

/-- A process that performs an operation comes to what the program of the operation comes to. -/
lemma Performs.reaches {γ : Type} {T : Prog Res ε γ → Prop} {π : Protocol Res L}
    (hnote : π.note = B.note) {ok : SessionEvent Op X → Sessions Res ε α Op L S → Prop} {i : ℕ}
    (hanswer : ∀ s op c k, ok (.move i) s → (s.processes i).running = some (op, .call c k) →
      π.answers (s.views i) c (B.exec i c s.shared).1)
    {es : List (SessionEvent Op X)} {op : Op} (hes : Admissible (step B) ok es s)
    (hperforms : Performs B i op es s) (hp : ∀ l, π.Comes T (B.program i op) l) :
    Reaches B T i es s := by
  obtain ⟨es₁, es₂, es₃, rfl, hidle, hend⟩ := hperforms
  rw [after_append] at hend
  have hstart : ((step B (.invoke i op) (after (step B) es₁ s)).processes i).running =
      some (op, B.program i op) := by
    rw [step, hidle]
    simp [set]
  have hrest := (admissible_append.mp (admissible_append.mp hes).2.2).1
  obtain ⟨es₄, es₅, rfl, hreach⟩ := reaches_of_comes hnote hanswer hrest hstart (hp _) hend
  refine ⟨es₁ ++ .invoke i op :: es₄, es₅ ++ es₃, by simp, ?_⟩
  rw [after_append]
  exact hreach

end Sessions

end Orchestrator.Lib
