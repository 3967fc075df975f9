/-
# Interleaved programs

Programs as the threads of a system with a shared state: a step of the system lets one
thread make its next call, if the call can be made in the present state (a mutex that
somebody holds cannot be acquired).  Between two calls of a thread the others can make any
number of calls.

Properties of such a system are established thread by thread: `Orchestrator.Lib.Protocol` has the
judgement about one program and the rule about runs.
-/
import Mathlib.Data.Nat.Notation
import Orchestrator.Lib.Prog
import Orchestrator.Lib.Run

namespace Orchestrator.Lib

/-- What the calls of the threads do to the state they share. -/
structure Machine {C : Type} (Res : C → Type) (S : Type) where
  /-- The answer to a call of a thread, and its effect. -/
  exec : ℕ → (c : C) → S → Res c × S
  /-- Whether a thread can make a call. -/
  enabled : ℕ → C → S → Bool

/-- Threads and the state they share. -/
structure Pool {C : Type} (Res : C → Type) (ε α S : Type) where
  shared : S
  /-- What is left of the program of each thread. -/
  threads : ℕ → Prog Res ε α

variable {C : Type} {Res : C → Type} {ε α S : Type}

/-- Thread `i` makes its next call, if it has one and can make it. -/
def Machine.step (M : Machine Res S) (i : ℕ) (p : Pool Res ε α S) : Pool Res ε α S :=
  match p.threads i with
  | .ret _ => p
  | .call c k =>
    if M.enabled i c p.shared then
      { shared := (M.exec i c p.shared).2
        threads := fun j => if j = i then k (M.exec i c p.shared).1 else p.threads j }
    else p

/-- The next call of thread `i`, if it has one, meets a condition. -/
def Pool.Next (cond : ℕ → C → S → Prop) (i : ℕ) (p : Pool Res ε α S) : Prop :=
  match p.threads i with
  | .ret _ => True
  | .call c _ => cond i c p.shared

instance {cond : ℕ → C → S → Prop} [∀ i c s, Decidable (cond i c s)] (i : ℕ)
    (p : Pool Res ε α S) : Decidable (p.Next cond i) := by
  unfold Pool.Next
  split <;> infer_instance

/-- What a step does. -/
lemma Machine.step_cases (M : Machine Res S) (i : ℕ) (p : Pool Res ε α S) :
    M.step i p = p ∨ ∃ c k, p.threads i = .call c k ∧ M.enabled i c p.shared = true ∧
      (M.step i p).shared = (M.exec i c p.shared).2 ∧
      (M.step i p).threads i = k (M.exec i c p.shared).1 ∧
      ∀ j, j ≠ i → (M.step i p).threads j = p.threads j := by
  unfold Machine.step
  split
  · exact .inl rfl
  · next c k hc =>
    split
    · next he => exact .inr ⟨c, k, hc, he, rfl, if_pos rfl, fun j hj => if_neg hj⟩
    · exact .inl rfl

end Orchestrator.Lib
