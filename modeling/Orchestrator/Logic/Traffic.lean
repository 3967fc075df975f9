/-
# Service traffic: runs and protocol

Run from start to end, the programs for service traffic are the handlers of the server.
-/
import Mathlib
import Orchestrator.Api.Traffic

namespace Orchestrator

open Lib

variable {env : Env} {s : HTTPServer} {α : Type}

/-! ### One request from start to end -/

/-- What a handler that is passed the memory leaves behind. -/
def Memory.outcome (m : Memory) : Except Err (α × Memory) × World → Except Err α × ServerState
  | (.ok (a, m'), w) => (.ok a, ⟨w, m'⟩)
  | (.error e, w) => (.error e, ⟨w, m⟩)

/-- Run from the store and the memory, the program does what the handler says. -/
def Agrees (env : Env) (s : HTTPServer) (w : World) (m : Memory) (p : Traffic α)
    (q : M (α × Memory)) : Prop :=
  p.run (execTraffic env s) ⟨w, m⟩ = m.outcome (q.run (exec env) w)

lemma Agrees.ite {w : World} {m : Memory} {p p' : Traffic α} {q q' : M (α × Memory)} {c : Prop}
    [Decidable c] (h : c → Agrees env s w m p q) (h' : ¬ c → Agrees env s w m p' q') :
    Agrees env s w m (if c then p else p') (if c then q else q') := by
  split
  · exact h ‹c›
  · exact h' ‹¬ c›

end Orchestrator
