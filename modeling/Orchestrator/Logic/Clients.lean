/-
# Concurrent clients of the store

Operations of the control plane as threads over one store: every store call is atomic, a
section that holds `o.mu` excludes the others, and each thread has its own readings of the
clock, of the random source and of the plugins.
-/
import Orchestrator.Lib.Protocol
import Orchestrator.Logic.Frames

namespace Orchestrator

open Lib

/-- What the threads share. -/
structure Commons where
  store : Store
  /-- How many readings each thread has made. -/
  ticks : ℕ → ℕ
  /-- The thread that holds `o.mu`. -/
  owner : Option ℕ

namespace Commons

/-- The store before any thread has moved. -/
def start (store : Store) : Commons := ⟨store, fun _ => 0, none⟩

/-- The store and the readings of thread `i`. -/
def world (s : Commons) (i : ℕ) : World := ⟨s.store, s.ticks i⟩

/-- The holder of the mutex after a call of thread `i`. -/
def ownerAfter (s : Commons) (i : ℕ) : Call → Option ℕ
  | .lock => some i
  | .unlock => none
  | _ => s.owner

end Commons

/-- The threads over the store, with the readings `env i` of thread `i`. -/
def clients (env : ℕ → Env) : Machine Call.Res Commons where
  exec i c s := ((exec (env i) c (s.world i)).1,
    { store := (exec (env i) c (s.world i)).2.store
      ticks := fun j => if j = i then (exec (env i) c (s.world i)).2.tick else s.ticks j
      owner := s.ownerAfter i c })
  enabled _ c s :=
    match c with
    | .lock => s.owner.isNone
    | _ => true

/-- Threads that are about to start. -/
def launch {L : Type} (programs : ℕ → M Unit) (store : Store) (view : L) :
    Pool Call.Res Err Unit (Protocol.Viewed Commons L) where
  shared := ⟨.start store, fun _ => view⟩
  threads := programs

end Orchestrator
