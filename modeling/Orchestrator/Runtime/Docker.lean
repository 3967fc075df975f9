/-
# The Docker runtime

`RunWorkload` and `ListManagedWorkloads` of `internal/runtime/docker.go`, over the calls of an
engine.  Its state is the list of its containers; `Engine.Lawful` says what is assumed of the calls.
-/
import Orchestrator.Worker.Runner

namespace Orchestrator

open Lib

/-- A container of the engine. -/
structure EngineContainer where
  id : String
  name : String
  /-- The label `orchestrator.workload`. -/
  workload : String

/-- What befalls one call of `RunWorkload`: the errors of its steps that are not due to the
containers there are, if any, and the id of a new container. -/
structure EngineOutcome where
  pullError : Option String := none
  createError : Option String := none
  startError : Option String := none
  id : String

/-- The calls of the engine, with the containers that there are then.  A pull and a start return an
error, if any. -/
structure Engine where
  imagePull : EngineOutcome → List EngineContainer → Option String × List EngineContainer
  containerCreate : EngineOutcome → (name workload : String) → List EngineContainer →
    Except String String × List EngineContainer
  containerStart : EngineOutcome → (id : String) → List EngineContainer →
    Option String × List EngineContainer

/-- What is assumed of the engine. -/
structure Engine.Lawful (E : Engine) : Prop where
  pull : ∀ x cs, E.imagePull x cs = (x.pullError, cs)
  create : ∀ x name workload cs, (∀ c ∈ cs, c.name ≠ name) → x.createError = none →
    E.containerCreate x name workload cs = (.ok x.id, cs ++ [⟨x.id, name, workload⟩])
  /-- In particular, a name in use is refused. -/
  refuse : ∀ x name workload cs, (∃ c ∈ cs, c.name = name) ∨ x.createError ≠ none →
    ∃ e, E.containerCreate x name workload cs = (.error e, cs)
  start : ∀ x id cs, E.containerStart x id cs = (x.startError, cs)

/-- `RunWorkload`. -/
def runWorkload (E : Engine) (workloadID : String) (x : EngineOutcome) (cs : List EngineContainer) :
    Except String String × List EngineContainer :=
  match E.imagePull x cs with
  | (some e, cs) => (.error ("image pull: " ++ e), cs)
  | (none, cs) =>
    match E.containerCreate x ("orch-" ++ workloadID) workloadID cs with
    | (.error e, cs) => (.error ("container create: " ++ e), cs)
    | (.ok id, cs) =>
      match E.containerStart x id cs with
      | (some e, cs) => (.error ("container start: " ++ e), cs)
      | (none, cs) => (.ok id, cs)

def listManagedWorkloads (cs : List EngineContainer) : StrMap :=
  Table.ofList ((cs.filter fun c => !blank c.workload).map fun c => (c.workload, c.id))

/-- The containers after the first `k` attempts of `runWithBackoff`. -/
def engineAfter (E : Engine) (workloadID : String) (x : ℕ → EngineOutcome)
    (cs : List EngineContainer) : ℕ → List EngineContainer
  | 0 => cs
  | k + 1 => (runWorkload E workloadID (x k) (engineAfter E workloadID x cs k)).2

/-- The container that the `k`-th attempt starts. -/
def startedBy (E : Engine) (workloadID : String) (x : ℕ → EngineOutcome) (cs : List EngineContainer)
    (k : ℕ) : Option String :=
  (runWorkload E workloadID (x k) (engineAfter E workloadID x cs k)).1.toOption

end Orchestrator
