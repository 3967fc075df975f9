/-
# Nodes

Registration, heartbeats, the health pass with its remediation, draining and removal, and
the rebalancing that follows a registration.
-/
import Orchestrator.Service.Placement

namespace Orchestrator

open Lib

/-! ### Remediation and rebalancing -/

def remediateUnhealthyNode (nodeID : String) : M Unit := do
  let workloads ← StateStore.listWorkloads
  Prog.forEach workloads fun w => do
    if w.nodeID = nodeID ∧ (w.status = .running ∨ w.status = .pending) then terminateWorkload w
    else pure ()

/-- The utilization by which `rebalanceWorkloads` compares nodes. -/
def combinedUtilization (fl : ℚ → ℚ) (n : Node) : ℚ :=
  safeUtilization fl (n.used.milliCPU + n.used.memoryMB)
    (n.allocatable.milliCPU + n.allocatable.memoryMB)

/-- The most and the least utilized node, if there are at least two nodes. -/
def heaviestAndLightest (fl : ℚ → ℚ) (nodes : List Node) : Option (Node × Node) :=
  let sorted := sortStable
    (fun a b => decide (combinedUtilization fl b < combinedUtilization fl a)) nodes
  match sorted.head?, sorted.getLast? with
  | some heavy, some light => if nodes.length < 2 then none else some (heavy, light)
  | _, _ => none

def rebalanceWorkloads (o : Config) : M Unit := do
  let nodes ← StateStore.listNodes
  match heaviestAndLightest o.fl nodes with
  | none => pure ()
  | some (heavy, light) =>
    if o.fl (combinedUtilization o.fl heavy - combinedUtilization o.fl light) < 1 / 4 then pure ()
    else do
      let workloads ← StateStore.listWorkloads
      match workloads.find? fun w => w.nodeID = heavy.id && w.status = .running with
      | some w => terminateWorkload w
      | none => pure ()

/-! ### Registration and heartbeats -/

/-- A node with the defaults that `RegisterNode` fills in. -/
def Node.withDefaults (node : Node) : Node :=
  let capacity : Resource :=
    { milliCPU := if node.capacity.milliCPU = 0 then 2000 else node.capacity.milliCPU
      memoryMB := if node.capacity.memoryMB = 0 then 4096 else node.capacity.memoryMB }
  { node with
    capacity := capacity
    allocatable :=
      { milliCPU := if node.allocatable.milliCPU = 0 then capacity.milliCPU
                    else node.allocatable.milliCPU
        memoryMB := if node.allocatable.memoryMB = 0 then capacity.memoryMB
                    else node.allocatable.memoryMB }
    status := .ready }

def registerNode (o : Config) (node : Node) : M Unit := do
  if blank node.id then Prog.fail (.message "node id is required")
  else do
    let evaluatedAt ← timeNow
    let lastSeen ← timeNow
    StateStore.upsertNode { node.withDefaults with
      health := { failureClass := .healthy, lastEvaluatedAt := evaluatedAt }
      lastSeen := lastSeen }
    (rebalanceWorkloads o).ignore

def heartbeatNode (nodeID : String) (used : Resource) : M Unit := do
  let node ← StateStore.getNode nodeID
  let lastSeen ← timeNow
  let evaluatedAt ← timeNow
  StateStore.upsertNode { node with
    used := used
    status := .ready
    lastSeen := lastSeen
    health := { node.health with
      lastHeartbeatAgeSec := 0, consecutiveMissedTTL := 0, isolated := false, draining := false,
      failureClass := .healthy, reason := "", lastEvaluatedAt := evaluatedAt } }

/-! ### The health pass -/

/-- The health record and the status of a node, evaluated at time `now`. -/
def evaluateNode (o : Config) (now : Time) (n : Node) : Node :=
  let age := Time.sub now n.lastSeen
  let missed := age.tdiv o.nodeTTL
  let cpuUtil := safeUtilization o.fl n.used.milliCPU n.allocatable.milliCPU
  let memUtil := safeUtilization o.fl n.used.memoryMB n.allocatable.memoryMB
  let health : NodeHealth := { n.health with
    cpuUtilization := cpuUtil
    memoryUtilization := memUtil
    lastHeartbeatAgeSec := age.tdiv 1000000000
    consecutiveMissedTTL := missed
    lastEvaluatedAt := now }
  if missed ≥ 2 then
    { n with
      status := .down
      health := { health with
        failureClass := .critical, reason := "heartbeat missed for multiple TTL intervals",
        isolated := true, draining := true } }
  else if missed ≥ 1 then
    { n with
      status := .unknown
      health := { health with failureClass := .warning, reason := "heartbeat delay exceeds TTL" } }
  else if o.fl (9 / 10) < cpuUtil ∨ o.fl (9 / 10) < memUtil then
    { n with
      status := .ready
      health := { health with
        failureClass := .warning, reason := "node resource pressure above threshold" } }
  else
    { n with
      status := .ready
      health := { health with
        failureClass := .healthy, reason := "", isolated := false, draining := false } }

/-- The loop body of `updateNodeHealth`: a node that has just become critical is drained. -/
def updateOneNodeHealth (o : Config) (now : Time) (n : Node) : M Unit := do
  let n' := evaluateNode o now n
  StateStore.upsertNode n'
  if n'.health.failureClass = .critical ∧ n.health.failureClass ≠ .critical then
    remediateUnhealthyNode n'.id
  else pure ()

def updateNodeHealth (o : Config) : M Unit := do
  let nodes ← StateStore.listNodes
  let now ← timeNow
  Prog.forEach nodes (updateOneNodeHealth o now)

/-! ### Draining and removal -/

def drainNode (nodeID : String) : M Unit := do
  let node ← StateStore.getNode nodeID
  StateStore.upsertNode { node with
    health := { node.health with draining := true, isolated := true }, status := .unknown }
  remediateUnhealthyNode nodeID

def removeNode (nodeID : String) : M Unit := do
  drainNode nodeID
  let node ← StateStore.getNode nodeID
  StateStore.upsertNode { node with
    status := .down, health := { node.health with reason := "node removed" } }

end Orchestrator
