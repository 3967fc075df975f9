/-
# The controller manager

At every tick a manager tries to get the controller lease, and if it has it reconciles its shard:
the deployments whose id hashes to the index of the shard and, on the first shard, everything
else.
-/
import Orchestrator.Service.Controller
import Orchestrator.Service.Leadership

namespace Orchestrator

open Lib

/-! ### Shards -/

/-- The 32-bit FNV-1a hash of `hash/fnv`. -/
def fnv32a (s : String) : UInt32 :=
  s.toByteArray.data.foldl (fun h b => (h ^^^ b.toUInt32) * 16777619) 2166136261

example : (fnv32a "a").toNat = 0xe40c292c := by decide +kernel

/-- The count of the shards as the hash is divided by it, `uint32(shardCount)`. -/
def shardModulus (shardCount : ℤ) : ℕ := (shardCount % 4294967296).toNat

/-- `belongsToShard`; a division by zero is a panic, which stands here as an error. -/
def belongsToShard (id : String) (shardIndex shardCount : ℤ) : M Bool :=
  if shardModulus shardCount = 0 then Prog.fail (.message "integer divide by zero")
  else pure (decide (((fnv32a id).toNat % shardModulus shardCount : ℕ) = shardIndex))

/-- The loop body of `ReconcileShard`, on the deployment as it was listed. -/
def reconcileIfOwned (o : Config) (shardIndex shardCount : ℤ) (dep : Deployment) : M Unit := do
  if ← belongsToShard dep.id shardIndex shardCount then reconcileListed o dep
  else pure ()

/-- What the first shard does besides; the first error ends it. -/
def reconcileClusterWide (o : Config) : M Unit := do
  reconcileAutoscaling o
  evaluateWorkloadHealth
  reconcileAllServiceEndpoints
  reconcilePVCBindings
  reconcileJobsAndCron o

def reconcileShard (o : Config) (shardIndex shardCount : ℤ) : M Unit := do
  if shardCount ≤ 1 then reconcileAll o
  else do
    let deps ← StateStore.listDeployments
    Prog.forEach deps (reconcileIfOwned o shardIndex shardCount)
    Prog.onlyIf (shardIndex = 0) (reconcileClusterWide o)
    updateNodeHealth o

/-! ### Managers -/

structure Manager where
  controllerID : String
  shardIndex : ℤ
  shardTotal : ℤ
  /-- In nanoseconds. -/
  lease : ℤ
deriving DecidableEq, Repr

/-- `NewManager`. -/
def newManager (controllerID : String) (shardIndex shardTotal lease : ℤ) : Manager :=
  let shardTotal := if shardTotal ≤ 0 then 1 else shardTotal
  let shardIndex := if shardIndex < 0 then 0 else shardIndex
  { controllerID := controllerID
    shardIndex := if shardIndex ≥ shardTotal then shardIndex % shardTotal else shardIndex
    shardTotal := shardTotal
    lease := if lease ≤ 0 then defaultLeaseDuration else lease }

/-- One tick of `Run`; errors are logged. -/
def Manager.tick (m : Manager) (o : Config) : M Unit := do
  match ← (tryAcquireControllerLeadership m.controllerID m.lease).attempt with
  | .error _ => pure ()
  | .ok (leader, _) =>
    if leader then (reconcileShard o m.shardIndex m.shardTotal).ignore else pure ()

/-- The end of `Run`. -/
def Manager.stop (m : Manager) : M Unit := (releaseControllerLeadership m.controllerID).ignore

/-- A manager is made with the index and the count that it is asked for, if they fit. -/
lemma newManager_shard {controllerID : String} {i n lease : ℤ} (hi : 0 ≤ i) (hn : i < n) :
    (newManager controllerID i n lease).shardIndex = i ∧
      (newManager controllerID i n lease).shardTotal = n := by
  have hpos : ¬ n ≤ 0 := by omega
  have hneg : ¬ i < 0 := by omega
  have hfits : ¬ i ≥ n := by omega
  simp only [newManager, hpos, hneg, hfits, if_false, and_self]

end Orchestrator
