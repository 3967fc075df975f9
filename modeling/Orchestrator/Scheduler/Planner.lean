/-
# The scheduler

`internal/scheduler/scheduler.go`: the filters of `SelectNode` (readiness, resources,
taints, affinity), the two built-in scores and the external one, and the choice of the
first node of least score.  A score is a floating-point number; it is computed in `ℚ` with
the rounding function `fl` applied to the exact value of every operation.
-/
import Orchestrator.Lib.Sort
import Orchestrator.Store.Keys

namespace Orchestrator

open Lib

inductive Policy
  | leastLoaded
  | bestFit
deriving DecidableEq, Repr

/-- `Planner`; a policy without a registered plugin has `none`. -/
structure Planner where
  policy : Policy
  plugins : Policy → Option (Node → Resource → ℚ)
  externalPluginCmd : String

section Scores

variable (fl : ℚ → ℚ)

/-- `float64(x)` for an `int64`. -/
def float64 (x : Int64) : ℚ := fl x.toInt

def leastLoadedScore (n : Node) (req : Resource) : ℚ :=
  let allocCPU := max 1 (float64 fl n.allocatable.milliCPU)
  let allocMem := max 1 (float64 fl n.allocatable.memoryMB)
  let cpuAfter := fl (float64 fl (n.used.milliCPU + req.milliCPU) / allocCPU)
  let memAfter := fl (float64 fl (n.used.memoryMB + req.memoryMB) / allocMem)
  let spreadPenalty := |fl (cpuAfter - memAfter)|
  fl (fl (fl (cpuAfter + memAfter) * fl (1 / 2)) + fl (spreadPenalty * fl (15 / 100)))

def bestFitScore (n : Node) (req : Resource) : ℚ :=
  let allocCPU := max 1 (float64 fl n.allocatable.milliCPU)
  let allocMem := max 1 (float64 fl n.allocatable.memoryMB)
  let leftCPU := float64 fl ((n.allocatable.milliCPU - n.used.milliCPU) - req.milliCPU)
  let leftMem := float64 fl ((n.allocatable.memoryMB - n.used.memoryMB) - req.memoryMB)
  let leftCPU := fl (max 0 leftCPU / allocCPU)
  let leftMem := fl (max 0 leftMem / allocMem)
  let leftoverScore := fl (fl (leftCPU + leftMem) * fl (1 / 2))
  let balancePenalty := fl (|fl (leftCPU - leftMem)| * fl (1 / 10))
  fl (leftoverScore + balancePenalty)

/-- `NewPlanner`. -/
def newPlanner (policy : String) : Planner :=
  let raw := trimSpace policy
  let isExternal := hasPrefix (toLower raw) "external:"
  let pluginCmd := if isExternal then trimSpace (trimPrefix raw "external:") else ""
  let raw := if isExternal then "external" else raw
  { policy := if trimSpace (toLower raw) = "best-fit" then .bestFit else .leastLoaded
    plugins := fun
      | .leastLoaded => some (leastLoadedScore fl)
      | .bestFit => some (bestFitScore fl)
    externalPluginCmd := pluginCmd }

/-- `scoreNode`; `ext` is the answer of the external plugin. -/
def Planner.scoreNode (p : Planner) (ext : Node → Resource → Option ℚ) (n : Node)
    (req : Resource) : ℚ :=
  let builtin :=
    match p.plugins p.policy with
    | some plugin => plugin n req
    | none =>
      match p.plugins .leastLoaded with
      | some plugin => plugin n req
      | none => leastLoadedScore fl n req
  if p.externalPluginCmd = "" then builtin else (ext n req).getD builtin

end Scores

/-! ### Filters -/

def fits (n : Node) (req : Resource) : Bool :=
  let availCPU := n.allocatable.milliCPU - n.used.milliCPU
  let availMem := n.allocatable.memoryMB - n.used.memoryMB
  req.milliCPU ≤ availCPU && req.memoryMB ≤ availMem

/-- Whether one toleration covers a taint: the body of the inner loop of
`toleratesNodeTaints`. -/
def Toleration.covers (tol : Toleration) (taint : Taint) : Bool :=
  !blank tol.key && tol.key = taint.key && (blank tol.effect || tol.effect = taint.effect) &&
    (toLower (trimSpace tol.operator) = "exists" || blank tol.value || tol.value = taint.value)

def toleratesNodeTaints (n : Node) (tolerations : List Toleration) : Bool :=
  n.taints.all fun taint => tolerations.any fun tol => tol.covers taint

def matchesAffinity (n : Node) (labels : StrMap) : Bool :=
  (labels.rows.all fun (k, v) =>
    !hasPrefix k "affinity." || n.labels.lookup (trimPrefix k "affinity.") = v) &&
  (labels.rows.all fun (k, v) =>
    !hasPrefix k "anti-affinity." || n.labels.lookup (trimPrefix k "anti-affinity.") ≠ v)

/-- A node that passes all filters of `SelectNode`. -/
def schedulable (req : Resource) (labels : StrMap) (tolerations : List Toleration) (n : Node) :
    Bool :=
  n.status = .ready && fits n req && toleratesNodeTaints n tolerations && matchesAffinity n labels

/-- `SelectNode`: of the nodes that pass the filters, the first one of least score. -/
def Planner.selectNode (fl : ℚ → ℚ) (p : Planner) (ext : Node → Resource → Option ℚ)
    (nodes : List Node) (req : Resource) (labels : StrMap) (tolerations : List Toleration) :
    Option Node :=
  let candidates := (nodes.filter (schedulable req labels tolerations)).map fun n =>
    (n, p.scoreNode fl ext n req)
  (sortStable (fun a b => decide (a.2 < b.2)) candidates).head?.map Prod.fst

/-! ### What a selection is -/

section Selection

variable {fl : ℚ → ℚ} {p : Planner} {ext : Node → Resource → Option ℚ} {nodes : List Node}
  {req : Resource} {labels : StrMap} {tolerations : List Toleration}

/-- A selected node is one of the given nodes and passes the filters. -/
lemma Planner.selectNode_some {n : Node}
    (h : p.selectNode fl ext nodes req labels tolerations = some n) :
    n ∈ nodes ∧ schedulable req labels tolerations n = true := by
  obtain ⟨⟨m, s⟩, hhead, rfl⟩ := Option.map_eq_some_iff.mp h
  have hmem := List.mem_of_mem_head? hhead
  rw [mem_sortStable, List.mem_map] at hmem
  obtain ⟨m', hm', heq⟩ := hmem
  obtain ⟨rfl, -⟩ := Prod.mk.inj heq
  exact List.mem_filter.mp hm'

/-- A selection fails exactly when no node passes the filters. -/
lemma Planner.selectNode_eq_none_iff :
    p.selectNode fl ext nodes req labels tolerations = none ↔
      ∀ n ∈ nodes, schedulable req labels tolerations n = false := by
  rw [Planner.selectNode, Option.map_eq_none_iff, List.head?_eq_none_iff, ← List.length_eq_zero_iff,
    length_sortStable, List.length_map, List.length_eq_zero_iff, List.filter_eq_nil_iff]
  simp

end Selection

end Orchestrator
