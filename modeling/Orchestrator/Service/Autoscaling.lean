/-
# Autoscaling

`reconcileAutoscaling`: averages of the recent samples of a deployment, a prediction from
their trend if the policy asks for one, the replica count this recommends, and the
cooldown that can hold a change back.  Every floating-point operation is rounded by `fl`.
-/
import Orchestrator.Service.Rollout

namespace Orchestrator

open Lib

section Metrics

variable (fl : ℚ → ℚ)

/-- `s.Custom[name]`: zero when the sample does not have the metric. -/
def DeploymentMetricSample.customValue (s : DeploymentMetricSample) (name : String) : ℚ :=
  ((s.custom.get name).map Prod.snd).getD 0

/-- CPU, memory and custom metric, in this order. -/
structure Usage where
  cpu : ℚ
  mem : ℚ
  custom : ℚ
deriving DecidableEq, Repr

/-- The sum of a column of the samples, rounded after each addition. -/
def sumColumn (samples : List DeploymentMetricSample) (f : DeploymentMetricSample → ℚ) : ℚ :=
  samples.foldl (fun acc s => fl (acc + f s)) 0

def aggregateMetrics (samples : List DeploymentMetricSample) (customMetric : String) : Usage :=
  if samples = [] then { cpu := 0, mem := 0, custom := 0 }
  else
    let count := fl samples.length
    let custom := if customMetric = "" then 0
      else sumColumn fl samples fun s => s.customValue customMetric
    { cpu := fl (sumColumn fl samples (·.cpuUsage) / count)
      mem := fl (sumColumn fl samples (·.memoryUsage) / count)
      custom := fl (custom / count) }

/-- The value that the line through the first and the last sample reaches `factor` steps
later, not below zero. -/
def extrapolate (first last steps factor : ℚ) : ℚ :=
  max 0 (fl (last + fl (fl (fl (last - first) / steps) * factor)))

def predictMetrics (samples : List DeploymentMetricSample) (customMetric : String) (lookback : ℤ)
    (factor : ℚ) : Usage :=
  let ordered := sortStable (fun a b => decide (a.timestamp < b.timestamp)) samples
  let lookback := if lookback ≤ 1 then 2 else lookback
  let factor := if factor ≤ 0 then 1 else factor
  let recent := ordered.drop (ordered.length - lookback.toNat)
  match recent.head?, recent.getLast? with
  | some first, some last =>
    if recent.length < 2 then { cpu := 0, mem := 0, custom := 0 }
    else
      let steps := fl (recent.length - 1 : ℕ)
      { cpu := extrapolate fl first.cpuUsage last.cpuUsage steps factor
        mem := extrapolate fl first.memoryUsage last.memoryUsage steps factor
        custom := if customMetric = "" then 0
          else extrapolate fl (first.customValue customMetric) (last.customValue customMetric)
            steps factor }
  | _, _ => { cpu := 0, mem := 0, custom := 0 }

/-- The samples inside the stabilization window, or all of them if there are none. -/
def windowSamples (now : Time) (p : AutoscalerPolicy) (samples : List DeploymentMetricSample) :
    List DeploymentMetricSample :=
  let windowStart := now + wrap64 (-p.stabilizationWindowSec.toInt * 1000000000)
  let inWindow := samples.filter fun s => windowStart ≤ s.timestamp
  if inWindow = [] then samples else inWindow

/-- The usage a policy goes by: the averages, raised to the prediction if it is higher. -/
def observedUsage (now : Time) (p : AutoscalerPolicy) (samples : List DeploymentMetricSample) :
    Usage :=
  let window := windowSamples now p samples
  let avg := aggregateMetrics fl window p.customMetricName
  if p.predictiveScalingEnabled then
    let pred := predictMetrics fl window p.customMetricName p.predictiveLookbackSamples
      p.predictiveScaleFactor
    { cpu := max avg.cpu pred.cpu, mem := max avg.mem pred.mem,
      custom := max avg.custom pred.custom }
  else avg

/-- `int(x)` for a floating-point number: outside the range of `int` the conversion
instruction of amd64 yields the least value. -/
def floatToInt (x : ℤ) : ℤ := if -2 ^ 63 ≤ x ∧ x < 2 ^ 63 then x else -2 ^ 63

/-- `int(math.Ceil(float64(current) * (usage / target)))`. -/
def replicaCandidate (current : ℤ) (usage target : ℚ) : ℤ :=
  floatToInt ⌈fl (fl current * fl (usage / target))⌉

/-- The step for CPU and memory: scale up in proportion, or down by one below 65 percent
of the target. -/
def recommendFor (current recommended : ℤ) (usage target : ℚ) : ℤ :=
  if target > 0 ∧ usage > 0 then
    let recommended := max recommended (replicaCandidate fl current usage target)
    if usage < fl (target * fl (65 / 100)) then min recommended (current - 1) else recommended
  else recommended

/-- The replica count that a policy recommends. -/
def recommendedReplicas (p : AutoscalerPolicy) (usage : Usage) (current : ℤ) : ℤ :=
  let r := recommendFor fl current current usage.cpu p.targetCPUUtilization
  let r := recommendFor fl current r usage.mem p.targetMemoryUtilization
  let r :=
    if blank p.customMetricName = false ∧ p.targetCustomMetricValue > 0 ∧ usage.custom > 0 then
      max r (replicaCandidate fl current usage.custom p.targetCustomMetricValue)
    else r
  max p.minReplicas.toInt (min p.maxReplicas.toInt r)

end Metrics

/-- The deployment with the new replica count. -/
def Deployment.scaled (dep : Deployment) (recommended : ℤ) (now : Time) : Deployment :=
  let message := "autoscaler adjusted replicas from " ++ toString dep.spec.replicas.toInt ++
    " to " ++ toString recommended
  let dep' := { dep with
    spec := { dep.spec with replicas := Int64.ofInt recommended }
    generation := dep.generation + 1
    status := .pending
    rolloutStatus := { dep.rolloutStatus with
      phase := .autoscaling
      message := message
      startedAt := if dep.rolloutStatus.startedAt.isZero then now else dep.rolloutStatus.startedAt
      lastUpdatedAt := now }
    updatedAt := now }
  dep'.condition .progressing true "AutoscalerAdjusting" message now

/-- Whether the cooldown of a policy holds a change back. -/
def inCooldown (p : AutoscalerPolicy) (up : Bool) (now : Time) : Bool :=
  let cooldown := seconds (if up then p.scaleUpCooldownSec else p.scaleDownCooldownSec)
  !p.lastScaleAt.isZero && Time.sub now p.lastScaleAt < cooldown

/-- The loop body of `reconcileAutoscaling`. -/
def autoscalePolicy (o : Config) (now : Time) (p : AutoscalerPolicy) : M Unit := do
  match ← (StateStore.getDeployment p.deploymentID).attempt with
  | .error _ => pure ()
  | .ok dep =>
    let samples ← StateStore.listDeploymentMetrics dep.id 200
    let current := dep.spec.replicas.toInt
    let recommended := recommendedReplicas o.fl p (observedUsage o.fl now p samples) current
    let up := decide (current < recommended)
    if samples = [] ∨ recommended = current ∨ inCooldown p up now then pure ()
    else do
      StateStore.updateDeployment (dep.scaled recommended now)
      StateStore.upsertAutoscalerPolicy { p with
        lastScaleAt := now
        lastScaleDirection := if up then "up" else "down"
        updatedAt := now }

def reconcileAutoscaling (o : Config) : M Unit := do
  let policies ← StateStore.listAutoscalerPolicies
  let now ← timeNow
  Prog.forEach policies (autoscalePolicy o now)

end Orchestrator
