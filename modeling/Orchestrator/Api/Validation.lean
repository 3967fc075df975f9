/-
# Request validation

The validators of `internal/api/validation.go`: what the HTTP handlers check before they call
the service.  The result is the text of the error, if
there is one.
-/
import Orchestrator.Service.Rollout

namespace Orchestrator

/-- The first failing check of a list, in order. -/
def firstFailure : List (Bool × String) → Option String
  | [] => none
  | (bad, message) :: rest => if bad then some message else firstFailure rest

def validateNode (n : Node) : Option String :=
  firstFailure [
    (blank n.id, "node id is required"),
    (n.capacity.milliCPU < 0 || n.capacity.memoryMB < 0, "node capacity cannot be negative"),
    (n.allocatable.milliCPU < 0 || n.allocatable.memoryMB < 0,
      "node allocatable cannot be negative")]

/-- The strategies that validation accepts. -/
def knownStrategy (s : RolloutStrategyType) : Bool :=
  s = .unset || s = .rollingUpdate || s = .canary

def validateDeploymentSpec (spec : DeploymentSpec) : Option String :=
  firstFailure [
    (blank spec.name, "deployment name is required"),
    (blank spec.image, "deployment image is required"),
    (spec.replicas < 0, "replicas cannot be negative"),
    (spec.priority < 0, "priority cannot be negative"),
    (spec.resources.milliCPU < 0 || spec.resources.memoryMB < 0,
      "resource requests cannot be negative"),
    ((spec.tolerations.getD []).any fun t => blank t.key, "toleration key is required"),
    (spec.livenessProbe.initialDelaySeconds < 0 || spec.readinessProbe.initialDelaySeconds < 0,
      "probe initialDelaySeconds cannot be negative"),
    (spec.livenessProbe.failureThreshold < 0 || spec.readinessProbe.failureThreshold < 0,
      "probe failureThreshold cannot be negative"),
    (!knownStrategy spec.rollout.strategy, "rollout strategy must be RollingUpdate or Canary"),
    (spec.rollout.rollingUpdate.maxUnavailable < 0 || spec.rollout.rollingUpdate.maxSurge < 0,
      "rollout maxUnavailable and maxSurge cannot be negative"),
    (spec.rollout.canary.enabled &&
        (spec.rollout.canary.percentage ≤ 0 || spec.rollout.canary.percentage > 100),
      "canary percentage must be between 1 and 100"),
    (spec.rollout.progressDeadlineSeconds < 0,
      "rollout progressDeadlineSeconds cannot be negative"),
    (spec.rollout.maxFailedWorkloads < 0, "rollout maxFailedWorkloads cannot be negative")]

/-- The checks on one port of a service. -/
def ServicePort.checks (p : ServicePort) : List (Bool × String) := [
  (p.port ≤ 0 || p.port > 65535, "service port must be between 1 and 65535"),
  (p.targetPort ≤ 0 || p.targetPort > 65535, "service targetPort must be between 1 and 65535"),
  (p.protocol ≠ .tcp && p.protocol ≠ .udp, "service protocol must be TCP or UDP"),
  (p.nodePort ≠ 0 && (p.nodePort < 30000 || p.nodePort > 32767),
    "service nodePort must be between 30000 and 32767")]

def validateServiceSpec (spec : ServiceSpec) : Option String :=
  firstFailure <| [
    (blank spec.name, "service name is required"),
    (spec.selector.rows.isEmpty, "service selector is required"),
    (spec.ports.isEmpty, "service ports are required")] ++
    spec.ports.flatMap ServicePort.checks ++ [
    (spec.type ≠ .unset && spec.type ≠ .clusterIP && spec.type ≠ .nodePort,
      "service type must be ClusterIP or NodePort"),
    (spec.type = .nodePort && spec.ports.any fun p => p.nodePort = 0,
      "nodePort is required for NodePort services")]

def validateAutoscalerPolicy (p : AutoscalerPolicy) : Option String :=
  firstFailure [
    (blank p.deploymentID, "deploymentId is required"),
    (p.minReplicas < 1, "minReplicas must be >= 1"),
    (p.maxReplicas < p.minReplicas, "maxReplicas must be >= minReplicas"),
    (p.targetCPUUtilization < 0 || p.targetMemoryUtilization < 0 || p.targetCustomMetricValue < 0,
      "target utilization values cannot be negative"),
    (p.customMetricName ≠ "" && p.targetCustomMetricValue ≤ 0,
      "targetCustomMetricValue must be > 0 when customMetricName is set"),
    (p.stabilizationWindowSec < 0 || p.scaleUpCooldownSec < 0 || p.scaleDownCooldownSec < 0,
      "stabilization and cooldown values cannot be negative"),
    (p.predictiveLookbackSamples < 0, "predictiveLookbackSamples cannot be negative"),
    (p.predictiveScaleFactor < 0, "predictiveScaleFactor cannot be negative"),
    (p.predictiveScalingEnabled && p.predictiveLookbackSamples = 1,
      "predictiveLookbackSamples must be >= 2 when predictiveScalingEnabled is true")]

def validateDeploymentMetricSample (m : DeploymentMetricSample) : Option String :=
  firstFailure <| [
    (blank m.deploymentID, "deploymentId is required"),
    (m.cpuUsage < 0 || m.memoryUsage < 0, "cpuUsage and memoryUsage cannot be negative")] ++
    m.custom.rows.flatMap fun (k, v) => [
      (blank k, "custom metric name cannot be empty"),
      (decide (v < 0), "custom metric value cannot be negative")]

/-- An accepted request passes every check. -/
lemma firstFailure_eq_none_iff {checks : List (Bool × String)} :
    firstFailure checks = none ↔ ∀ c ∈ checks, c.1 = false := by
  induction checks with
  | nil => simp [firstFailure]
  | cons c rest ih =>
    obtain ⟨bad, message⟩ := c
    cases bad with
    | true => simp [firstFailure]
    | false => simp [firstFailure, ih]

end Orchestrator
