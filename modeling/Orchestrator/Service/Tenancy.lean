/-
# Services, namespaces and roles

The calls of the API that store services, namespaces, quotas, secrets, autoscaler policies,
metric samples, network policies, cron jobs and role bindings, and the lookup of the roles that
the stored bindings give a subject.
-/
import Orchestrator.Service.Volumes

namespace Orchestrator

open Lib

/-! ### Records of a namespace -/

/-- The namespace that a record without one is stored under. -/
def orDefault (nameSpace : String) : String := if blank nameSpace then "default" else nameSpace

/-- `allocateClusterIP`. -/
def allocateClusterIP (seed : ℤ) : String :=
  let v := seed.tmod 65534
  "10.96." ++ toString ((v.tdiv 254).tmod 254 + 1) ++ "." ++ toString (v.tmod 254 + 1)

def createService (spec : ServiceSpec) : M Service := do
  if blank spec.name then Prog.fail (.message "service name is required")
  else if spec.selector.rows = [] then Prog.fail (.message "service selector is required")
  else if spec.ports = [] then Prog.fail (.message "service ports are required")
  else do
    let spec := { spec with
      type := if spec.type = .unset then .clusterIP else spec.type
      nameSpace := orDefault spec.nameSpace }
    runAdmissionCheck
    ensureNamespaceExists spec.nameSpace
    let now ← timeNow
    let r ← randIntn
    let svc : Service :=
      { id := serviceID now r, spec := spec, clusterIP := allocateClusterIP now
        dnsRecordTTLSeconds := 30, createdAt := now, updatedAt := now }
    StateStore.createService svc
    reconcileServiceEndpoints svc.id
    pure svc

def createNamespace (ns : Namespace) : M Namespace := do
  if blank ns.name then Prog.fail (.message "namespace name is required")
  else do
    let now ← timeNow
    let ns := { ns with
      name := trimSpace ns.name
      tenant := if blank ns.tenant then "default" else ns.tenant
      createdAt := if ns.createdAt.isZero then now else ns.createdAt
      updatedAt := now }
    StateStore.createNamespace ns
    pure ns

def upsertNamespaceQuota (quota : NamespaceQuota) : M NamespaceQuota := do
  if blank quota.nameSpace then Prog.fail (.message "quota namespace is required")
  else do
    ensureNamespaceExists quota.nameSpace
    if quota.maxDeployments < 0 ∨ quota.maxMilliCPU < 0 ∨ quota.maxMemoryMB < 0 then
      Prog.fail (.message "quota values cannot be negative")
    else do
      StateStore.upsertNamespaceQuota quota
      StateStore.getNamespaceQuota quota.nameSpace

/-- `UpsertSecret`; the encryption, which may fail, is a parameter. -/
def upsertSecret (o : Config) (encryptSecretData : StrMap → Except String StrMap)
    (secret : Secret) : M Secret := do
  if blank secret.name then Prog.fail (.message "secret name is required")
  else do
    let secret := { secret with nameSpace := orDefault secret.nameSpace }
    ensureNamespaceExists secret.nameSpace
    match encryptSecretData secret.data with
    | .error e => Prog.fail (.message e)
    | .ok enc =>
      StateStore.upsertSecret { secret with data := enc }
      let out ← StateStore.getSecret secret.nameSpace secret.name
      pure { out with data := o.decryptSecretData out.data }

def listSecrets (o : Config) (nameSpace : String) : M (List Secret) := do
  let items ← StateStore.listSecrets (orDefault nameSpace)
  pure (items.map fun s => { s with data := o.decryptSecretData s.data })

def upsertNetworkPolicy (policy : NetworkPolicy) : M NetworkPolicy := do
  if blank policy.name then Prog.fail (.message "network policy name is required")
  else if policy.podSelector.rows = [] then
    Prog.fail (.message "network policy podSelector is required")
  else do
    let policy := { policy with nameSpace := orDefault policy.nameSpace }
    ensureNamespaceExists policy.nameSpace
    StateStore.upsertNetworkPolicy policy
    StateStore.getNetworkPolicy policy.nameSpace policy.name

def upsertCronJob (cj : CronJob) : M CronJob := do
  if blank cj.name then Prog.fail (.message "cronjob name is required")
  else if cj.scheduleEveryS ≤ 0 then
    Prog.fail (.message "cronjob scheduleEverySeconds must be > 0")
  else do
    let cj := { cj with
      nameSpace := orDefault cj.nameSpace
      historyLimit := if cj.historyLimit ≤ 0 then 5 else cj.historyLimit }
    StateStore.upsertCronJob cj
    StateStore.getCronJob cj.nameSpace cj.name

/-! ### Autoscaler policies and metrics -/

/-- The defaults of `UpsertAutoscalerPolicy`. -/
def AutoscalerPolicy.withDefaults (p : AutoscalerPolicy) : AutoscalerPolicy :=
  let least := if p.minReplicas ≤ 0 then 1 else p.minReplicas
  { p with
    minReplicas := least
    maxReplicas := if p.maxReplicas ≤ 0 ∨ p.maxReplicas < least then least else p.maxReplicas
    stabilizationWindowSec :=
      if p.stabilizationWindowSec ≤ 0 then 30 else p.stabilizationWindowSec
    scaleUpCooldownSec := if p.scaleUpCooldownSec ≤ 0 then 20 else p.scaleUpCooldownSec
    scaleDownCooldownSec := if p.scaleDownCooldownSec ≤ 0 then 40 else p.scaleDownCooldownSec
    predictiveLookbackSamples :=
      if p.predictiveScalingEnabled ∧ p.predictiveLookbackSamples ≤ 1 then 6
      else p.predictiveLookbackSamples
    predictiveScaleFactor :=
      if p.predictiveScalingEnabled ∧ p.predictiveScaleFactor ≤ 0 then 2
      else p.predictiveScaleFactor }

def upsertAutoscalerPolicy (policy : AutoscalerPolicy) : M AutoscalerPolicy := do
  if blank policy.deploymentID then Prog.fail (.message "deployment id is required")
  else do
    let _ ← StateStore.getDeployment policy.deploymentID
    let policy := policy.withDefaults
    let id ← (if blank policy.id then do
      let nano ← timeNow
      let r ← randIntn
      pure (autoscalerID nano r) else pure policy.id)
    let createdAt ← orNow policy.createdAt
    let updatedAt ← timeNow
    let policy := { policy with id := id, createdAt := createdAt, updatedAt := updatedAt }
    StateStore.upsertAutoscalerPolicy policy
    pure policy

def ingestDeploymentMetric (sample : DeploymentMetricSample) : M Unit := do
  if blank sample.deploymentID then Prog.fail (.message "deployment id is required")
  else do
    let _ ← StateStore.getDeployment sample.deploymentID
    let timestamp ← orNow sample.timestamp
    let id ← (if sample.id = "" then metricID timestamp <$> randIntn else pure sample.id)
    StateStore.appendDeploymentMetric { sample with timestamp := timestamp, id := id }

/-! ### Role bindings -/

def upsertRoleBinding (b : RoleBinding) : M RoleBinding := do
  if blank b.name then Prog.fail (.message "role binding name is required")
  else if blank b.subject then Prog.fail (.message "role binding subject is required")
  else if b.roles = [] then Prog.fail (.message "role binding roles are required")
  else do
    StateStore.upsertRoleBinding b
    StateStore.getRoleBinding b.nameSpace b.name

/-- A role as roles are compared. -/
def normalizeRole (r : String) : String := toLower (trimSpace r)

/-- `byName[name]`: the last binding of that name. -/
def bindingNamed (all : List RoleBinding) (name : String) : Option RoleBinding :=
  all.reverse.find? fun rb => rb.name = name

/-- `visit`: the roles of a binding and of those it inherits from.  The recursion of the source
has no bound; `none` stands for a visit that is deeper than `fuel`. -/
def visitRoles (all : List RoleBinding) : ℕ → String → Option (List String)
  | 0, _ => none
  | fuel + 1, name =>
    match bindingNamed all name with
    | none => some []
    | some rb => do
      let parents ← rb.inherits.mapM (visitRoles all fuel)
      pure ((rb.roles.filter fun r => !blank r).map normalizeRole ++ parents.flatten)

/-- The bindings that are made for a subject. -/
def RoleBinding.bindsTo (subject : String) (rb : RoleBinding) : Bool :=
  equalFold (trimSpace rb.subject) (trimSpace subject)

/-- The roles that a list of bindings gives a subject, in order and without repetition.  A visit
that is deeper than the number of bindings goes round a cycle and never ends. -/
def rolesFor (all : List RoleBinding) (subject : String) : Option (List String) := do
  let visited ← (all.filter (RoleBinding.bindsTo subject)).mapM fun rb =>
    visitRoles all (all.length + 1) rb.name
  pure (sortStable (fun a b => decide (a < b)) visited.flatten.dedup)

/-- The bindings that count in a namespace: the global ones, then those of the namespace. -/
def bindingsFor (nameSpace : String) : M (List RoleBinding) := do
  let all ← StateStore.listRoleBindings ""
  if blank nameSpace then pure all
  else do
    let nsItems ← StateStore.listRoleBindings nameSpace
    pure (all ++ nsItems)

/-- `EffectiveRolesForSubject`; nothing when the visit does not end. -/
def effectiveRolesForSubject (subject nameSpace : String) : M (Option (List String)) := do
  let all ← bindingsFor nameSpace
  pure (rolesFor all subject)

/-! ### Recovery -/

def recoverCluster (o : Config) : M Unit := do
  reconcilePVCBindings
  reconcileJobsAndCron o
  reconcileAll o

end Orchestrator
