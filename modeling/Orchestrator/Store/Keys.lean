/-
# Texts: generated ids and store keys

The strings that the code builds and compares: the ids made from a clock reading and a
random number, the composite keys of the store (`internal/store/store.go`), and the few
functions of package `strings` that decide which record is meant.
-/
import Orchestrator.Model.Types
import Orchestrator.Store.Letters

namespace Orchestrator

/-! ### Package `strings` -/

/-- `strings.HasPrefix`. -/
def hasPrefix (s pfx : String) : Bool := pfx.toList.isPrefixOf s.toList

lemma hasPrefix_iff {s pfx : String} : hasPrefix s pfx = true ↔ ∃ r, s = pfx ++ r := by
  unfold hasPrefix
  rw [List.isPrefixOf_iff_prefix]
  constructor
  · rintro ⟨r, hr⟩
    refine ⟨String.ofList r, String.toList_inj.mp ?_⟩
    rw [String.toList_append, String.toList_ofList, hr]
  · rintro ⟨r, rfl⟩
    exact ⟨r.toList, String.toList_append.symm⟩

/-- A text in front of both does not matter. -/
lemma hasPrefix_append (p s pfx : String) : hasPrefix (p ++ s) (p ++ pfx) = hasPrefix s pfx := by
  unfold hasPrefix
  rw [String.toList_append, String.toList_append]
  exact Bool.eq_iff_iff.mpr (by
    rw [List.isPrefixOf_iff_prefix, List.isPrefixOf_iff_prefix, List.prefix_append_right_inj])

/-- `strings.TrimPrefix`. -/
def trimPrefix (s pfx : String) : String :=
  if hasPrefix s pfx then String.ofList (s.toList.drop pfx.toList.length) else s

/-- `strings.HasSuffix`. -/
def hasSuffix (s suffix : String) : Bool := suffix.toList.isSuffixOf s.toList

/-- `strings.TrimSuffix`. -/
def trimSuffix (s suffix : String) : String :=
  if hasSuffix s suffix then
    String.ofList (s.toList.take (s.toList.length - suffix.toList.length))
  else s

/-- `strings.TrimRight(s, "/")`. -/
def trimRightSlash (s : String) : String :=
  String.ofList (s.toList.reverse.dropWhile (· == '/')).reverse

/-- `strings.ToLower`. -/
def toLower (s : String) : String := String.ofList (s.toList.map lowerChar)

/-- `strings.EqualFold`. -/
def equalFold (a b : String) : Bool := a.toList.map foldChar == b.toList.map foldChar

/-! ### Formatting -/

/-- A natural number in decimal, padded with zeros to at least `width` digits. -/
def padded (width n : ℕ) : String :=
  String.ofList (List.replicate (width - (toString n).length) '0') ++ toString n

/-- The proleptic Gregorian date (year, month, day) of a day counted from the Unix epoch. -/
def civilDate (day : ℤ) : ℤ × ℤ × ℤ :=
  let z := day + 719468
  let era := z / 146097
  let doe := z - era * 146097
  let yoe := (doe - doe / 1460 + doe / 36524 - doe / 146096) / 365
  let doy := doe - (365 * yoe + yoe / 4 - yoe / 100)
  let mp := (5 * doy + 2) / 153
  let d := doy - (153 * mp + 2) / 5 + 1
  let m := if mp < 10 then mp + 3 else mp - 9
  (yoe + era * 400 + (if m ≤ 2 then 1 else 0), m, d)

/-- The fraction of a second as `time.RFC3339Nano` writes it: without trailing zeros, and
not at all when it is zero. -/
def nanoFraction (ns : ℕ) : String :=
  if ns = 0 then ""
  else "." ++ String.ofList ((padded 9 ns).toList.reverse.dropWhile (· == '0')).reverse

/-- `ts.UTC().Format(time.RFC3339Nano)`, for the years 0 to 9999. -/
def formatRFC3339Nano (ts : Time) : String :=
  let s := ts / 1000000000
  let (y, m, d) := civilDate (s / 86400)
  let t := (s % 86400).toNat
  padded 4 y.toNat ++ "-" ++ padded 2 m.toNat ++ "-" ++ padded 2 d.toNat ++ "T" ++
    padded 2 (t / 3600) ++ ":" ++ padded 2 (t / 60 % 60) ++ ":" ++ padded 2 (t % 60) ++
    nanoFraction (ts % 1000000000).toNat ++ "Z"

-- The fraction loses its trailing zeros, so the texts are not of one length.
example : formatRFC3339Nano 1700000000500000000 = "2023-11-14T22:13:20.5Z" := by decide +kernel

/-! ### Generated ids -/

/-- `fmt.Sprintf("wk-%d-%04d", nano, r)`. -/
def workloadID (nano : Time) (r : ℕ) : String := "wk-" ++ toString nano ++ "-" ++ padded 4 r

/-- `fmt.Sprintf("dep-%d-%04d", nano, r)`. -/
def deploymentID (nano : Time) (r : ℕ) : String := "dep-" ++ toString nano ++ "-" ++ padded 4 r

/-- `fmt.Sprintf("job-%d", nano)`. -/
def jobID (nano : Time) : String := "job-" ++ toString nano

/-- `fmt.Sprintf("%s-%d", a.WorkloadID, nano)`. -/
def assignmentID (workload : String) (nano : Time) : String := workload ++ "-" ++ toString nano

/-- `fmt.Sprintf("%s-%s-%d", serviceID, workloadID, port)`. -/
def endpointID (service workload : String) (port : ℤ) : String :=
  service ++ "-" ++ workload ++ "-" ++ toString port

/-- `fmt.Sprintf("svc-%d-%04d", nano, r)`. -/
def serviceID (nano : Time) (r : ℕ) : String := "svc-" ++ toString nano ++ "-" ++ padded 4 r

/-- `fmt.Sprintf("as-%d-%04d", nano, r)`. -/
def autoscalerID (nano : Time) (r : ℕ) : String := "as-" ++ toString nano ++ "-" ++ padded 4 r

/-- `fmt.Sprintf("ms-%d-%04d", nano, r)`. -/
def metricID (nano : Time) (r : ℕ) : String := "ms-" ++ toString nano ++ "-" ++ padded 4 r

/-! ### Store keys

Nodes, deployments, workloads and the other records that are stored under `tag:id` are
keyed by the id alone: the tag only keeps the kinds of records apart.  The composite keys
are spelled out, because a namespace or an id may itself contain the separator. -/

def keyAssignmentPrefix (nodeID : String) : String := "assignment:" ++ nodeID ++ ":"

def keyAssignment (nodeID assignmentID : String) : String :=
  keyAssignmentPrefix nodeID ++ assignmentID

def keyServiceEndpointPrefix (serviceID : String) : String :=
  "service-endpoint:" ++ serviceID ++ ":"

def keyServiceEndpoint (serviceID endpointID : String) : String :=
  keyServiceEndpointPrefix serviceID ++ endpointID

def keyDeploymentMetricPrefix (deploymentID : String) : String := "metric:" ++ deploymentID ++ ":"

def keyDeploymentMetric (deploymentID : String) (ts : Time) (metricID : String) : String :=
  keyDeploymentMetricPrefix deploymentID ++ formatRFC3339Nano ts ++ ":" ++ metricID

def keySecretPrefix (nameSpace : String) : String := "secret:" ++ nameSpace ++ ":"

def keySecret (nameSpace name : String) : String := keySecretPrefix nameSpace ++ name

def keyPersistentVolumeClaimPrefix (nameSpace : String) : String := "pvc:" ++ nameSpace ++ ":"

def keyPersistentVolumeClaim (nameSpace name : String) : String :=
  keyPersistentVolumeClaimPrefix nameSpace ++ name

def keyCronJobPrefix (nameSpace : String) : String := "cronjob:" ++ nameSpace ++ ":"

def keyCronJob (nameSpace name : String) : String := keyCronJobPrefix nameSpace ++ name

def keyNetworkPolicyPrefix (nameSpace : String) : String := "netpol:" ++ nameSpace ++ ":"

def keyNetworkPolicy (nameSpace name : String) : String := keyNetworkPolicyPrefix nameSpace ++ name

/-- The bindings without a namespace are those of the namespace `global`. -/
def keyRoleBindingPrefix (nameSpace : String) : String :=
  if blank nameSpace then "rbac:global:" else "rbac:" ++ nameSpace ++ ":"

def keyRoleBinding (nameSpace name : String) : String := keyRoleBindingPrefix nameSpace ++ name

def keyControllerLease : String := "controller:lease"

end Orchestrator
