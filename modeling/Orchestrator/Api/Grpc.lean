/-
# The gRPC server

The methods of the service and the translation of its messages.  There is no middleware: every
call goes straight to the orchestrator, and a specification is stored as it is translated, without
the checks that the HTTP handlers make.
-/
import Orchestrator.Service.Deployments

namespace Orchestrator

open Lib

/-! ### Messages -/

/-- The message `DeploymentSpec`. -/
structure PBDeploymentSpec where
  name : String := ""
  image : String := ""
  imagePullSecret : String := ""
  replicas : Int32 := 0
  priority : Int32 := 0
  resources : Option Resource := none
  labels : StrMap := Table.empty
  tolerations : List Toleration := []
deriving DecidableEq

/-- The message `Deployment`. -/
structure PBDeployment where
  id : String
  spec : PBDeploymentSpec
  status : DeploymentStatus
deriving DecidableEq

/-- The message `ClusterNode`. -/
structure PBClusterNode where
  id : String
  status : NodeStatus
  allocatable : Resource
  used : Resource
deriving DecidableEq

def fromPBDeploymentSpec : Option PBDeploymentSpec → DeploymentSpec
  | none => {}
  | some spec =>
    { name := spec.name
      image := spec.image
      imagePullSecret := spec.imagePullSecret
      replicas := spec.replicas.toInt64
      priority := spec.priority.toInt
      resources := spec.resources.getD {}
      labels := some spec.labels
      tolerations := some spec.tolerations }

/-- The counts are cut to 32 bits. -/
def toPBDeployment (dep : Deployment) : PBDeployment where
  id := dep.id
  spec :=
    { name := dep.spec.name
      image := dep.spec.image
      imagePullSecret := dep.spec.imagePullSecret
      replicas := dep.spec.replicas.toInt32
      priority := Int32.ofInt dep.spec.priority
      resources := some dep.spec.resources
      labels := dep.spec.labels.getD Table.empty
      tolerations := dep.spec.tolerations.getD [] }
  status := dep.status

/-! ### Methods -/

namespace GRPCServer

def createDeployment (o : Config) (spec : Option PBDeploymentSpec) : M PBDeployment := do
  let dep ← Orchestrator.createDeployment o (fromPBDeploymentSpec spec)
  pure (toPBDeployment dep)

def deleteDeployment (id : String) : M Unit := Orchestrator.deleteDeployment id

def listDeployments : M (List PBDeployment) := do
  let items ← StateStore.listDeployments
  pure (items.map toPBDeployment)

def getClusterState : M (List PBClusterNode) := do
  let state ← StateStore.snapshot
  pure (state.nodes.map fun n =>
    { id := n.id, status := n.status, allocatable := n.allocatable, used := n.used })

end GRPCServer

end Orchestrator
