import Mathlib.Data.Finmap
import Mathlib.Order.Basic
import Mathlib.Data.Int.Notation

/-! The CIDRPolicy custom resource, with the object metadata it shares with the
NetworkPolicies of the cluster. -/
namespace Ipmaze

/-- Nanoseconds since the Unix epoch. -/
abbrev Instant := ℤ

abbrev StringMap := Finmap fun _ : String => String

structure OwnerReference where
  apiVersion : String
  kind : String
  name : String
  uid : String
  controller : Option Bool
  blockOwnerDeletion : Option Bool
  deriving DecidableEq, Repr

structure ObjectMeta where
  name : Option String := none
  generateName : Option String := none
  ns : Option String := none
  uid : Option String := none
  deletionTimestamp : Option Instant := none
  labels : Option StringMap := none
  annotations : Option StringMap := none
  ownerReferences : Option (List OwnerReference) := none
  deriving DecidableEq

inductive Direction
  | ingress
  | egress
  deriving DecidableEq, Repr

namespace Direction

/-- The derived order of the source: the order of the constructors. -/
def rank : Direction → ℕ
  | ingress => 0
  | egress => 1

instance : LinearOrder Direction :=
  LinearOrder.lift' rank (by intro a b; cases a <;> cases b <;> decide)

end Direction

inductive LabelSelectorOperator
  | In
  | NotIn
  | Exists
  | DoesNotExist
  deriving DecidableEq, Repr

structure LabelSelectorRequirement where
  key : String
  operator : LabelSelectorOperator
  values : Option (List String)
  deriving DecidableEq, Repr

structure LabelSelector where
  matchLabels : Option StringMap := none
  matchExpressions : Option (List LabelSelectorRequirement) := none
  deriving DecidableEq

structure PointerSpec where
  regex : String
  deriving DecidableEq, Repr

structure SourceSpec where
  address : String
  pointer : Option PointerSpec
  jmesPath : String
  deriving DecidableEq, Repr

structure TargetSpec where
  podSelector : LabelSelector
  deriving DecidableEq

structure RuleSpec where
  directions : Option (List Direction)
  podSelector : Option LabelSelector
  namespaceSelector : Option LabelSelector
  deriving DecidableEq

structure CIDRPolicySpec where
  source : SourceSpec
  resyncSchedule : Option String
  target : TargetSpec
  rules : List RuleSpec
  deriving DecidableEq

structure CIDRPolicyStatus where
  lastSuccessfulResolutionTime : Option String := none
  lastObservedCidrs : List String := []
  lastReconciliationError : Option String := none
  deriving DecidableEq, Repr

structure CIDRPolicy where
  metadata : ObjectMeta
  spec : CIDRPolicySpec
  status : Option CIDRPolicyStatus
  deriving DecidableEq

/-- What an event refers to. -/
structure ObjectReference where
  apiVersion : String
  kind : String
  name : Option String
  ns : Option String
  uid : Option String
  deriving DecidableEq, Repr

namespace CIDRPolicy

def apiVersion : String := "ipmaze.k8s.justin.directory/v1alpha1"
def kind : String := "CIDRPolicy"

def managedNetworkPolicyName (policy : CIDRPolicy) : String :=
  policy.metadata.name.getD "cidrpolicy" ++ "-managed"

/-- `ResourceExt::name_any`: the name, else the prefix for a generated name, else nothing. -/
def nameAny (policy : CIDRPolicy) : String :=
  (policy.metadata.name.or policy.metadata.generateName).getD ""

/-- `Resource::controller_owner_ref`, which needs a name and a uid. -/
def controllerOwnerRef (policy : CIDRPolicy) : Option OwnerReference := do
  let name ← policy.metadata.name
  let uid ← policy.metadata.uid
  return { apiVersion, kind, name, uid, controller := some true, blockOwnerDeletion := none }

def objectRef (policy : CIDRPolicy) : ObjectReference where
  apiVersion := apiVersion
  kind := kind
  name := policy.metadata.name
  ns := policy.metadata.ns
  uid := policy.metadata.uid

end CIDRPolicy
end Ipmaze
