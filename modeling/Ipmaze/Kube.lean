import Ipmaze.Api

/-! The Kubernetes objects the controller reads and writes. -/
namespace Ipmaze

inductive IntOrString
  | int (value : ℤ)
  | string (value : String)
  deriving DecidableEq, Repr

structure KubeLabelSelectorRequirement where
  key : String
  operator : String
  values : Option (List String)
  deriving DecidableEq, Repr

structure KubeLabelSelector where
  matchLabels : Option StringMap := none
  matchExpressions : Option (List KubeLabelSelectorRequirement) := none
  deriving DecidableEq

structure IPBlock where
  cidr : String
  except : Option (List String)
  deriving DecidableEq, Repr

structure NetworkPolicyPeer where
  ipBlock : Option IPBlock := none
  namespaceSelector : Option KubeLabelSelector := none
  podSelector : Option KubeLabelSelector := none
  deriving DecidableEq

structure NetworkPolicyPort where
  endPort : Option ℤ
  port : Option IntOrString
  protocol : Option String
  deriving DecidableEq, Repr

structure NetworkPolicyIngressRule where
  fromPeers : Option (List NetworkPolicyPeer)
  ports : Option (List NetworkPolicyPort)
  deriving DecidableEq

structure NetworkPolicyEgressRule where
  ports : Option (List NetworkPolicyPort)
  toPeers : Option (List NetworkPolicyPeer)
  deriving DecidableEq

structure NetworkPolicySpec where
  egress : Option (List NetworkPolicyEgressRule)
  ingress : Option (List NetworkPolicyIngressRule)
  podSelector : KubeLabelSelector
  policyTypes : Option (List String)
  deriving DecidableEq

structure NetworkPolicy where
  metadata : ObjectMeta
  spec : Option NetworkPolicySpec
  deriving DecidableEq

def NetworkPolicy.objectRef (networkPolicy : NetworkPolicy) : ObjectReference where
  apiVersion := "networking.k8s.io/v1"
  kind := "NetworkPolicy"
  name := networkPolicy.metadata.name
  ns := networkPolicy.metadata.ns
  uid := networkPolicy.metadata.uid

inductive EventType
  | normal
  | warning
  deriving DecidableEq, Repr

structure Event where
  eventType : EventType
  reason : String
  note : Option String
  action : String
  secondary : Option ObjectReference
  deriving DecidableEq, Repr

/-- A failed API call: refused by the server with a status code, or failed on the way. -/
inductive KubeError
  | api (code : ℕ) (text : String)
  | other (text : String)
  deriving DecidableEq, Repr

namespace KubeError

def message : KubeError → String
  | api _ text => text
  | other text => text

end KubeError
end Ipmaze
