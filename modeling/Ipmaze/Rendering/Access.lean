import Ipmaze.Rendering.Rendered
import Mathlib.Data.Set.Basic

/-! What a policy means for the traffic of the pods it applies to: which pods these are,
which directions of their traffic are isolated, and which remote ends an isolated direction
admits. Both the spec of a CIDRPolicy and a NetworkPolicy have such a meaning. -/
namespace Ipmaze

structure RemotePod where
  labels : StringMap
  ns : String
  nsLabels : StringMap

/-- The far end of a connection, which need not be a pod. -/
structure Remote where
  ip : IpAddr
  pod : Option RemotePod

@[ext] structure Access where
  /-- The pods the policy applies to, by namespace and labels. -/
  subjects : Set (String × StringMap)
  isolated : Set Direction
  admitted : Direction → Set Remote

/-- Every label required is present with the value required. -/
def LabelsMatch (required : Option StringMap) (labels : StringMap) : Prop :=
  ∀ m ∈ required, ∀ key value, m.lookup key = some value → labels.lookup key = some value

/-- An address lies in the network a CIDR text denotes. -/
def TextContains (K : Crates) (text : String) (ip : IpAddr) : Prop :=
  ∃ net, K.parseNet text = some net ∧ net.Contains ip

namespace LabelSelectorRequirement

def Matches (requirement : LabelSelectorRequirement) (labels : StringMap) : Prop :=
  match requirement.operator with
  | .In => ∃ value ∈ requirement.values.getD [], labels.lookup requirement.key = some value
  | .NotIn => ∀ value ∈ requirement.values.getD [], labels.lookup requirement.key ≠ some value
  | .Exists => labels.lookup requirement.key ≠ none
  | .DoesNotExist => labels.lookup requirement.key = none

end LabelSelectorRequirement

def LabelSelector.Matches (selector : LabelSelector) (labels : StringMap) : Prop :=
  LabelsMatch selector.matchLabels labels ∧
    ∀ requirement ∈ selector.matchExpressions.getD [], requirement.Matches labels

namespace RuleSpec

def Includes (rule : RuleSpec) (direction : Direction) : Prop :=
  ∀ directions ∈ rule.directions, direction ∈ directions

/-- The selectors of a rule match a pod: without a namespace selector only pods of the
policy's own namespace, without a pod selector all pods of the namespaces selected. -/
def SelectsPod (rule : RuleSpec) (ns : String) (pod : RemotePod) : Prop :=
  match rule.namespaceSelector, rule.podSelector with
  | none, none => False
  | none, some podSelector => pod.ns = ns ∧ podSelector.Matches pod.labels
  | some namespaceSelector, none => namespaceSelector.Matches pod.nsLabels
  | some namespaceSelector, some podSelector =>
    namespaceSelector.Matches pod.nsLabels ∧ podSelector.Matches pod.labels

def Selects (rule : RuleSpec) (ns : String) (remote : Remote) : Prop :=
  ∃ pod ∈ remote.pod, rule.SelectsPod ns pod

end RuleSpec

/-- The meaning of a spec in namespace `ns`, once its source gave `cidrs`. -/
def CIDRPolicySpec.access (K : Crates) (ns : String) (spec : CIDRPolicySpec)
    (cidrs : List NormalizedCidr) : Access where
  subjects := {pod | pod.1 = ns ∧ spec.target.podSelector.Matches pod.2}
  isolated := {direction | ∃ rule ∈ spec.rules, rule.Includes direction}
  admitted direction := {remote | ∃ rule ∈ spec.rules, rule.Includes direction ∧
    ((∃ cidr ∈ cidrs, TextContains K cidr.rendered remote.ip) ∨ rule.Selects ns remote)}

/-- The operators of Kubernetes are texts; an unknown operator matches nothing. -/
def KubeLabelSelectorRequirement.Matches (requirement : KubeLabelSelectorRequirement)
    (labels : StringMap) : Prop :=
  if requirement.operator = "In" then
    ∃ value ∈ requirement.values.getD [], labels.lookup requirement.key = some value
  else if requirement.operator = "NotIn" then
    ∀ value ∈ requirement.values.getD [], labels.lookup requirement.key ≠ some value
  else if requirement.operator = "Exists" then labels.lookup requirement.key ≠ none
  else if requirement.operator = "DoesNotExist" then labels.lookup requirement.key = none
  else False

def KubeLabelSelector.Matches (selector : KubeLabelSelector) (labels : StringMap) : Prop :=
  LabelsMatch selector.matchLabels labels ∧
    ∀ requirement ∈ selector.matchExpressions.getD [], requirement.Matches labels

namespace NetworkPolicyPeer

def MatchesPod (peer : NetworkPolicyPeer) (ns : String) (pod : RemotePod) : Prop :=
  match peer.namespaceSelector, peer.podSelector with
  | none, none => False
  | none, some podSelector => pod.ns = ns ∧ podSelector.Matches pod.labels
  | some namespaceSelector, none => namespaceSelector.Matches pod.nsLabels
  | some namespaceSelector, some podSelector =>
    namespaceSelector.Matches pod.nsLabels ∧ podSelector.Matches pod.labels

/-- A peer is an address block with exceptions, or else it selects pods. -/
def Matches (K : Crates) (ns : String) (peer : NetworkPolicyPeer) (remote : Remote) : Prop :=
  match peer.ipBlock with
  | some block => TextContains K block.cidr remote.ip ∧
      ∀ exception ∈ block.except.getD [], ¬ TextContains K exception remote.ip
  | none => ∃ pod ∈ remote.pod, peer.MatchesPod ns pod

end NetworkPolicyPeer

/-- An absent or empty peer list matches every remote. -/
def PeersMatch (K : Crates) (ns : String) (peers : Option (List NetworkPolicyPeer))
    (remote : Remote) : Prop :=
  peers.getD [] = [] ∨ ∃ peer ∈ peers.getD [], peer.Matches K ns remote

/-- The peer lists of one direction, of the rules that leave the ports open. -/
def NetworkPolicySpec.peerLists (spec : NetworkPolicySpec) :
    Direction → List (Option (List NetworkPolicyPeer))
  | .ingress => ((spec.ingress.getD []).filter fun rule => rule.ports.getD [] = []).map
      NetworkPolicyIngressRule.fromPeers
  | .egress => ((spec.egress.getD []).filter fun rule => rule.ports.getD [] = []).map
      NetworkPolicyEgressRule.toPeers

/-- The meaning the cluster gives to a NetworkPolicy of namespace `ns`. -/
def NetworkPolicySpec.access (K : Crates) (ns : String) (spec : NetworkPolicySpec) : Access where
  subjects := {pod | pod.1 = ns ∧ spec.podSelector.Matches pod.2}
  isolated := {direction | direction.policyType ∈ spec.policyTypes.getD []}
  admitted direction := {remote | ∃ peers ∈ spec.peerLists direction, PeersMatch K ns peers remote}

end Ipmaze
