import Ipmaze.Rendering.WellFormed
import Ipmaze.Netpol

/-! The rendering as a total function. On a validated policy the fallible renderer returns
it, whatever the CIDRs. -/
namespace Ipmaze
open Checked

def LabelSelectorRequirement.toKube (requirement : LabelSelectorRequirement) :
    KubeLabelSelectorRequirement :=
  ⟨requirement.key, requirement.operator.asStr, requirement.values⟩

def LabelSelector.toKube (selector : LabelSelector) : KubeLabelSelector where
  matchLabels := selector.matchLabels
  matchExpressions := selector.matchExpressions.map (List.map LabelSelectorRequirement.toKube)

namespace RuleSpec

def selectorPeer (rule : RuleSpec) : NetworkPolicyPeer where
  namespaceSelector := rule.namespaceSelector.map LabelSelector.toKube
  podSelector := rule.podSelector.map LabelSelector.toKube

def peers (cidrs : List NormalizedCidr) (rule : RuleSpec) : List NetworkPolicyPeer :=
  rule.selectorPeer :: cidrs.map blockPeer

def toIngress (cidrs : List NormalizedCidr) (rule : RuleSpec) : NetworkPolicyIngressRule where
  fromPeers := some (rule.peers cidrs)
  ports := none

def toEgress (cidrs : List NormalizedCidr) (rule : RuleSpec) : NetworkPolicyEgressRule where
  ports := none
  toPeers := some (rule.peers cidrs)

end RuleSpec

def rulesFor (direction : Direction) (rules : List RuleSpec) : List RuleSpec :=
  rules.filter fun rule => direction ∈ effectiveDirections rule

def CIDRPolicySpec.rendered (spec : CIDRPolicySpec) (cidrs : List NormalizedCidr) :
    NetworkPolicySpec where
  egress := some ((rulesFor .egress spec.rules).map (RuleSpec.toEgress cidrs))
  ingress := some ((rulesFor .ingress spec.rules).map (RuleSpec.toIngress cidrs))
  podSelector := spec.target.podSelector.toKube
  policyTypes := some (buildPolicyTypes spec.rules)

def CIDRPolicy.renderedMetadata (policy : CIDRPolicy) (ns : String) : ObjectMeta where
  name := some policy.managedNetworkPolicyName
  ns := some ns
  labels := some managedLabels
  annotations := some (managedAnnotations policy)
  ownerReferences := policy.controllerOwnerRef.map fun owner => [owner]

def CIDRPolicy.rendered (policy : CIDRPolicy) (ns : String) (cidrs : List NormalizedCidr) :
    NetworkPolicy where
  metadata := policy.renderedMetadata ns
  spec := some (policy.spec.rendered cidrs)

theorem renderRequirement_eq {requirement : LabelSelectorRequirement}
    (h : requirement.WellFormed) : renderRequirement requirement = .ok requirement.toKube := by
  obtain ⟨key, operator, values⟩ := requirement
  cases operator with
  | In | NotIn =>
    obtain ⟨vs, rfl, hvs⟩ := h
    cases vs with
    | nil => contradiction
    | cons v vs => rfl
  | Exists | DoesNotExist =>
    have hv : values = none := h
    subst hv
    rfl

theorem renderSelector_eq {selector : LabelSelector} (h : selector.WellFormed) :
    renderSelector selector = .ok selector.toKube := by
  obtain ⟨matchLabels, matchExpressions⟩ := selector
  cases matchExpressions with
  | none => rfl
  | some requirements =>
    have hmap : requirements.mapM renderRequirement =
        .ok (requirements.map LabelSelectorRequirement.toKube) :=
      mapM_ok_of_forall fun r hr => renderRequirement_eq (h r hr)
    simp only [renderSelector, transposeMap, hmap]
    rfl

theorem transposeMap_renderSelector {selector : Option LabelSelector}
    (h : ∀ s ∈ selector, s.WellFormed) :
    transposeMap renderSelector selector = .ok (selector.map LabelSelector.toKube) := by
  cases selector with
  | none => rfl
  | some s =>
    simp only [transposeMap, renderSelector_eq (h s rfl)]
    rfl

theorem renderPeerSelector_eq {rule : RuleSpec} (h : rule.WellFormed) :
    renderPeerSelector rule = .ok rule.selectorPeer := by
  simp only [renderPeerSelector, transposeMap_renderSelector h.namespaceSelector,
    transposeMap_renderSelector h.podSelector]
  rfl

/-- Validation forces a selector, so the peer list starts with it. -/
theorem buildPeers_eq {rule : RuleSpec} (h : rule.WellFormed) (cidrs : List NormalizedCidr) :
    buildPeers rule cidrs = .ok (rule.peers cidrs) := by
  unfold buildPeers
  rw [if_pos h.selector.symm, renderPeerSelector_eq h]
  rfl

theorem buildDirectionRules_eq {β : Type} (direction : Direction)
    (build : List NetworkPolicyPeer → β) {rules : List RuleSpec}
    (h : ∀ rule ∈ rules, rule.WellFormed) (cidrs : List NormalizedCidr) :
    buildDirectionRules direction build rules cidrs =
      .ok ((rulesFor direction rules).map fun rule => build (rule.peers cidrs)) := by
  apply mapM_ok_of_forall
  intro rule hr
  rw [buildPeers_eq (h rule (List.mem_of_mem_filter hr))]
  rfl

variable {policy : CIDRPolicy} {ns : String}

theorem buildManagedNetworkPolicy_eq (h : policy.spec.WellFormed)
    (hns : policy.metadata.ns = some ns) (cidrs : List NormalizedCidr) :
    buildManagedNetworkPolicy policy cidrs = .ok (policy.rendered ns cidrs) := by
  simp only [buildManagedNetworkPolicy, hns, renderSubjectSelector, renderSelector_eq h.target,
    buildIngressRules, buildEgressRules, buildDirectionRules_eq _ _ h.rules]
  rfl

theorem renderedMetadata_of_build {cidrs : List NormalizedCidr} {rendered : NetworkPolicy}
    (hns : policy.metadata.ns = some ns)
    (h : buildManagedNetworkPolicy policy cidrs = .ok rendered) :
    rendered.metadata = policy.renderedMetadata ns := by
  unfold buildManagedNetworkPolicy at h
  rw [hns] at h
  obtain ⟨_, hn, h⟩ := bind_ok_iff.mp h
  obtain ⟨_, -, h⟩ := bind_ok_iff.mp h
  obtain ⟨_, -, h⟩ := bind_ok_iff.mp h
  obtain ⟨_, -, h⟩ := bind_ok_iff.mp h
  cases hn
  cases h
  rfl

end Ipmaze
