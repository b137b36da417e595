import Ipmaze.Data.IpText
import Ipmaze.Rendering.Access
import Ipmaze.Sample

/-! The rendered NetworkPolicy means what the spec and the CIDRs mean. -/
namespace Ipmaze

theorem LabelSelectorRequirement.toKube_matches (requirement : LabelSelectorRequirement)
    (labels : StringMap) : requirement.toKube.Matches labels ↔ requirement.Matches labels := by
  obtain ⟨key, operator, values⟩ := requirement
  cases operator <;> rfl

theorem LabelSelector.toKube_matches (selector : LabelSelector) (labels : StringMap) :
    selector.toKube.Matches labels ↔ selector.Matches labels := by
  obtain ⟨matchLabels, matchExpressions⟩ := selector
  cases matchExpressions with
  | none => simp [KubeLabelSelector.Matches, LabelSelector.Matches, LabelSelector.toKube]
  | some requirements =>
    simp only [KubeLabelSelector.Matches, LabelSelector.Matches, LabelSelector.toKube,
      Option.map_some, Option.getD_some, List.forall_mem_map,
      LabelSelectorRequirement.toKube_matches]

theorem mem_effectiveDirections {rule : RuleSpec} {direction : Direction} :
    direction ∈ effectiveDirections rule ↔ rule.Includes direction := by
  unfold effectiveDirections RuleSpec.Includes
  cases rule.directions with
  | none => cases direction <;> simp
  | some directions => simp

/-- Unless its list of directions is empty, a rule has a direction. -/
theorem RuleSpec.exists_includes {rule : RuleSpec} (h : rule.directions ≠ some []) :
    ∃ direction, rule.Includes direction := by
  unfold Includes
  cases hd : rule.directions with
  | none => exact ⟨.ingress, by simp⟩
  | some directions =>
    cases directions with
    | nil => exact absurd hd h
    | cons direction directions => exact ⟨direction, by simp⟩

theorem mem_rulesFor {rules : List RuleSpec} {direction : Direction} {rule : RuleSpec} :
    rule ∈ rulesFor direction rules ↔ rule ∈ rules ∧ rule.Includes direction := by
  simp [rulesFor, mem_effectiveDirections]

theorem policyType_injective : Function.Injective Direction.policyType := by
  intro a b h
  cases a <;> cases b <;> first | rfl | exact absurd h (by decide)

/-- A direction is a policy type exactly if some rule includes it. -/
theorem mem_buildPolicyTypes {rules : List RuleSpec} {direction : Direction} :
    direction.policyType ∈ buildPolicyTypes rules ↔ ∃ rule ∈ rules, rule.Includes direction := by
  unfold buildPolicyTypes
  rw [BTreeSet.mem_toList, BTreeSet.mem_ofList, List.mem_flatMap]
  constructor
  · rintro ⟨rule, hr, htype⟩
    obtain ⟨d, hd, he⟩ := List.mem_map.mp htype
    rw [← policyType_injective he]
    exact ⟨rule, hr, mem_effectiveDirections.mp hd⟩
  · rintro ⟨rule, hr, hd⟩
    exact ⟨rule, hr, List.mem_map_of_mem (BTreeSet.mem_toList.mpr (mem_effectiveDirections.mpr hd))⟩

variable (K : Crates) (ns : String)

theorem selectorPeer_matches (rule : RuleSpec) (remote : Remote) :
    rule.selectorPeer.Matches K ns remote ↔ rule.Selects ns remote := by
  have hpod (pod : RemotePod) : rule.selectorPeer.MatchesPod ns pod ↔ rule.SelectsPod ns pod := by
    unfold NetworkPolicyPeer.MatchesPod RuleSpec.SelectsPod RuleSpec.selectorPeer
    cases rule.namespaceSelector <;> cases rule.podSelector <;>
      simp only [Option.map_none, Option.map_some, LabelSelector.toKube_matches]
  simp only [NetworkPolicyPeer.Matches, RuleSpec.selectorPeer, RuleSpec.Selects]
  exact exists_congr fun pod => and_congr_right fun _ => hpod pod

theorem blockPeer_matches (cidr : NormalizedCidr) (remote : Remote) :
    (blockPeer cidr).Matches K ns remote ↔ TextContains K cidr.rendered remote.ip := by
  simp [NetworkPolicyPeer.Matches, blockPeer]

/-- The peer list of a rule is never empty, so it matches only through one of its peers. -/
theorem peers_match (rule : RuleSpec) (cidrs : List NormalizedCidr) (remote : Remote) :
    PeersMatch K ns (some (rule.peers cidrs)) remote ↔
      (∃ cidr ∈ cidrs, TextContains K cidr.rendered remote.ip) ∨ rule.Selects ns remote := by
  simp only [PeersMatch, RuleSpec.peers, Option.getD_some, reduceCtorEq, false_or,
    List.exists_mem_cons_iff, selectorPeer_matches, List.mem_map, exists_exists_and_eq_and,
    blockPeer_matches]
  exact or_comm

theorem rendered_peerLists (spec : CIDRPolicySpec) (cidrs : List NormalizedCidr)
    (direction : Direction) :
    (spec.rendered cidrs).peerLists direction =
      (rulesFor direction spec.rules).map fun rule => some (rule.peers cidrs) := by
  cases direction <;>
    simp [NetworkPolicySpec.peerLists, CIDRPolicySpec.rendered, RuleSpec.toIngress,
      RuleSpec.toEgress, List.filter_map, Function.comp_def]

/-- Rendering preserves the meaning of every spec and every CIDR list. -/
theorem rendered_access (spec : CIDRPolicySpec) (cidrs : List NormalizedCidr) :
    (spec.rendered cidrs).access K ns = spec.access K ns cidrs := by
  apply Access.ext
  · ext pod
    exact and_congr_right fun _ => LabelSelector.toKube_matches _ _
  · ext direction
    exact mem_buildPolicyTypes
  · funext direction
    ext remote
    simp only [NetworkPolicySpec.access, CIDRPolicySpec.access, Set.mem_ofPred_eq,
      rendered_peerLists, List.mem_map, exists_exists_and_eq_and, peers_match]
    simp only [mem_rulesFor, and_assoc]

variable {K ns}

/-- For every validated policy with a namespace and every CIDR list the renderer succeeds, and
the NetworkPolicy it returns gives the pods of that namespace exactly the access the spec
describes. With no CIDR at all, only the selectors of a rule admit a remote. -/
theorem buildManagedNetworkPolicy_access {policy : CIDRPolicy} {validated : ValidatedPolicy K}
    (hvalid : validatePolicy K policy = .ok validated) (hns : policy.metadata.ns = some ns)
    (cidrs : List NormalizedCidr) :
    ∃ networkPolicy spec, buildManagedNetworkPolicy policy cidrs = .ok networkPolicy ∧
      networkPolicy.metadata.ns = some ns ∧ networkPolicy.spec = some spec ∧
      spec.access K ns = policy.spec.access K ns cidrs ∧
      (cidrs = [] → ∀ direction remote, remote ∈ (spec.access K ns).admitted direction →
        ∃ rule ∈ policy.spec.rules, rule.Includes direction ∧ rule.Selects ns remote) := by
  have haccess := rendered_access K ns policy.spec cidrs
  refine ⟨policy.rendered ns cidrs, policy.spec.rendered cidrs,
    buildManagedNetworkPolicy_eq (validateSpec_wellFormed hvalid) hns cidrs, rfl, rfl, haccess, ?_⟩
  rintro rfl direction remote hremote
  rw [haccess] at hremote
  obtain ⟨rule, hr, hd, hblock | hselects⟩ := hremote
  · obtain ⟨cidr, hc, -⟩ := hblock
    exact absurd hc List.not_mem_nil
  · exact ⟨rule, hr, hd, hselects⟩

namespace Sample

/-- One rule for each direction, and one for both. -/
def threeRules : List RuleSpec :=
  [rule,
    { directions := some [.egress], podSelector := none
      namespaceSelector := some (labelled "team" "billing") },
    { directions := none, podSelector := some (labelled "app" "proxy")
      namespaceSelector := some (labelled "team" "platform") }]

def officeCidrs : List NormalizedCidr := [cidr, ⟨"2001:db8::/32", .v6⟩]

/-- Crates that read every network. -/
def netCrates : Crates := { crates with parseNet := IpNet.fromStr }

end Sample

open Sample in
theorem sample_access :
    ∃ networkPolicy spec,
      buildManagedNetworkPolicy (policyWith threeRules none) officeCidrs = .ok networkPolicy ∧
      networkPolicy.spec = some spec ∧ spec.access netCrates "payments" =
        (policyWith threeRules none).spec.access netCrates "payments" officeCidrs := by
  have hvalid : ∃ validated, validatePolicy netCrates (policyWith threeRules none) =
      .ok validated := ⟨_, rfl⟩
  obtain ⟨validated, hvalid⟩ := hvalid
  obtain ⟨networkPolicy, spec, hbuild, -, hspec, haccess, -⟩ :=
    buildManagedNetworkPolicy_access hvalid rfl officeCidrs
  exact ⟨networkPolicy, spec, hbuild, hspec, haccess⟩

end Ipmaze
