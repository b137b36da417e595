import Ipmaze.Reconcile.Writes
import Ipmaze.Rendering.Change

/-! Change detection: a reconcile that finds the rendering of an earlier spec and an earlier
query result writes again exactly if what is rendered now differs. -/
namespace Ipmaze

theorem renderedMetadata_congr {policy policy' : CIDRPolicy} {name : String}
    (hname : policy.metadata.name = some name) (hname' : policy'.metadata.name = some name)
    (huid : policy.metadata.uid = policy'.metadata.uid) (ns : String) :
    policy.renderedMetadata ns = policy'.renderedMetadata ns := by
  simp only [CIDRPolicy.renderedMetadata, CIDRPolicy.managedNetworkPolicyName, managedAnnotations,
    CIDRPolicy.nameAny, CIDRPolicy.controllerOwnerRef, hname, hname', huid, Option.some_or]

theorem classifyOutcome_noChange_iff {current desired : NetworkPolicy}
    (hmeta : current.metadata = desired.metadata) (observed : List String) :
    classifyOutcome (some current) desired observed = .noChange observed ↔
      current.spec = desired.spec := by
  simp [classifyOutcome, managedPolicyMatches, hmeta]

section Accepted
variable {K : Crates} {policy policy' : CIDRPolicy} {validated validated' : ValidatedPolicy K}
variable {ns name : String}

/-- Two accepted specs of one CIDRPolicy render to NetworkPolicies that are told apart exactly
if the target, the selectors effective for some direction or the CIDR texts differ. So rewriting
the source, the schedule or direction lists is no change, and editing one rule is one. -/
theorem classifyOutcome_exact (hvalid : validatePolicy K policy = .ok validated)
    (hvalid' : validatePolicy K policy' = .ok validated') (hns : policy.metadata.ns = some ns)
    (hns' : policy'.metadata.ns = some ns) (hname : policy.metadata.name = some name)
    (hname' : policy'.metadata.name = some name)
    (huid : policy.metadata.uid = policy'.metadata.uid) (cidrs cidrs' : List NormalizedCidr)
    (observed : List String) :
    ∃ current desired, buildManagedNetworkPolicy policy cidrs = .ok current ∧
      buildManagedNetworkPolicy policy' cidrs' = .ok desired ∧
      (classifyOutcome (some current) desired observed = .noChange observed ↔
        policy.spec.target.podSelector = policy'.spec.target.podSelector ∧
        (∀ direction, selectorsFor direction policy.spec.rules =
          selectorsFor direction policy'.spec.rules) ∧
        cidrs.map NormalizedCidr.rendered = cidrs'.map NormalizedCidr.rendered) ∧
      (policy.spec.target = policy'.spec.target →
        List.Forall₂ RuleSpec.Alike policy.spec.rules policy'.spec.rules →
        cidrs.map NormalizedCidr.rendered = cidrs'.map NormalizedCidr.rendered →
          classifyOutcome (some current) desired observed = .noChange observed) ∧
      ∀ before rule rule' after, policy.spec.rules = before ++ rule :: after →
        policy'.spec.rules = before ++ rule' :: after → ¬ rule.Alike rule' →
          classifyOutcome (some current) desired observed = .reconciled observed := by
  have hwell := validateSpec_wellFormed hvalid
  have hmeta : (policy.rendered ns cidrs).metadata = (policy'.rendered ns cidrs').metadata :=
    renderedMetadata_congr hname hname' huid ns
  have hiff := (classifyOutcome_noChange_iff hmeta observed).trans
    (Option.some_inj.trans (CIDRPolicySpec.rendered_eq_iff hwell))
  refine ⟨_, _, buildManagedNetworkPolicy_eq hwell hns cidrs,
    buildManagedNetworkPolicy_eq (validateSpec_wellFormed hvalid') hns' cidrs', hiff, ?_, ?_⟩
  · intro htarget hrules hcidrs
    exact hiff.mpr ⟨congrArg _ htarget, selectorsFor_alike hrules, hcidrs⟩
  · intro before rule rule' after hrules hrules' hedit
    rcases classifyOutcome_cases (some (policy.rendered ns cidrs)) (policy'.rendered ns cidrs')
      observed with h | h
    · exact h
    · obtain ⟨-, hselectors, -⟩ := hiff.mp h
      rw [hrules, hrules'] at hselectors
      refine absurd (alike_of_selectorsFor ?_ hselectors) hedit
      exact hwell.rules rule (by simp [hrules])

end Accepted

namespace Sample

/-- The rule of the sample, which lists its direction twice. -/
def repeated : CIDRPolicy :=
  policyWith [{ rule with directions := some [.ingress, .ingress] }] none

end Sample

open Sample in
theorem classifyOutcome_exact_repeated : ∃ current desired,
    buildManagedNetworkPolicy policy [cidr] = .ok current ∧
      buildManagedNetworkPolicy repeated [cidr] = .ok desired ∧
      classifyOutcome (some current) desired [cidr.rendered] = .noChange [cidr.rendered] := by
  have hvalid : ∃ validated, validatePolicy crates policy = .ok validated := ⟨_, rfl⟩
  have hvalid' : ∃ validated, validatePolicy crates repeated = .ok validated := ⟨_, rfl⟩
  obtain ⟨validated, hvalid⟩ := hvalid
  obtain ⟨validated', hvalid'⟩ := hvalid'
  obtain ⟨current, desired, hcurrent, hdesired, -, hrewritten, -⟩ :=
    classifyOutcome_exact hvalid hvalid' rfl rfl rfl rfl rfl [cidr] [cidr] [cidr.rendered]
  refine ⟨current, desired, hcurrent, hdesired, hrewritten rfl (.cons ⟨rfl, ?_⟩ .nil) rfl⟩
  intro direction
  simp [RuleSpec.Includes, rule]

end Ipmaze
