import Ipmaze.Checks
import Ipmaze.Rendering.Meaning

/-! Validation and rendering walk the selectors of a policy separately, in different orders, and
agree on which of them they take. -/
namespace Ipmaze
open Checked

/-- The operator of a requirement does not go with its values. -/
def ValidationError.OfValues : ValidationError → Prop
  | selectorValuesRequired _ _ | selectorValuesForbidden _ _ => True
  | _ => False

def RenderError.OfValues : RenderError → Prop
  | missingSelectorValues _ _ | unexpectedSelectorValues _ _ => True
  | missingNamespace => False

/-- The selectors that rendering reaches, those of the rules that have a direction, are well
formed. -/
structure CIDRPolicySpec.Renders (spec : CIDRPolicySpec) : Prop where
  target : spec.target.podSelector.WellFormed
  podSelector : ∀ rule ∈ spec.rules, ∀ direction, rule.Includes direction →
    ∀ selector ∈ rule.podSelector, selector.WellFormed
  namespaceSelector : ∀ rule ∈ spec.rules, ∀ direction, rule.Includes direction →
    ∀ selector ∈ rule.namespaceSelector, selector.WellFormed

section Rendering

theorem renderRequirement_failsOnlyWith (requirement : LabelSelectorRequirement) :
    FailsOnlyWith RenderError.OfValues (renderRequirement requirement) := by
  refine FailsOnlyWith.bind ?_ fun _ _ => failsOnlyWith_ok _
  obtain ⟨key, operator, values⟩ := requirement
  cases operator <;> simp only [renderOperator] <;> split_ifs <;>
    simp [RenderError.OfValues]

theorem wellFormed_of_renderRequirement {requirement : LabelSelectorRequirement}
    {rendered : KubeLabelSelectorRequirement} (h : renderRequirement requirement = .ok rendered) :
    requirement.WellFormed := by
  obtain ⟨operator, h, -⟩ := bind_ok_iff.mp h
  obtain ⟨key, operator', values⟩ := requirement
  cases operator' <;> cases values with
  | none => simp_all [renderOperator, LabelSelectorRequirement.WellFormed]
  | some values =>
    cases values <;> simp_all [renderOperator, LabelSelectorRequirement.WellFormed]

theorem transposeMap_failsOnlyWith {α β : Type} {f : α → Except RenderError β}
    {P : RenderError → Prop} (h : ∀ a, FailsOnlyWith P (f a)) (a : Option α) :
    FailsOnlyWith P (transposeMap f a) := by
  cases a with
  | none => exact failsOnlyWith_ok _
  | some a => exact (h a).bind fun _ _ => failsOnlyWith_ok _

theorem transposeMap_ok {α β : Type} {f : α → Except RenderError β} {a : Option α}
    {b : Option β} (h : transposeMap f a = .ok b) : ∀ x ∈ a, ∃ y, f x = .ok y := by
  cases a with
  | none => simp
  | some x =>
    obtain ⟨y, hy, -⟩ := bind_ok_iff.mp h
    intro x' hx'
    cases hx'
    exact ⟨y, hy⟩

theorem renderSelector_failsOnlyWith (selector : LabelSelector) :
    FailsOnlyWith RenderError.OfValues (renderSelector selector) := by
  refine FailsOnlyWith.bind ?_ fun _ _ => failsOnlyWith_ok _
  apply transposeMap_failsOnlyWith
  intro requirements
  exact failsOnlyWith_mapM fun r _ => renderRequirement_failsOnlyWith r

theorem wellFormed_of_renderSelector {selector : LabelSelector} {rendered : KubeLabelSelector}
    (h : renderSelector selector = .ok rendered) : selector.WellFormed := by
  obtain ⟨expressions, h, -⟩ := bind_ok_iff.mp h
  have hlist := transposeMap_ok h
  intro requirement hr
  cases hs : selector.matchExpressions with
  | none => simp [hs] at hr
  | some requirements =>
    rw [hs] at hr hlist
    obtain ⟨_, hrendered⟩ := exists_mapM_ok_iff.mp (hlist requirements rfl) requirement hr
    exact wellFormed_of_renderRequirement hrendered

theorem buildPeers_failsOnlyWith (rule : RuleSpec) (cidrs : List NormalizedCidr) :
    FailsOnlyWith RenderError.OfValues (buildPeers rule cidrs) := by
  have hselectors := transposeMap_failsOnlyWith renderSelector_failsOnlyWith
  simp only [buildPeers]
  split_ifs
  · refine FailsOnlyWith.bind ?_ fun _ _ => failsOnlyWith_ok _
    exact (hselectors _).bind fun _ _ => (hselectors _).bind fun _ _ => failsOnlyWith_ok _
  · exact failsOnlyWith_ok _

theorem wellFormed_of_buildPeers {rule : RuleSpec} {cidrs : List NormalizedCidr}
    {peers : List NetworkPolicyPeer} (h : buildPeers rule cidrs = .ok peers) :
    (∀ selector ∈ rule.podSelector, selector.WellFormed) ∧
      ∀ selector ∈ rule.namespaceSelector, selector.WellFormed := by
  simp only [buildPeers] at h
  split_ifs at h with hselector
  · obtain ⟨peer, h, -⟩ := bind_ok_iff.mp h
    obtain ⟨_, hns, h⟩ := bind_ok_iff.mp h
    obtain ⟨_, hpod, -⟩ := bind_ok_iff.mp h
    constructor
    · intro selector hs
      obtain ⟨_, hrendered⟩ := transposeMap_ok hpod selector hs
      exact wellFormed_of_renderSelector hrendered
    · intro selector hs
      obtain ⟨_, hrendered⟩ := transposeMap_ok hns selector hs
      exact wellFormed_of_renderSelector hrendered
  · rw [not_or, Option.not_isSome_iff_eq_none, Option.not_isSome_iff_eq_none] at hselector
    simp [hselector]

section Directions
variable {β : Type} {direction : Direction} {build : List NetworkPolicyPeer → β}
variable {rules : List RuleSpec} {cidrs : List NormalizedCidr}

theorem buildDirectionRules_failsOnlyWith :
    FailsOnlyWith RenderError.OfValues (buildDirectionRules direction build rules cidrs) := by
  apply failsOnlyWith_mapM
  intro rule _
  exact (buildPeers_failsOnlyWith rule cidrs).bind fun _ _ => failsOnlyWith_ok _

theorem wellFormed_of_buildDirectionRules {built : List β}
    (h : buildDirectionRules direction build rules cidrs = .ok built) {rule : RuleSpec}
    (hr : rule ∈ rules) (hd : rule.Includes direction) :
    (∀ selector ∈ rule.podSelector, selector.WellFormed) ∧
      ∀ selector ∈ rule.namespaceSelector, selector.WellFormed := by
  have hmem : rule ∈ rules.filter fun rule => direction ∈ effectiveDirections rule :=
    mem_rulesFor.mpr ⟨hr, hd⟩
  obtain ⟨_, hrule⟩ := exists_mapM_ok_iff.mp ⟨built, h⟩ rule hmem
  obtain ⟨_, hpeers, -⟩ := bind_ok_iff.mp hrule
  exact wellFormed_of_buildPeers hpeers

end Directions

variable {policy : CIDRPolicy} {ns : String} {cidrs : List NormalizedCidr}

theorem buildManagedNetworkPolicy_failsOnlyWith (hns : policy.metadata.ns = some ns) :
    FailsOnlyWith RenderError.OfValues (buildManagedNetworkPolicy policy cidrs) := by
  unfold buildManagedNetworkPolicy
  rw [hns]
  refine (renderSelector_failsOnlyWith _).bind fun _ _ => ?_
  refine buildDirectionRules_failsOnlyWith.bind fun _ _ => ?_
  exact buildDirectionRules_failsOnlyWith.bind fun _ _ => failsOnlyWith_ok _

theorem renders_of_buildManagedNetworkPolicy {rendered : NetworkPolicy}
    (h : buildManagedNetworkPolicy policy cidrs = .ok rendered) : policy.spec.Renders := by
  unfold buildManagedNetworkPolicy at h
  obtain ⟨_, -, h⟩ := bind_ok_iff.mp h
  obtain ⟨_, htarget, h⟩ := bind_ok_iff.mp h
  obtain ⟨_, hingress, h⟩ := bind_ok_iff.mp h
  obtain ⟨_, hegress, -⟩ := bind_ok_iff.mp h
  have hrules (rule : RuleSpec) (hr : rule ∈ policy.spec.rules) (direction : Direction)
      (hd : rule.Includes direction) : (∀ selector ∈ rule.podSelector, selector.WellFormed) ∧
        ∀ selector ∈ rule.namespaceSelector, selector.WellFormed := by
    cases direction with
    | ingress => exact wellFormed_of_buildDirectionRules hingress hr hd
    | egress => exact wellFormed_of_buildDirectionRules hegress hr hd
  exact ⟨wellFormed_of_renderSelector htarget,
    fun rule hr direction hd => (hrules rule hr direction hd).1,
    fun rule hr direction hd => (hrules rule hr direction hd).2⟩

end Rendering

section Validation

theorem not_wellFormed_of_requirement {requirement : LabelSelectorRequirement}
    (h : FailsWith ValidationError.OfValues (validateSelectorRequirement requirement)) :
    ¬ requirement.WellFormed := by
  obtain ⟨key, operator, values⟩ := requirement
  unfold validateSelectorRequirement at h
  split at h
  · simp [ValidationError.OfValues] at h
  · cases operator <;> cases values with
    | none => simp_all [LabelSelectorRequirement.WellFormed, Option.filter]
    | some values =>
      by_cases hv : values = [] <;> simp_all [LabelSelectorRequirement.WellFormed, Option.filter]

theorem not_wellFormed_of_selector {selector : LabelSelector}
    (h : FailsWith ValidationError.OfValues (validateSelector selector)) :
    ¬ selector.WellFormed := by
  unfold validateSelector at h
  intro hwell
  split at h
  next requirements hm =>
    obtain ⟨before, requirement, after, hl, -, hr⟩ := failsWith_forM.mp h
    refine not_wellFormed_of_requirement hr (hwell requirement ?_)
    simp [hm, hl]
  next => simp at h

theorem exists_not_wellFormed {selector : Option LabelSelector}
    (h : FailsWith ValidationError.OfValues (validateOptionalSelector selector)) :
    ∃ s ∈ selector, ¬ s.WellFormed := by
  cases selector with
  | none => simp [validateOptionalSelector] at h
  | some s => exact ⟨s, rfl, not_wellFormed_of_selector h⟩

/-- A rule is asked for its directions before its selectors are looked at. -/
theorem includes_of_rule {rule : RuleSpec}
    (h : FailsWith ValidationError.OfValues (validateRule rule)) :
    (∃ direction, rule.Includes direction) ∧
      ((∃ s ∈ rule.podSelector, ¬ s.WellFormed) ∨ ∃ s ∈ rule.namespaceSelector, ¬ s.WellFormed) := by
  unfold validateRule at h
  split_ifs at h with hselector hdirections
  · simp [ValidationError.OfValues] at h
  · simp [ValidationError.OfValues] at h
  · refine ⟨RuleSpec.exists_includes hdirections, ?_⟩
    rcases failsWith_bind.mp h with hpod | ⟨_, -, hns⟩
    · exact Or.inl (exists_not_wellFormed hpod)
    · exact Or.inr (exists_not_wellFormed hns)

theorem not_failsWith_ofValues {ε α : Type} {f : ε → ValidationError}
    (hf : ∀ e, ¬ (f e).OfValues) (x : Except ε α) :
    ¬ FailsWith ValidationError.OfValues (x.mapError f) := by
  rw [failsWith_mapError]
  rintro ⟨e, -, he⟩
  exact hf e he

/-- Only the two checks that look at selectors can fail over the values of a requirement. -/
theorem not_renders_of_check {K : Crates} {spec : CIDRPolicySpec} {check : Check}
    (h : FailsWith ValidationError.OfValues (check.run K spec)) : ¬ spec.Renders := by
  intro hrenders
  cases check with
  | rulesPresent =>
    unfold Check.run at h
    split_ifs at h
    · simp [ValidationError.OfValues] at h
    · simp at h
  | sourceAddress | query =>
    simp only [Check.run, failsWith_bind, failsWith_pure, and_false, exists_false, or_false] at h
    exact not_failsWith_ofValues (fun _ => id) _ h
  | pointerRegex =>
    simp only [Check.run, failsWith_bind, failsWith_pure, and_false, exists_false, or_false] at h
    cases hp : spec.source.pointer.map PointerSpec.regex with
    | none => simp [validatePointerRegex, hp] at h
    | some regex =>
      simp only [hp, validatePointerRegex, failsWith_bind, failsWith_pure, and_false, exists_false,
        or_false] at h
      exact not_failsWith_ofValues (fun _ => id) _ h
  | schedule =>
    simp only [Check.run, failsWith_bind, failsWith_pure, and_false, exists_false, or_false] at h
    simp only [validateResyncSchedule] at h
    split_ifs at h
    · simp [ValidationError.OfValues] at h
    · exact not_failsWith_ofValues (fun _ => id) _ h
  | target => exact not_wellFormed_of_selector h hrenders.target
  | rules =>
    obtain ⟨before, rule, after, hl, -, hrule⟩ := failsWith_forM.mp h
    have hr : rule ∈ spec.rules := by simp [hl]
    obtain ⟨⟨direction, hd⟩, ⟨s, hs, hbad⟩ | ⟨s, hs, hbad⟩⟩ := includes_of_rule hrule
    · exact hbad (hrenders.podSelector rule hr direction hd s hs)
    · exact hbad (hrenders.namespaceSelector rule hr direction hd s hs)

end Validation

end Ipmaze
