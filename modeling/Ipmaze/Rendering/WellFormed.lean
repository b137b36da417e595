import Ipmaze.Validation
import Ipmaze.Data.Checked

/-! What validation establishes about the selectors and rules of a policy. -/
namespace Ipmaze
open Checked

/-- `In` and `NotIn` come with values, `Exists` and `DoesNotExist` without. -/
def LabelSelectorRequirement.WellFormed (requirement : LabelSelectorRequirement) : Prop :=
  match requirement.operator with
  | .In | .NotIn => ∃ values, requirement.values = some values ∧ values ≠ []
  | .Exists | .DoesNotExist => requirement.values = none

def LabelSelector.WellFormed (selector : LabelSelector) : Prop :=
  ∀ requirement ∈ selector.matchExpressions.getD [], requirement.WellFormed

/-- A validated rule has a selector and, if it lists directions, at least one. -/
structure RuleSpec.WellFormed (rule : RuleSpec) : Prop where
  selector : rule.podSelector.isSome ∨ rule.namespaceSelector.isSome
  directions : rule.directions ≠ some []
  podSelector : ∀ selector ∈ rule.podSelector, selector.WellFormed
  namespaceSelector : ∀ selector ∈ rule.namespaceSelector, selector.WellFormed

structure CIDRPolicySpec.WellFormed (spec : CIDRPolicySpec) : Prop where
  rules_ne_nil : spec.rules ≠ []
  target : spec.target.podSelector.WellFormed
  rules : ∀ rule ∈ spec.rules, rule.WellFormed

section Requirements

def LabelSelector.requirements (selector : LabelSelector) : List LabelSelectorRequirement :=
  selector.matchExpressions.getD []

def RuleSpec.requirements (rule : RuleSpec) : List LabelSelectorRequirement :=
  (rule.podSelector.toList ++ rule.namespaceSelector.toList).flatMap LabelSelector.requirements

def CIDRPolicySpec.requirements (spec : CIDRPolicySpec) : List LabelSelectorRequirement :=
  spec.target.podSelector.requirements ++ spec.rules.flatMap RuleSpec.requirements

/-- The key is empty or all white space. -/
def LabelSelectorRequirement.IsBlank (requirement : LabelSelectorRequirement) : Prop :=
  Text.trim requirement.key = ""

variable {P : LabelSelectorRequirement → Prop}

theorem RuleSpec.forall_requirements {rule : RuleSpec} : (∀ r ∈ rule.requirements, P r) ↔
    (∀ selector ∈ rule.podSelector, ∀ r ∈ selector.requirements, P r) ∧
      ∀ selector ∈ rule.namespaceSelector, ∀ r ∈ selector.requirements, P r := by
  simp only [RuleSpec.requirements, List.forall_mem_flatMap, List.forall_mem_append,
    Option.mem_toList, Option.mem_def]

theorem CIDRPolicySpec.forall_requirements {spec : CIDRPolicySpec} :
    (∀ r ∈ spec.requirements, P r) ↔ (∀ r ∈ spec.target.podSelector.requirements, P r) ∧
      ∀ rule ∈ spec.rules, ∀ r ∈ rule.requirements, P r := by
  simp only [CIDRPolicySpec.requirements, List.forall_mem_append, List.forall_mem_flatMap]

end Requirements

theorem validateSelectorRequirement_ok_iff {requirement : LabelSelectorRequirement} :
    validateSelectorRequirement requirement = .ok () ↔
      requirement.WellFormed ∧ ¬ requirement.IsBlank := by
  obtain ⟨key, operator, values⟩ := requirement
  unfold validateSelectorRequirement LabelSelectorRequirement.IsBlank
  by_cases hkey : Text.trim key = ""
  · simp [hkey]
  · cases operator <;> cases values with
    | none => simp [hkey, LabelSelectorRequirement.WellFormed, Option.filter]
    | some values =>
      by_cases hv : values = [] <;>
        simp [hkey, hv, LabelSelectorRequirement.WellFormed, Option.filter]

theorem validateSelector_ok_iff {selector : LabelSelector} :
    validateSelector selector = .ok () ↔
      selector.WellFormed ∧ ∀ r ∈ selector.requirements, ¬ r.IsBlank := by
  have hall : validateSelector selector =
      selector.requirements.forM validateSelectorRequirement := by
    unfold validateSelector LabelSelector.requirements
    cases selector.matchExpressions <;> rfl
  rw [hall, forM_ok_iff]
  simp only [validateSelectorRequirement_ok_iff]
  exact forall₂_and

theorem validateOptionalSelector_ok_iff {selector : Option LabelSelector} :
    validateOptionalSelector selector = .ok () ↔ (∀ s ∈ selector, s.WellFormed) ∧
      ∀ s ∈ selector, ∀ r ∈ s.requirements, ¬ r.IsBlank := by
  cases selector with
  | none => simp [validateOptionalSelector]
  | some s => simp [validateOptionalSelector, validateSelector_ok_iff]

theorem validateRule_ok_iff {rule : RuleSpec} :
    validateRule rule = .ok () ↔ rule.WellFormed ∧ ∀ r ∈ rule.requirements, ¬ r.IsBlank := by
  rw [RuleSpec.forall_requirements]
  constructor
  · intro h
    unfold validateRule at h
    split_ifs at h with hselector hdirections
    obtain ⟨_, hpod, hns⟩ := bind_ok_iff.mp h
    obtain ⟨hpodWell, hpodKeys⟩ := validateOptionalSelector_ok_iff.mp hpod
    obtain ⟨hnsWell, hnsKeys⟩ := validateOptionalSelector_ok_iff.mp hns
    refine ⟨⟨?_, hdirections, hpodWell, hnsWell⟩, hpodKeys, hnsKeys⟩
    cases hp : rule.podSelector <;> cases hn : rule.namespaceSelector <;> simp_all
  · rintro ⟨⟨hselector, hdirections, hpod, hns⟩, hpodKeys, hnsKeys⟩
    have hnone : ¬ (rule.podSelector.isNone ∧ rule.namespaceSelector.isNone) := by
      cases hp : rule.podSelector <;> cases hn : rule.namespaceSelector <;> simp_all
    rw [validateRule, if_neg hnone, if_neg hdirections,
      validateOptionalSelector_ok_iff.mpr ⟨hpod, hpodKeys⟩]
    exact validateOptionalSelector_ok_iff.mpr ⟨hns, hnsKeys⟩

variable {K : Crates} {spec : CIDRPolicySpec} {validated : ValidatedPolicy K}

/-- A policy is accepted if every field is. -/
theorem validateSpec_ok_iff : validateSpec K spec = .ok validated ↔
    spec.rules ≠ [] ∧ normalizeSourceAddress K spec.source.address = .ok validated.sourceAddress ∧
      validatePointerRegex K (spec.source.pointer.map PointerSpec.regex) =
        .ok validated.pointerRegex ∧
      (∃ query, compileQuery K spec.source.jmesPath = .ok query) ∧
      validateResyncSchedule K spec.resyncSchedule = .ok validated.resyncSchedule ∧
      validateSelector spec.target.podSelector = .ok () ∧
      spec.rules.forM validateRule = .ok () := by
  constructor
  · intro h
    unfold validateSpec at h
    split_ifs at h with hrules
    obtain ⟨address, haddress, h⟩ := bind_ok_iff.mp h
    obtain ⟨regex, hregex, h⟩ := bind_ok_iff.mp h
    obtain ⟨query, hquery, h⟩ := bind_ok_iff.mp h
    obtain ⟨schedule, hschedule, h⟩ := bind_ok_iff.mp h
    obtain ⟨_, htarget, h⟩ := bind_ok_iff.mp h
    obtain ⟨_, hall, h⟩ := bind_ok_iff.mp h
    cases h
    exact ⟨hrules, mapError_ok_iff.mp haddress, hregex, ⟨query, mapError_ok_iff.mp hquery⟩,
      hschedule, htarget, hall⟩
  · rintro ⟨hrules, haddress, hregex, ⟨query, hquery⟩, hschedule, htarget, hall⟩
    rw [validateSpec, if_neg hrules, haddress, hregex, hquery, hschedule, htarget, hall]
    rfl

/-- The fields of a validated policy come from the fields of its spec. -/
theorem validateSpec_fields (h : validateSpec K spec = .ok validated) :
    normalizeSourceAddress K spec.source.address = .ok validated.sourceAddress ∧
      validatePointerRegex K (spec.source.pointer.map PointerSpec.regex) =
        .ok validated.pointerRegex ∧
      validateResyncSchedule K spec.resyncSchedule = .ok validated.resyncSchedule ∧
      spec.WellFormed := by
  obtain ⟨hrules, haddress, hregex, -, hschedule, htarget, hall⟩ := validateSpec_ok_iff.mp h
  exact ⟨haddress, hregex, hschedule, hrules, (validateSelector_ok_iff.mp htarget).1,
    fun rule hr => (validateRule_ok_iff.mp (forM_ok_iff.mp hall rule hr)).1⟩

theorem validateSpec_wellFormed (h : validateSpec K spec = .ok validated) : spec.WellFormed := by
  obtain ⟨-, -, -, hwell⟩ := validateSpec_fields h
  exact hwell

end Ipmaze
