import Ipmaze.Rendering.Meaning

/-! What the rendering depends on. Two renderings of a CIDRPolicy agree exactly if the inputs
that mean something do, so comparing the renderings detects every such change and no other. -/
namespace Ipmaze

theorem asStr_injective : Function.Injective LabelSelectorOperator.asStr := by
  intro a b h
  cases a <;> cases b <;> first | rfl | exact absurd h (by decide)

theorem LabelSelectorRequirement.toKube_injective :
    Function.Injective LabelSelectorRequirement.toKube := by
  intro a b h
  obtain ⟨key, operator, values⟩ := a
  obtain ⟨key', operator', values'⟩ := b
  simp only [toKube, KubeLabelSelectorRequirement.mk.injEq] at h
  obtain ⟨rfl, hoperator, rfl⟩ := h
  rw [asStr_injective hoperator]

theorem LabelSelector.toKube_injective : Function.Injective LabelSelector.toKube := by
  intro a b h
  obtain ⟨matchLabels, matchExpressions⟩ := a
  obtain ⟨matchLabels', matchExpressions'⟩ := b
  simp only [toKube, KubeLabelSelector.mk.injEq] at h
  obtain ⟨rfl, hexpressions⟩ := h
  have hlists := List.map_injective_iff.mpr LabelSelectorRequirement.toKube_injective
  rw [Option.map_injective hlists hexpressions]

theorem blockPeer_eq_iff {cidr cidr' : NormalizedCidr} :
    blockPeer cidr = blockPeer cidr' ↔ cidr.rendered = cidr'.rendered := by
  simp [blockPeer]

theorem map_blockPeer_eq_iff {cidrs cidrs' : List NormalizedCidr} :
    cidrs.map blockPeer = cidrs'.map blockPeer ↔
      cidrs.map NormalizedCidr.rendered = cidrs'.map NormalizedCidr.rendered := by
  induction cidrs generalizing cidrs' with
  | nil => simp
  | cons cidr cidrs ih =>
    cases cidrs' with
    | nil => simp
    | cons cidr' cidrs' => simp only [List.map_cons, List.cons.injEq, blockPeer_eq_iff, ih]

namespace RuleSpec

def selectors (rule : RuleSpec) : Option LabelSelector × Option LabelSelector :=
  (rule.podSelector, rule.namespaceSelector)

/-- Two rules that differ at most in how they write their directions. -/
def Alike (rule rule' : RuleSpec) : Prop :=
  rule.selectors = rule'.selectors ∧ ∀ direction, rule.Includes direction ↔ rule'.Includes direction

theorem selectorPeer_eq_iff {rule rule' : RuleSpec} :
    rule.selectorPeer = rule'.selectorPeer ↔ rule.selectors = rule'.selectors := by
  have hinj := Option.map_injective LabelSelector.toKube_injective
  simp only [selectorPeer, selectors, NetworkPolicyPeer.mk.injEq, Prod.mk.injEq, true_and,
    hinj.eq_iff, and_comm]

theorem peers_eq_iff {rule rule' : RuleSpec} {cidrs cidrs' : List NormalizedCidr} :
    rule.peers cidrs = rule'.peers cidrs' ↔ rule.selectors = rule'.selectors ∧
      cidrs.map NormalizedCidr.rendered = cidrs'.map NormalizedCidr.rendered := by
  simp only [peers, List.cons.injEq, selectorPeer_eq_iff, map_blockPeer_eq_iff]

end RuleSpec

/-- The selectors of the rules effective for a direction, in the order of the spec. -/
def selectorsFor (direction : Direction) (rules : List RuleSpec) :
    List (Option LabelSelector × Option LabelSelector) :=
  (rulesFor direction rules).map RuleSpec.selectors

theorem selectorsFor_cons (direction : Direction) (rule : RuleSpec) (rules : List RuleSpec) :
    selectorsFor direction (rule :: rules) = if direction ∈ effectiveDirections rule then
      rule.selectors :: selectorsFor direction rules else selectorsFor direction rules := by
  simp only [selectorsFor, rulesFor, List.filter_cons, decide_eq_true_eq]
  split_ifs <;> rfl

theorem selectorsFor_append (direction : Direction) (rules rules' : List RuleSpec) :
    selectorsFor direction (rules ++ rules') =
      selectorsFor direction rules ++ selectorsFor direction rules' := by
  simp [selectorsFor, rulesFor]

theorem selectorsFor_ne_nil_iff {direction : Direction} {rules : List RuleSpec} :
    selectorsFor direction rules ≠ [] ↔ ∃ rule ∈ rules, rule.Includes direction := by
  rw [selectorsFor, ne_eq, List.map_eq_nil_iff, List.eq_nil_iff_forall_not_mem]
  simp only [not_forall, not_not, mem_rulesFor]

/-- The peer lists of one direction show the selectors and, unless no rule has the direction,
the CIDRs. -/
theorem map_peers_eq_iff {rules rules' : List RuleSpec} {cidrs cidrs' : List NormalizedCidr} :
    rules.map (RuleSpec.peers cidrs) = rules'.map (RuleSpec.peers cidrs') ↔
      rules.map RuleSpec.selectors = rules'.map RuleSpec.selectors ∧
        (rules ≠ [] →
          cidrs.map NormalizedCidr.rendered = cidrs'.map NormalizedCidr.rendered) := by
  induction rules generalizing rules' with
  | nil => simp
  | cons rule rules ih =>
    cases rules' with
    | nil => simp
    | cons rule' rules' =>
      simp only [List.map_cons, List.cons.injEq, RuleSpec.peers_eq_iff, ih]
      constructor
      · rintro ⟨⟨hselectors, hcidrs⟩, hrules, -⟩
        exact ⟨⟨hselectors, hrules⟩, fun _ => hcidrs⟩
      · rintro ⟨⟨hselectors, hrules⟩, hcidrs⟩
        have hcidrs := hcidrs (List.cons_ne_nil _ _)
        exact ⟨⟨hselectors, hcidrs⟩, hrules, fun _ => hcidrs⟩

theorem map_build_eq_iff {β : Type} {build : List NetworkPolicyPeer → β}
    (hbuild : Function.Injective build) {rules rules' : List RuleSpec}
    {cidrs cidrs' : List NormalizedCidr} :
    (rules.map fun rule => build (rule.peers cidrs)) =
        rules'.map (fun rule => build (rule.peers cidrs')) ↔
      rules.map (RuleSpec.peers cidrs) = rules'.map (RuleSpec.peers cidrs') := by
  have hlists := List.map_injective_iff.mpr hbuild
  rw [← hlists.eq_iff, List.map_map, List.map_map]
  rfl

theorem mem_buildPolicyTypes_iff {rules : List RuleSpec} {type : String} :
    type ∈ buildPolicyTypes rules ↔ ∃ direction : Direction, direction.policyType = type ∧
      ∃ rule ∈ rules, rule.Includes direction := by
  constructor
  · intro h
    unfold buildPolicyTypes at h
    rw [BTreeSet.mem_toList, BTreeSet.mem_ofList, List.mem_flatMap] at h
    obtain ⟨rule, hr, htype⟩ := h
    obtain ⟨direction, hd, rfl⟩ := List.mem_map.mp htype
    exact ⟨direction, rfl, rule, hr, mem_effectiveDirections.mp hd⟩
  · rintro ⟨direction, rfl, h⟩
    exact mem_buildPolicyTypes.mpr h

theorem buildPolicyTypes_congr {rules rules' : List RuleSpec}
    (h : ∀ direction, selectorsFor direction rules = selectorsFor direction rules') :
    buildPolicyTypes rules = buildPolicyTypes rules' := by
  have hincluded (direction : Direction) : (∃ rule ∈ rules, rule.Includes direction) ↔
      ∃ rule ∈ rules', rule.Includes direction := by
    rw [← selectorsFor_ne_nil_iff, ← selectorsFor_ne_nil_iff, h]
  apply congrArg BTreeSet.toList
  apply BTreeSet.ext
  intro type
  have hmem : type ∈ buildPolicyTypes rules ↔ type ∈ buildPolicyTypes rules' := by
    simp only [mem_buildPolicyTypes_iff, hincluded]
  exact hmem

/-- Some rule of a validated spec has some direction, so its rendering shows the CIDRs. -/
theorem CIDRPolicySpec.rendered_eq_iff {spec spec' : CIDRPolicySpec} (h : spec.WellFormed)
    {cidrs cidrs' : List NormalizedCidr} :
    spec.rendered cidrs = spec'.rendered cidrs' ↔
      spec.target.podSelector = spec'.target.podSelector ∧
      (∀ direction, selectorsFor direction spec.rules = selectorsFor direction spec'.rules) ∧
      cidrs.map NormalizedCidr.rendered = cidrs'.map NormalizedCidr.rendered := by
  have hin : Function.Injective fun peers : List NetworkPolicyPeer =>
      ({ fromPeers := some peers, ports := none } : NetworkPolicyIngressRule) :=
    fun a b he => by simpa using he
  have hout : Function.Injective fun peers : List NetworkPolicyPeer =>
      ({ ports := none, toPeers := some peers } : NetworkPolicyEgressRule) :=
    fun a b he => by simpa using he
  have hrules (direction : Direction) : (rulesFor direction spec.rules).map (RuleSpec.peers cidrs) =
      (rulesFor direction spec'.rules).map (RuleSpec.peers cidrs') ↔ _ := map_peers_eq_iff
  simp only [CIDRPolicySpec.rendered, NetworkPolicySpec.mk.injEq, Option.some.injEq]
  constructor
  · rintro ⟨hegress, hingress, htarget, -⟩
    have hdirections (direction : Direction) :
        (rulesFor direction spec.rules).map (RuleSpec.peers cidrs) =
          (rulesFor direction spec'.rules).map (RuleSpec.peers cidrs') := by
      cases direction with
      | ingress => exact (map_build_eq_iff hin).mp hingress
      | egress => exact (map_build_eq_iff hout).mp hegress
    refine ⟨LabelSelector.toKube_injective htarget,
      fun direction => ((hrules direction).mp (hdirections direction)).1, ?_⟩
    obtain ⟨rule, hr⟩ := List.exists_mem_of_ne_nil _ h.rules_ne_nil
    obtain ⟨direction, hd⟩ := RuleSpec.exists_includes (h.rules rule hr).directions
    apply ((hrules direction).mp (hdirections direction)).2
    exact List.ne_nil_of_mem (mem_rulesFor.mpr ⟨hr, hd⟩)
  · rintro ⟨htarget, hselectors, hcidrs⟩
    have hdirections (direction : Direction) :=
      (hrules direction).mpr ⟨hselectors direction, fun _ => hcidrs⟩
    exact ⟨(map_build_eq_iff hout).mpr (hdirections .egress),
      (map_build_eq_iff hin).mpr (hdirections .ingress), congrArg _ htarget,
      buildPolicyTypes_congr hselectors⟩

theorem selectorsFor_alike {rules rules' : List RuleSpec}
    (h : List.Forall₂ RuleSpec.Alike rules rules') (direction : Direction) :
    selectorsFor direction rules = selectorsFor direction rules' := by
  induction h with
  | nil => rfl
  | cons hrule _ ih =>
    have hmem := mem_effectiveDirections.trans ((hrule.2 direction).trans mem_effectiveDirections.symm)
    simp only [selectorsFor_cons, hmem, hrule.1, ih]

/-- Where only one rule was edited, equal projections leave nothing that was edited. -/
theorem alike_of_selectorsFor {before after : List RuleSpec} {rule rule' : RuleSpec}
    (hrule : rule.WellFormed)
    (h : ∀ direction, selectorsFor direction (before ++ rule :: after) =
      selectorsFor direction (before ++ rule' :: after)) : rule.Alike rule' := by
  have hone (rule : RuleSpec) (direction : Direction) :
      selectorsFor direction (before ++ rule :: after) = selectorsFor direction before ++
        ((if direction ∈ effectiveDirections rule then [rule.selectors] else []) ++
          selectorsFor direction after) := by
    rw [selectorsFor_append, selectorsFor_cons]
    split_ifs <;> rfl
  have hedited (direction : Direction) :
      (if direction ∈ effectiveDirections rule then [rule.selectors] else []) =
        if direction ∈ effectiveDirections rule' then [rule'.selectors] else [] := by
    have hd := h direction
    rw [hone, hone] at hd
    exact List.append_cancel_right (List.append_cancel_left hd)
  refine ⟨?_, fun direction => ?_⟩
  · obtain ⟨direction, hd⟩ := RuleSpec.exists_includes hrule.directions
    have hd' := hedited direction
    rw [if_pos (mem_effectiveDirections.mpr hd)] at hd'
    split_ifs at hd'
    exact List.singleton_injective hd'
  · have hd := hedited direction
    rw [← mem_effectiveDirections, ← mem_effectiveDirections]
    split_ifs at hd with hin hin'
    · exact iff_of_true hin hin'
    · exact iff_of_false hin ‹_›

end Ipmaze
