import Ipmaze.Reconcile.Round
import Ipmaze.Rendering.Meaning

/-! The API server drops optional fields that hold an empty list or map from what it stores.
A rendering survives this only if it has no such field. -/
namespace Ipmaze
open Effects

/-- A field that is dropped when it holds the empty collection. -/
def omitEmpty {α : Type} [DecidableEq α] (empty : α) (field : Option α) : Option α :=
  field.filter (· ≠ empty)

theorem omitEmpty_eq_self {α : Type} [DecidableEq α] {empty : α} {field : Option α} :
    omitEmpty empty field = field ↔ field ≠ some empty := by
  cases field <;> simp [omitEmpty, Option.filter_some]

def KubeLabelSelector.storedForm (selector : KubeLabelSelector) : KubeLabelSelector where
  matchLabels := omitEmpty ∅ selector.matchLabels
  matchExpressions := omitEmpty [] selector.matchExpressions

def NetworkPolicyPeer.storedForm (peer : NetworkPolicyPeer) : NetworkPolicyPeer where
  ipBlock := peer.ipBlock
  namespaceSelector := peer.namespaceSelector.map KubeLabelSelector.storedForm
  podSelector := peer.podSelector.map KubeLabelSelector.storedForm

def storedPeers (peers : Option (List NetworkPolicyPeer)) : Option (List NetworkPolicyPeer) :=
  omitEmpty [] (peers.map (List.map NetworkPolicyPeer.storedForm))

def NetworkPolicyIngressRule.storedForm (rule : NetworkPolicyIngressRule) :
    NetworkPolicyIngressRule where
  fromPeers := storedPeers rule.fromPeers
  ports := rule.ports

def NetworkPolicyEgressRule.storedForm (rule : NetworkPolicyEgressRule) :
    NetworkPolicyEgressRule where
  ports := rule.ports
  toPeers := storedPeers rule.toPeers

def NetworkPolicySpec.storedForm (spec : NetworkPolicySpec) : NetworkPolicySpec where
  egress := omitEmpty [] (spec.egress.map (List.map NetworkPolicyEgressRule.storedForm))
  ingress := omitEmpty [] (spec.ingress.map (List.map NetworkPolicyIngressRule.storedForm))
  podSelector := spec.podSelector.storedForm
  policyTypes := spec.policyTypes

def NetworkPolicy.storedForm (networkPolicy : NetworkPolicy) : NetworkPolicy where
  metadata := networkPolicy.metadata
  spec := networkPolicy.spec.map NetworkPolicySpec.storedForm

/-- The server keeps what is applied, in stored form. -/
def omitting : Apply := fun _ patch => patch.storedForm

def LabelSelector.NothingEmpty (selector : LabelSelector) : Prop :=
  selector.matchLabels ≠ some ∅ ∧ selector.matchExpressions ≠ some []

def RuleSpec.NothingEmpty (rule : RuleSpec) : Prop :=
  (∀ selector ∈ rule.podSelector, selector.NothingEmpty) ∧
    ∀ selector ∈ rule.namespaceSelector, selector.NothingEmpty

/-- Both directions occur in some rule, and no selector holds an empty map or list. -/
structure CIDRPolicySpec.NothingEmpty (spec : CIDRPolicySpec) : Prop where
  directions : ∀ direction, ∃ rule ∈ spec.rules, rule.Includes direction
  target : spec.target.podSelector.NothingEmpty
  rules : ∀ rule ∈ spec.rules, rule.NothingEmpty

section Fixpoint

theorem LabelSelector.toKube_storedForm {selector : LabelSelector} :
    selector.toKube.storedForm = selector.toKube ↔ selector.NothingEmpty := by
  obtain ⟨matchLabels, matchExpressions⟩ := selector
  have hexpressions : matchExpressions.map (List.map LabelSelectorRequirement.toKube) ≠ some [] ↔
      matchExpressions ≠ some [] := by
    cases matchExpressions <;> simp
  rw [KubeLabelSelector.storedForm, KubeLabelSelector.mk.injEq, omitEmpty_eq_self,
    omitEmpty_eq_self]
  exact and_congr_right fun _ => hexpressions

theorem map_storedForm {selector : Option LabelSelector} :
    (selector.map LabelSelector.toKube).map KubeLabelSelector.storedForm =
      selector.map LabelSelector.toKube ↔ ∀ s ∈ selector, s.NothingEmpty := by
  cases selector with
  | none => simp
  | some s => simp [LabelSelector.toKube_storedForm]

theorem selectorPeer_storedForm {rule : RuleSpec} :
    rule.selectorPeer.storedForm = rule.selectorPeer ↔ rule.NothingEmpty := by
  simp only [NetworkPolicyPeer.storedForm, RuleSpec.selectorPeer, NetworkPolicyPeer.mk.injEq,
    true_and, map_storedForm, RuleSpec.NothingEmpty]
  exact and_comm

theorem storedPeers_eq_self {rule : RuleSpec} (cidrs : List NormalizedCidr) :
    storedPeers (some (rule.peers cidrs)) = some (rule.peers cidrs) ↔ rule.NothingEmpty := by
  have hblocks : (cidrs.map blockPeer).map NetworkPolicyPeer.storedForm = cidrs.map blockPeer := by
    rw [List.map_map]
    rfl
  have hkept : storedPeers (some (rule.peers cidrs)) =
      some (rule.selectorPeer.storedForm :: cidrs.map blockPeer) := by
    rw [storedPeers, RuleSpec.peers, Option.map_some, List.map_cons, hblocks, omitEmpty_eq_self]
    simp
  rw [hkept, RuleSpec.peers, Option.some_inj, List.cons.injEq, selectorPeer_storedForm]
  exact and_iff_left rfl

/-- A list field survives if it is not empty and each of its elements does. -/
theorem omitEmpty_map_eq_self {α β : Type} [DecidableEq β] {f : α → β} {stored : β → β}
    {l : List α} :
    omitEmpty [] ((some (l.map f)).map (List.map stored)) = some (l.map f) ↔
      l ≠ [] ∧ ∀ a ∈ l, stored (f a) = f a := by
  cases l with
  | nil => simp [omitEmpty, Option.filter_some]
  | cons a l => simp [omitEmpty, Option.filter_some]

theorem toIngress_storedForm {rule : RuleSpec} (cidrs : List NormalizedCidr) :
    (rule.toIngress cidrs).storedForm = rule.toIngress cidrs ↔ rule.NothingEmpty := by
  rw [← storedPeers_eq_self cidrs, NetworkPolicyIngressRule.storedForm, RuleSpec.toIngress,
    NetworkPolicyIngressRule.mk.injEq]
  exact and_iff_left rfl

theorem toEgress_storedForm {rule : RuleSpec} (cidrs : List NormalizedCidr) :
    (rule.toEgress cidrs).storedForm = rule.toEgress cidrs ↔ rule.NothingEmpty := by
  rw [← storedPeers_eq_self cidrs, NetworkPolicyEgressRule.storedForm, RuleSpec.toEgress,
    NetworkPolicyEgressRule.mk.injEq]
  exact and_iff_right rfl

theorem rulesFor_ne_nil {rules : List RuleSpec} {direction : Direction} :
    rulesFor direction rules ≠ [] ↔ ∃ rule ∈ rules, rule.Includes direction := by
  constructor
  · intro h
    obtain ⟨rule, hr⟩ := List.exists_mem_of_ne_nil _ h
    exact ⟨rule, mem_rulesFor.mp hr⟩
  · rintro ⟨rule, hr, hd⟩
    exact List.ne_nil_of_mem (mem_rulesFor.mpr ⟨hr, hd⟩)

/-- A validated rendering is its own stored form exactly if it has nothing empty. -/
theorem rendered_storedForm {spec : CIDRPolicySpec} (h : spec.WellFormed)
    (cidrs : List NormalizedCidr) :
    (spec.rendered cidrs).storedForm = spec.rendered cidrs ↔ spec.NothingEmpty := by
  rw [NetworkPolicySpec.storedForm, CIDRPolicySpec.rendered, NetworkPolicySpec.mk.injEq]
  simp only [omitEmpty_map_eq_self, rulesFor_ne_nil, toIngress_storedForm, toEgress_storedForm,
    LabelSelector.toKube_storedForm, mem_rulesFor, and_true]
  constructor
  · rintro ⟨⟨hegress, hegress'⟩, ⟨hingress, hingress'⟩, htarget⟩
    refine ⟨?_, htarget, ?_⟩
    · intro direction
      cases direction
      · exact hingress
      · exact hegress
    · intro rule hr
      obtain ⟨direction, hd⟩ := RuleSpec.exists_includes (h.rules rule hr).directions
      cases direction with
      | ingress => exact hingress' rule ⟨hr, hd⟩
      | egress => exact hegress' rule ⟨hr, hd⟩
  · rintro ⟨hdirections, htarget, hrules⟩
    exact ⟨⟨hdirections .egress, fun rule hr => hrules rule hr.1⟩,
      ⟨hdirections .ingress, fun rule hr => hrules rule hr.1⟩, htarget⟩

end Fixpoint

section Rounds
variable {K : Crates} {policy : CIDRPolicy} {r : Resolved K}

/-- A round compares the stored form of the rendering with the rendering. -/
theorem storedForm_matches (h : policy.spec.WellFormed)
    (hrendered : r.rendered = policy.rendered r.ns r.cidrs) :
    managedPolicyMatches r.rendered.storedForm r.rendered ↔ policy.spec.NothingEmpty := by
  have hspec : r.rendered.storedForm.spec = r.rendered.spec ↔
      (policy.spec.rendered r.cidrs).storedForm = policy.spec.rendered r.cidrs := by
    rw [hrendered]
    exact Option.some_inj
  rw [managedPolicyMatches_iff, hspec, rendered_storedForm h]
  exact and_iff_left ⟨rfl, rfl, rfl⟩

variable {w w₁ v v₁ : World Calls Choice Cluster} {status : Option CIDRPolicyStatus}

/-- Once a reconcile has applied the rendering, the next one with the same spec and the same
CIDRs finds no change exactly if the spec has nothing empty. -/
theorem reconcile_idempotent_iff (h : CleanRound K omitting policy r w w₁)
    (hpersisted : policy.Persisted) (hstored : (w.state.stored policy).isSome)
    (happlies : ∀ np ∈ w.state.managed policy,
      isManagedNetworkPolicyFor policy np ∧ ¬ managedPolicyMatches np r.rendered)
    (hv : v.state = ((reconcile K policy).run (api omitting) w).2.state)
    (h' : CleanRound K omitting { policy with status } r v v₁) :
    FindsNoChange K omitting { policy with status } r v ↔ policy.spec.NothingEmpty := by
  obtain ⟨stored, hstored'⟩ := Option.isSome_iff_exists.mp hstored
  obtain ⟨hmanaged, hstatus⟩ := h.after_reconciled hstored' (w₁.choices 2).now
  rw [h.run_reconciled happlies hstored] at hv
  have hmeta := renderedMetadata_of_build h.ns h.rendered
  have howned : isManagedNetworkPolicyFor policy r.rendered.storedForm :=
    isManaged_of_metadata hpersisted hmeta
  rw [← storedForm_matches (validateSpec_wellFormed h.validated) h.rendered_eq]
  refine h'.findsNoChange_iff ?_ howned ?_
  · rw [hv]
    exact hmanaged
  · rw [hv]
    exact Option.isSome_of_eq_some hstatus

end Rounds

namespace Sample

/-- The sample policy in both directions. -/
def bothWays : CIDRPolicy := policyWith [{ rule with directions := none }] none

end Sample

open Sample in
theorem bothWays_idempotent :
    FindsNoChange crates omitting bothWays (resolved bothWays.spec.rules)
      (worldAt ((reconcile crates bothWays).run (api omitting)
        (worldAt (cluster bothWays none) 0)).2.state 60000000000) := by
  have hround (s : Cluster) (now : Instant) := cleanRound omitting bothWays.spec.rules none
    (by rfl) s now
  have hlater : ∀ s, CleanRound crates omitting { bothWays with status := none } _ _ _ :=
    fun s => hround s 60000000000
  refine (reconcile_idempotent_iff (hround (cluster bothWays none) 0) (persisted _ none)
    (by decide) (by decide) (v := worldAt _ 60000000000) rfl (hlater _)).mpr ⟨?_, ?_, ?_⟩
  · intro direction
    exact ⟨_, List.mem_singleton_self _, nofun⟩
  · exact ⟨by decide, nofun⟩
  · intro rule hr
    cases List.mem_singleton.mp hr
    refine ⟨fun selector hs => ?_, nofun⟩
    cases hs
    exact ⟨by decide, nofun⟩

open Sample in
/-- With ingress rules only, the empty egress list is lost and every round patches again. -/
theorem ingressOnly_patched_again :
    ∃ w₂, (reconcile crates policy).run (api omitting) (worldAt (cluster policy none) 0) =
        (.ok (.requeue 86400000000000), w₂) ∧
      ¬ FindsNoChange crates omitting policy (resolved policy.spec.rules)
        (worldAt w₂.state 60000000000) ∧
      ∃ call ∈ (reconcile crates policy).calls (api omitting) (worldAt w₂.state 60000000000),
        call.writtenNetworkPolicy = some ("payments", "office-allowlist-managed") := by
  refine ⟨_, rfl, ?_, by decide⟩
  intro h
  have houtcome := h.outcome
  revert houtcome
  decide

end Ipmaze
