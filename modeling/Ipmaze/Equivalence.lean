import Ipmaze.Rendering.Change
import Ipmaze.Runs
import Ipmaze.Sample

/-! Policies that differ in how they are written only. The controller does the same for them, call
by call, whatever it is answered. -/
namespace Ipmaze
open Effects

/-- A schedule may be left out instead of writing the default, and space may surround an address. -/
structure CIDRPolicySpec.SameAs (spec spec' : CIDRPolicySpec) : Prop where
  address : Text.trim spec.source.address = Text.trim spec'.source.address
  pointer : spec.source.pointer = spec'.source.pointer
  jmesPath : spec.source.jmesPath = spec'.source.jmesPath
  resyncSchedule : spec.resyncSchedule.getD defaultResyncSchedule =
    spec'.resyncSchedule.getD defaultResyncSchedule
  target : spec.target = spec'.target
  rules : List.Forall₂ RuleSpec.Alike spec.rules spec'.rules

/-- The same object with the same meaning; labels, annotations, owners and status may differ. -/
structure CIDRPolicy.SameAs (policy policy' : CIDRPolicy) : Prop extends
    policy.SameObject policy' where
  deletionTimestamp : policy.metadata.deletionTimestamp.isSome =
    policy'.metadata.deletionTimestamp.isSome
  spec : policy.spec.SameAs policy'.spec

section Rules
variable {rule rule' : RuleSpec} {rules rules' : List RuleSpec} {cidrs : List NormalizedCidr}

/-- A list of directions is empty exactly if it includes none. -/
theorem directions_eq_nil_iff :
    rule.directions = some [] ↔ ∀ direction, ¬ rule.Includes direction := by
  constructor
  · intro h direction hincludes
    simpa using hincludes [] h
  · intro h
    by_contra hne
    obtain ⟨direction, hincludes⟩ := RuleSpec.exists_includes hne
    exact h direction hincludes

theorem RuleSpec.Alike.directions_eq_nil (h : rule.Alike rule') :
    rule.directions = some [] ↔ rule'.directions = some [] := by
  rw [directions_eq_nil_iff, directions_eq_nil_iff]
  exact forall_congr' fun direction => not_congr (h.2 direction)

theorem RuleSpec.Alike.podSelector (h : rule.Alike rule') : rule.podSelector = rule'.podSelector :=
  congrArg Prod.fst h.1

theorem RuleSpec.Alike.namespaceSelector (h : rule.Alike rule') :
    rule.namespaceSelector = rule'.namespaceSelector := congrArg Prod.snd h.1

theorem RuleSpec.Alike.effectiveDirections (h : rule.Alike rule') :
    effectiveDirections rule = effectiveDirections rule' := by
  apply BTreeSet.ext
  intro direction
  rw [mem_effectiveDirections, mem_effectiveDirections]
  exact h.2 direction

theorem RuleSpec.Alike.validateRule (h : rule.Alike rule') :
    validateRule rule = validateRule rule' := by
  simp only [Ipmaze.validateRule, h.podSelector, h.namespaceSelector, h.directions_eq_nil]

theorem RuleSpec.Alike.buildPeers (h : rule.Alike rule') (cidrs : List NormalizedCidr) :
    buildPeers rule cidrs = buildPeers rule' cidrs := by
  simp only [Ipmaze.buildPeers, renderPeerSelector, h.podSelector, h.namespaceSelector]

/-- Checks that agree rule by rule agree on all rules. -/
theorem forM_congr {f : RuleSpec → Except ValidationError Unit}
    (hf : ∀ rule rule' : RuleSpec, rule.Alike rule' → f rule = f rule')
    (h : List.Forall₂ RuleSpec.Alike rules rules') : rules.forM f = rules'.forM f := by
  induction h with
  | nil => rfl
  | cons hrule _ ih => rw [List.forM, List.forM, hf _ _ hrule, ih]

theorem buildDirectionRules_congr {β : Type} (direction : Direction)
    (build : List NetworkPolicyPeer → β) (h : List.Forall₂ RuleSpec.Alike rules rules') :
    buildDirectionRules direction build rules cidrs =
      buildDirectionRules direction build rules' cidrs := by
  unfold buildDirectionRules
  induction h with
  | nil => rfl
  | cons hrule _ ih =>
    simp only [List.filter_cons, hrule.effectiveDirections]
    split
    · rw [List.mapM_cons, List.mapM_cons, hrule.buildPeers, ih]
    · exact ih

end Rules

section Specs
variable (K : Crates) {spec spec' : CIDRPolicySpec}

theorem CIDRPolicySpec.SameAs.symm (h : spec.SameAs spec') : spec'.SameAs spec :=
  ⟨h.address.symm, h.pointer.symm, h.jmesPath.symm, h.resyncSchedule.symm, h.target.symm,
    h.rules.flip.imp fun _ _ hrule => ⟨hrule.1.symm, fun direction => (hrule.2 direction).symm⟩⟩

theorem normalizeSourceAddress_congr {address address' : String}
    (h : Text.trim address = Text.trim address') :
    normalizeSourceAddress K address = normalizeSourceAddress K address' := by
  simp only [normalizeSourceAddress, h]

theorem CIDRPolicySpec.SameAs.validateSpec (h : spec.SameAs spec') :
    validateSpec K spec = validateSpec K spec' := by
  have hschedule : validateResyncSchedule K spec.resyncSchedule =
      validateResyncSchedule K spec'.resyncSchedule := by
    simp only [validateResyncSchedule, h.resyncSchedule]
  have hrules : spec.rules.forM validateRule = spec'.rules.forM validateRule :=
    forM_congr (fun _ _ hrule => hrule.validateRule) h.rules
  have hempty : spec.rules = [] ↔ spec'.rules = [] := by
    have hlength := h.rules.length_eq
    rw [← List.length_eq_zero_iff, ← List.length_eq_zero_iff, hlength]
  simp only [Ipmaze.validateSpec, hempty, normalizeSourceAddress_congr K h.address, h.pointer,
    h.jmesPath, hschedule, h.target, hrules]

theorem CIDRPolicySpec.SameAs.rendered (h : spec.SameAs spec') (cidrs : List NormalizedCidr) :
    spec.rendered cidrs = spec'.rendered cidrs := by
  have hselectors := selectorsFor_alike h.rules
  have hpeers (direction : Direction) : (rulesFor direction spec.rules).map (RuleSpec.peers cidrs) =
      (rulesFor direction spec'.rules).map (RuleSpec.peers cidrs) :=
    map_peers_eq_iff.mpr ⟨hselectors direction, fun _ => rfl⟩
  have hbuild {β : Type} {f : RuleSpec → β} (build : List NetworkPolicyPeer → β)
      (hf : f = build ∘ RuleSpec.peers cidrs) (direction : Direction) :
      (rulesFor direction spec.rules).map f = (rulesFor direction spec'.rules).map f := by
    rw [hf, ← List.map_map, ← List.map_map, hpeers]
  have hegress := hbuild (f := RuleSpec.toEgress cidrs) (fun peers => ⟨none, some peers⟩) rfl .egress
  have hingress :=
    hbuild (f := RuleSpec.toIngress cidrs) (fun peers => ⟨some peers, none⟩) rfl .ingress
  simp only [CIDRPolicySpec.rendered, h.target, buildPolicyTypes_congr hselectors, hegress, hingress]

end Specs

section Policies
variable {K : Crates} {policy policy' : CIDRPolicy}

namespace CIDRPolicy.SameAs

theorem objectRef (h : policy.SameObject policy') : policy.objectRef = policy'.objectRef := by
  simp only [CIDRPolicy.objectRef, h.name, h.ns, h.uid]

theorem buildManagedNetworkPolicy (h : policy.SameAs policy') (cidrs : List NormalizedCidr) :
    buildManagedNetworkPolicy policy cidrs = buildManagedNetworkPolicy policy' cidrs := by
  simp only [Ipmaze.buildManagedNetworkPolicy, h.ns, h.managedNetworkPolicyName, h.spec.target,
    buildIngressRules, buildEgressRules, buildDirectionRules_congr _ _ h.spec.rules,
    buildPolicyTypes_congr (selectorsFor_alike h.spec.rules), managedAnnotations, h.nameAny,
    h.controllerOwnerRef]

theorem publishPolicyEvent (h : policy.SameObject policy') :
    publishPolicyEvent policy = publishPolicyEvent policy' := by
  funext eventType reason action note secondary
  simp only [Ipmaze.publishPolicyEvent, objectRef h]

theorem getManagedNetworkPolicy (h : policy.SameObject policy') (ns action : String) :
    getManagedNetworkPolicy ns policy action = getManagedNetworkPolicy ns policy' action := by
  simp only [Ipmaze.getManagedNetworkPolicy, h.managedNetworkPolicyName, h.isManaged,
    reportManagedPolicyCollision, publishPolicyEvent h]

/-- A success does not look at the status it replaces, and a failure reads it anew. -/
theorem patchStatusForOutcome (h : policy.SameObject policy') (ns : String)
    (outcome : ReconcileOutcome) :
    patchStatusForOutcome K ns policy outcome = patchStatusForOutcome K ns policy' outcome := by
  cases outcome with
  | reconciled observed | noChange observed =>
    simp only [Ipmaze.patchStatusForOutcome, h.nameAny, pure_bind, statusForOutcome]
  | failed stage message => simp only [Ipmaze.patchStatusForOutcome, h.nameAny]

theorem publishOutcomeEvent (h : policy.SameObject policy') :
    publishOutcomeEvent policy = publishOutcomeEvent policy' := by
  funext managed outcome
  cases outcome <;> simp only [Ipmaze.publishOutcomeEvent, publishPolicyEvent h]

theorem cleanup (h : policy.SameObject policy') : cleanup policy = cleanup policy' := by
  simp only [Ipmaze.cleanup, h.ns, getManagedNetworkPolicy h, deleteManagedNetworkPolicy,
    h.managedNetworkPolicyName, publishPolicyEvent h]

theorem handleReconcileFailure (h : policy.SameObject policy') (stage : ReconcileStage)
    (message : String) : handleReconcileFailure K policy stage message =
      handleReconcileFailure K policy' stage message := by
  simp only [Ipmaze.handleReconcileFailure, h.ns, patchStatusForOutcome h, publishPolicyEvent h]

theorem reconcile (h : policy.SameAs policy') : reconcile K policy = reconcile K policy' := by
  simp only [Ipmaze.reconcile, h.deletionTimestamp, cleanup h.toSameObject, validatePolicy,
    h.spec.validateSpec, h.spec.jmesPath, h.buildManagedNetworkPolicy, h.ns,
    getManagedNetworkPolicy h.toSameObject, patchStatusForOutcome h.toSameObject,
    publishOutcomeEvent h.toSameObject]

end CIDRPolicy.SameAs

/-- What a policy is called and what its spec means decide every call of its runs. -/
theorem same_policies_run_alike (h : policy.SameAs policy') :
    reconcile K policy = reconcile K policy' ∧ cleanup policy = cleanup policy' ∧
      ∀ stage message, handleReconcileFailure K policy stage message =
        handleReconcileFailure K policy' stage message :=
  ⟨h.reconcile, CIDRPolicy.SameAs.cleanup h.toSameObject,
    CIDRPolicy.SameAs.handleReconcileFailure h.toSameObject⟩

end Policies

section Defaults

def RuleSpec.explicit (rule : RuleSpec) : RuleSpec :=
  { rule with directions := some (rule.directions.getD [.ingress, .egress]) }

/-- What is left to the defaults is written out. -/
def CIDRPolicySpec.explicit (spec : CIDRPolicySpec) : CIDRPolicySpec :=
  { spec with
    resyncSchedule := some (spec.resyncSchedule.getD defaultResyncSchedule)
    rules := spec.rules.map RuleSpec.explicit }

theorem RuleSpec.alike_explicit (rule : RuleSpec) : rule.Alike rule.explicit := by
  refine ⟨rfl, fun direction => ?_⟩
  simp only [Includes, explicit, Option.mem_some_iff, forall_eq']
  cases rule.directions with
  | none => cases direction <;> simp
  | some directions => simp

theorem CIDRPolicySpec.sameAs_explicit (spec : CIDRPolicySpec) : spec.SameAs spec.explicit := by
  refine ⟨rfl, rfl, rfl, rfl, rfl, ?_⟩
  rw [explicit, List.forall₂_map_right_iff, List.forall₂_same]
  exact fun rule _ => rule.alike_explicit

end Defaults

namespace Sample

/-- The sample policy with its defaults written out, a label and a status. -/
def explicitPolicy : CIDRPolicy where
  metadata := { policy.metadata with labels := some (Finmap.insert "team" "payments" ∅) }
  spec := policy.spec.explicit
  status := some { lastObservedCidrs := ["192.0.2.0/24"] }

end Sample

open Sample in
theorem explicitPolicy_runs_alike : reconcile crates policy = reconcile crates explicitPolicy := by
  have hsame : policy.SameAs explicitPolicy :=
    ⟨⟨rfl, rfl, rfl, rfl⟩, rfl, CIDRPolicySpec.sameAs_explicit policy.spec⟩
  exact (same_policies_run_alike hsame).1

end Ipmaze
