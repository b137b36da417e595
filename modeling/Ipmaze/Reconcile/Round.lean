import Ipmaze.Reconcile.Publication
import Ipmaze.Runs
import Ipmaze.Sample

/-! A round that meets no failure before it publishes, and the proof of ownership that the
controller's own metadata carries. -/
namespace Ipmaze
open Effects

/-- A policy as the API server returns it: named, with a uid, in a namespace. -/
structure CIDRPolicy.Persisted (policy : CIDRPolicy) : Prop where
  name : policy.metadata.name.isSome
  uid : policy.metadata.uid.isSome
  ns : policy.metadata.ns.isSome

theorem CIDRPolicy.Persisted.controllerOwnerRef {policy : CIDRPolicy} (h : policy.Persisted) :
    ∃ owner, policy.controllerOwnerRef = some owner ∧ some owner.uid = policy.metadata.uid := by
  obtain ⟨name, hname⟩ := Option.isSome_iff_exists.mp h.name
  obtain ⟨uid, huid⟩ := Option.isSome_iff_exists.mp h.uid
  exact ⟨_, by rw [CIDRPolicy.controllerOwnerRef, hname, huid]; rfl, by rw [huid]⟩

section Ownership
variable {policy : CIDRPolicy} {np : NetworkPolicy}

theorem isManagedNetworkPolicyFor_iff :
    isManagedNetworkPolicyFor policy np ↔
      (∃ labels, np.metadata.labels = some labels ∧
        labels.lookup managedByLabel = some managedByValue) ∧
      (∃ annotations, np.metadata.annotations = some annotations ∧
        annotations.lookup sourcePolicyAnnotation = some policy.nameAny) ∧
      ∃ owner owners, policy.controllerOwnerRef = some owner ∧
        np.metadata.ownerReferences = some owners ∧ owner ∈ owners := by
  simp only [isManagedNetworkPolicyFor, Bool.and_eq_true, beq_iff_eq, Option.bind_eq_some_iff,
    Option.any_eq_true, List.any_eq_true, and_assoc]
  refine and_congr_right fun _ => and_congr_right fun _ => ?_
  constructor
  · rintro ⟨owner, howner, owners, howners, _, hmem, rfl⟩
    exact ⟨_, owners, howner, howners, hmem⟩
  · rintro ⟨owner, owners, howner, howners, hmem⟩
    exact ⟨owner, howner, owners, howners, owner, hmem, rfl⟩

theorem managedPolicyMatches_iff {desired : NetworkPolicy} :
    managedPolicyMatches np desired ↔ np.spec = desired.spec ∧
      np.metadata.labels = desired.metadata.labels ∧
      np.metadata.annotations = desired.metadata.annotations ∧
      np.metadata.ownerReferences = desired.metadata.ownerReferences := by
  simp [managedPolicyMatches, and_assoc]

/-- A stored object has the spec of what was applied to it and the metadata that was sent. What
else it carries is left open. -/
structure NetworkPolicy.Carries (stored patch : NetworkPolicy) : Prop where
  spec : stored.spec = patch.spec
  labels : ∀ sent, patch.metadata.labels = some sent → ∃ kept, stored.metadata.labels = some kept ∧
    ∀ key value, sent.lookup key = some value → kept.lookup key = some value
  annotations : ∀ sent, patch.metadata.annotations = some sent →
    ∃ kept, stored.metadata.annotations = some kept ∧
      ∀ key value, sent.lookup key = some value → kept.lookup key = some value
  ownerReferences : ∀ sent, patch.metadata.ownerReferences = some sent →
    ∃ kept, stored.metadata.ownerReferences = some kept ∧ sent ⊆ kept

/-- A forced apply replaces the spec and sets the metadata that is sent. -/
def Apply.Sets (applied : Apply) : Prop := ∀ old patch, (applied old patch).Carries patch

theorem NetworkPolicy.Carries.refl (patch : NetworkPolicy) : patch.Carries patch where
  spec := rfl
  labels sent h := ⟨sent, h, fun _ _ => id⟩
  annotations sent h := ⟨sent, h, fun _ _ => id⟩
  ownerReferences sent h := ⟨sent, h, fun _ => id⟩

theorem NetworkPolicy.Carries.of_matches {stored patch : NetworkPolicy}
    (h : managedPolicyMatches stored patch) : stored.Carries patch := by
  obtain ⟨hspec, hlabels, hannotations, howners⟩ := managedPolicyMatches_iff.mp h
  exact ⟨hspec, fun sent hsent => ⟨sent, hlabels.trans hsent, fun _ _ => id⟩,
    fun sent hsent => ⟨sent, hannotations.trans hsent, fun _ _ => id⟩,
    fun sent hsent => ⟨sent, howners.trans hsent, fun _ => id⟩⟩

theorem renderedMetadata_ownerReferences {owner : OwnerReference}
    (h : policy.controllerOwnerRef = some owner) (ns : String) :
    (policy.renderedMetadata ns).ownerReferences = some [owner] := by
  rw [CIDRPolicy.renderedMetadata, h]
  rfl

/-- A stored rendering is recognised as the policy's own. -/
theorem NetworkPolicy.Carries.isManaged {stored rendered : NetworkPolicy} {ns : String}
    (h : stored.Carries rendered) (hpersisted : policy.Persisted)
    (hmeta : rendered.metadata = policy.renderedMetadata ns) :
    isManagedNetworkPolicyFor policy stored := by
  obtain ⟨owner, howner, -⟩ := hpersisted.controllerOwnerRef
  have howners := renderedMetadata_ownerReferences howner ns
  obtain ⟨labels, hlabels, hlabel⟩ := h.labels managedLabels (by rw [hmeta]; rfl)
  obtain ⟨annotations, hannotations, hannotation⟩ :=
    h.annotations (managedAnnotations policy) (by rw [hmeta]; rfl)
  obtain ⟨owners, hkept, hsub⟩ := h.ownerReferences [owner] (by rw [hmeta, howners])
  have hlabel' := hlabel managedByLabel managedByValue (Finmap.lookup_insert ∅)
  have hannotation' := hannotation sourcePolicyAnnotation policy.nameAny (Finmap.lookup_insert ∅)
  exact isManagedNetworkPolicyFor_iff.mpr ⟨⟨labels, hlabels, hlabel'⟩,
    ⟨annotations, hannotations, hannotation'⟩, owner, owners, howner, hkept,
    hsub (List.mem_singleton_self _)⟩

theorem isManaged_of_metadata {ns : String} (h : policy.Persisted)
    (hmeta : np.metadata = policy.renderedMetadata ns) : isManagedNetworkPolicyFor policy np :=
  (NetworkPolicy.Carries.refl np).isManaged h hmeta

end Ownership

/-- A reconcile of a live policy that is valid and whose source lists some CIDRs, in a world
that loses no API call. It ends its first phase in `w₁`. -/
structure CleanRound (K : Crates) (applied : Apply) (policy : CIDRPolicy) (r : Resolved K)
    (w w₁ : World Calls Choice Cluster) : Prop where
  live : policy.metadata.deletionTimestamp = none
  validated : validatePolicy K policy = .ok r.validated
  ns : policy.metadata.ns = some r.ns
  retrieved : (retrieve K policy r.validated).run (api applied) w = (.ok r.cidrs, w₁)
  rendered : buildManagedNetworkPolicy policy r.cidrs = .ok r.rendered
  delivered : Delivered w

namespace CleanRound
variable {K : Crates} {applied : Apply} {policy : CIDRPolicy} {r : Resolved K}
variable {w w₁ : World Calls Choice Cluster} (h : CleanRound K applied policy r w w₁)
include h

theorem rendered_eq : r.rendered = policy.rendered r.ns r.cidrs := by
  have heq := h.rendered
  rw [buildManagedNetworkPolicy_eq (validateSpec_wellFormed h.validated) h.ns] at heq
  exact (Except.ok.inj heq).symm

theorem rendered_name : r.rendered.metadata.name = some policy.managedNetworkPolicyName := by
  rw [h.rendered_eq]
  rfl

theorem run_resolve : (resolve K policy).run (api applied) w = (.ok r, w₁) := by
  simp only [resolve, h.validated, Except.mapError, Program.ofExcept_ok, Program.ret_bind]
  rw [Program.run_bind_ok _ h.retrieved]
  simp only [h.rendered, h.ns, Option.elim_some, Program.ofExcept_ok, Program.ret_bind,
    Program.pure_eq, Program.run_ret]

theorem run_reconcile :
    (reconcile K policy).run (api applied) w = (publish K policy r).run (api applied) w₁ := by
  rw [reconcile_eq h.live, Program.run_bind_ok _ h.run_resolve]

/-- Remote requests leave the cluster as it is. -/
theorem state_eq : w₁.state = w.state := by
  have hkeep : ((retrieve K policy r.validated).run (api applied) w).2.state = w.state := by
    refine Program.run_preserves (api applied) (J := fun s => s = w.state)
      (retrieve_remote policy r.validated) ?_ w rfl
    intro choice call s hcall hs
    cases call with
    | httpGet url => exact hs
    | _ => exact hcall.elim
  rwa [h.retrieved] at hkeep

theorem delivered_after : Delivered w₁ := by
  have hd := h.delivered.run applied (retrieve K policy r.validated)
  rwa [h.retrieved] at hd

theorem managed_eq (s : Cluster) :
    s.managed policy = s.networkPolicies (r.ns, policy.managedNetworkPolicyName) :=
  s.managed_eq h.ns

theorem stored_eq (s : Cluster) : s.stored policy = s.policies (r.ns, policy.nameAny) :=
  s.stored_eq h.ns

/-- A round that finds nothing to change. -/
theorem run_noChange {current : NetworkPolicy} (hcurrent : w.state.managed policy = some current)
    (howned : isManagedNetworkPolicyFor policy current)
    (hmatches : managedPolicyMatches current r.rendered)
    (hstored : (w.state.stored policy).isSome) :
    (reconcile K policy).run (api applied) w =
      (requeueAt K r.validated.resyncSchedule (w₁.choices 3).now,
        w₁.afterAll (api applied) (noChangeCalls K policy r (w₁.choices 1).now)) := by
  rw [h.managed_eq, ← h.state_eq] at hcurrent
  rw [h.stored_eq, ← h.state_eq] at hstored
  rw [h.run_reconcile]
  exact run_publish_noChange applied h.delivered_after hcurrent howned hmatches hstored

/-- A round that applies the rendering. -/
theorem run_reconciled
    (howned : ∀ np ∈ w.state.managed policy,
      isManagedNetworkPolicyFor policy np ∧ ¬ managedPolicyMatches np r.rendered)
    (hstored : (w.state.stored policy).isSome) :
    (reconcile K policy).run (api applied) w =
      (requeueAt K r.validated.resyncSchedule (w₁.choices 5).now,
        w₁.afterAll (api applied) (reconciledCalls K policy r (w₁.choices 2).now)) := by
  rw [h.managed_eq, ← h.state_eq] at howned
  rw [h.stored_eq, ← h.state_eq] at hstored
  rw [h.run_reconcile]
  exact run_publish_reconciled applied h.delivered_after howned h.rendered_name hstored

/-- What a round that finds nothing to change leaves behind. -/
theorem after_noChange {stored : CIDRPolicy} (hstored : w.state.stored policy = some stored)
    (now : Instant) :
    (w₁.afterAll (api applied) (noChangeCalls K policy r now)).state.managed policy =
        w.state.managed policy ∧
      (w₁.afterAll (api applied) (noChangeCalls K policy r now)).state.stored policy =
        some (stored.withStatus (successStatus K r.observed now)) := by
  rw [h.stored_eq, ← h.state_eq] at hstored
  rw [h.managed_eq, h.managed_eq, h.stored_eq,
    afterAll_noChangeCalls applied h.delivered_after hstored, h.state_eq]
  exact ⟨rfl, Cluster.setPolicy_self ..⟩

/-- What a round that applies the rendering leaves behind. -/
theorem after_reconciled {stored : CIDRPolicy} (hstored : w.state.stored policy = some stored)
    (now : Instant) :
    (w₁.afterAll (api applied) (reconciledCalls K policy r now)).state.managed policy =
        some (applied (w.state.managed policy) r.rendered) ∧
      (w₁.afterAll (api applied) (reconciledCalls K policy r now)).state.stored policy =
        some (stored.withStatus (successStatus K r.observed now)) := by
  rw [h.stored_eq, ← h.state_eq] at hstored
  rw [h.managed_eq, h.managed_eq, h.stored_eq,
    afterAll_reconciledCalls applied h.delivered_after hstored, h.state_eq]
  exact ⟨Cluster.setNetworkPolicy_self .., Cluster.setPolicy_self ..⟩

theorem calls_eq {calls : List Call} {result : Except ReconcileError Action}
    (hrun : (reconcile K policy).run (api applied) w = (result, w₁.afterAll (api applied) calls)) :
    (reconcile K policy).calls (api applied) w =
      (retrieve K policy r.validated).calls (api applied) w ++ calls := by
  have hreconcile := Program.run_calls (api applied) (reconcile K policy) w
  have hretrieve := Program.run_calls (api applied) (retrieve K policy r.validated) w
  rw [hrun, World.afterAll_calls] at hreconcile
  rw [h.retrieved] at hretrieve
  rw [hretrieve, List.append_assoc] at hreconcile
  exact (List.append_cancel_left hreconcile).symm

end CleanRound

/-- A reconcile that finds the stored NetworkPolicy as it should be: it neither writes one nor
announces anything. -/
structure FindsNoChange (K : Crates) (applied : Apply) (policy : CIDRPolicy) (r : Resolved K)
    (w : World Calls Choice Cluster) : Prop where
  outcome : classifyOutcome (w.state.managed policy) r.rendered r.observed = .noChange r.observed
  noWrite : ∀ call ∈ (reconcile K policy).calls (api applied) w, call.writtenNetworkPolicy = none
  noEvent : ∀ call ∈ (reconcile K policy).calls (api applied) w, ∀ event reference,
    call ≠ .publishEvent event reference

/-- Whether a clean round finds no change is decided by the comparison alone. -/
theorem CleanRound.findsNoChange_iff {K : Crates} {applied : Apply} {policy : CIDRPolicy}
    {r : Resolved K} {w w₁ : World Calls Choice Cluster}
    (h : CleanRound K applied policy r w w₁) {np : NetworkPolicy}
    (hnp : w.state.managed policy = some np) (howned : isManagedNetworkPolicyFor policy np)
    (hstored : (w.state.stored policy).isSome) :
    FindsNoChange K applied policy r w ↔ managedPolicyMatches np r.rendered := by
  constructor
  · intro hfinds
    have houtcome := hfinds.outcome
    rw [hnp] at houtcome
    by_contra hmatches
    rw [classifyOutcome, if_neg hmatches] at houtcome
    cases houtcome
  · intro hmatches
    have hcalls := h.calls_eq (h.run_noChange hnp howned hmatches hstored)
    have hremote := (retrieve_remote policy r.validated).calls (api applied) w
    refine ⟨?_, ?_, ?_⟩
    · rw [hnp]
      exact if_pos hmatches
    · intro call hcall
      rw [hcalls] at hcall
      rcases List.mem_append.mp hcall with hcall | hcall
      · have := hremote call hcall
        cases call with
        | httpGet url => rfl
        | _ => exact this.elim
      · simp only [noChangeCalls, List.mem_cons, List.not_mem_nil, or_false] at hcall
        rcases hcall with rfl | rfl | rfl | rfl <;> rfl
    · rintro call hcall event reference rfl
      rw [hcalls] at hcall
      rcases List.mem_append.mp hcall with hcall | hcall
      · exact hremote _ hcall
      · simp [noChangeCalls, statusCall] at hcall

namespace Sample

theorem persisted (rules : List RuleSpec) (status : Option CIDRPolicyStatus) :
    (policyWith rules status).Persisted := ⟨rfl, rfl, rfl⟩

def validated : ValidatedPolicy crates where
  sourceAddress := { original := address, remoteAddress := .url url, requestUrl := url }
  pointerRegex := none
  resyncSchedule := Schedule.daily

def resolved (rules : List RuleSpec) : Resolved crates where
  validated := validated
  cidrs := [cidr]
  rendered := (policyWith rules none).rendered "payments" [cidr]
  ns := "payments"

/-- A reconcile of a sample policy, whatever the cluster holds. -/
theorem cleanRound (applied : Apply) (rules : List RuleSpec) (status : Option CIDRPolicyStatus)
    (hvalid : validatePolicy crates (policyWith rules status) = .ok validated) (s : Cluster)
    (now : Instant) :
    CleanRound crates applied (policyWith rules status) (resolved rules) (worldAt s now)
      ((worldAt s now).after (api applied) (.httpGet url)) where
  live := rfl
  validated := hvalid
  ns := rfl
  retrieved := by rfl
  rendered := buildManagedNetworkPolicy_eq (validateSpec_wellFormed hvalid) rfl [cidr]
  delivered _ := rfl

end Sample
end Ipmaze
