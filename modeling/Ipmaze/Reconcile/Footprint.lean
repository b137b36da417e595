import Ipmaze.Reconcile.Phases

/-! The keys a run touches. Whatever the answers it receives, a run for one CIDRPolicy names
no object but that policy and its managed NetworkPolicy, to which it sends its own metadata. -/
namespace Ipmaze
open Effects

/-- The API calls on the policy's own keys; calls that name no object are free. -/
def Call.Within (policy : CIDRPolicy) : Call → Prop
  | getNetworkPolicy ns name | deleteNetworkPolicy ns name =>
    policy.metadata.ns = some ns ∧ name = policy.managedNetworkPolicyName
  | patchNetworkPolicy ns name _ patch =>
    policy.metadata.ns = some ns ∧ name = policy.managedNetworkPolicyName ∧
      patch.metadata = policy.renderedMetadata ns
  | getPolicy ns name | patchStatus ns name _ _ =>
    policy.metadata.ns = some ns ∧ name = policy.nameAny
  | _ => True

theorem Call.within_of_isRemote (policy : CIDRPolicy) {call : Call} (h : call.IsRemote) :
    call.Within policy := by
  cases call with
  | httpGet url => trivial
  | _ => exact h.elim

variable (K : Crates) {policy : CIDRPolicy} {ns : String}

theorem publishPolicyEvent_within (policy : CIDRPolicy) (eventType : EventType)
    (reason action : String) (note : Option String) (secondary : Option NetworkPolicy) :
    (publishPolicyEvent policy eventType reason action note secondary).Makes
      (Call.Within policy) :=
  publishPolicyEvent_makes (fun _ _ => trivial) policy _ _ _ _ _

theorem applyManagedNetworkPolicy_within (hns : policy.metadata.ns = some ns)
    {rendered : NetworkPolicy} (hmeta : rendered.metadata = policy.renderedMetadata ns) :
    (applyManagedNetworkPolicy ns rendered).Makes (Call.Within policy) :=
  ⟨⟨hns, by rw [hmeta]; rfl, hmeta⟩, fun _ => Program.makes_ofExcept _⟩

theorem patchStatusForOutcome_within (hns : policy.metadata.ns = some ns)
    (outcome : ReconcileOutcome) :
    (patchStatusForOutcome K ns policy outcome).Makes (Call.Within policy) :=
  patchStatusForOutcome_makes trivial ⟨hns, rfl⟩ (fun _ _ => ⟨hns, rfl⟩) outcome

variable {K}

theorem publish_within {r : Resolved K} (h : r.Sound policy) :
    (publish K policy r).Makes (Call.Within policy) :=
  publish_makes ⟨h.ns, rfl⟩ trivial (fun _ _ => trivial)
    (applyManagedNetworkPolicy_within h.ns h.rendered_metadata)
    fun outcome _ => patchStatusForOutcome_within K h.ns outcome

theorem cleanup_within (policy : CIDRPolicy) : (cleanup policy).Makes (Call.Within policy) :=
  cleanup_makes (fun _ hns => ⟨hns, rfl⟩) (fun _ hns => ⟨hns, rfl⟩) fun _ _ => trivial

variable (K)

theorem reconcile_within (policy : CIDRPolicy) :
    (reconcile K policy).Makes (Call.Within policy) := by
  cases hd : policy.metadata.deletionTimestamp with
  | some deletion =>
    rw [reconcile_terminating (by rw [hd]; rfl)]
    exact (cleanup_within policy).bind fun _ => trivial
  | none =>
    rw [reconcile_eq hd]
    have hresolve := (resolve_remote (K := K) policy).mono fun _ => Call.within_of_isRemote policy
    exact hresolve.bind_of_yields (resolve_sound policy) fun r hr => publish_within hr

theorem handleReconcileFailure_within (policy : CIDRPolicy) (stage : ReconcileStage)
    (message : String) :
    (handleReconcileFailure K policy stage message).Makes (Call.Within policy) := by
  unfold handleReconcileFailure
  cases hns : policy.metadata.ns with
  | none => trivial
  | some ns =>
    exact (patchStatusForOutcome_within K hns _).bind fun _ => publishPolicyEvent_within ..

end Ipmaze
