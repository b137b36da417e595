import Ipmaze.Reconcile.Round
import Ipmaze.Sample

/-! One clean round repairs whatever an earlier run, an older spec or another client left
under the managed name. -/
namespace Ipmaze
open Effects

section Repair
variable {K : Crates} {applied : Apply} {policy : CIDRPolicy}

variable {r : Resolved K} {w w₁ : World Calls Choice Cluster}

/-- From every state in which the managed name is free or holds the policy's own NetworkPolicy,
and from every prior status, one clean round succeeds, asks for the next occurrence of the
schedule, and leaves the rendered spec, recognised as the policy's own, and the status of a
success with the CIDRs retrieved. -/
theorem reconcile_repairs (h : CleanRound K applied policy r w w₁) (hsets : Apply.Sets applied)
    (hpersisted : policy.Persisted) (hstored : (w.state.stored policy).isSome)
    (howned : ∀ np ∈ w.state.managed policy, isManagedNetworkPolicyFor policy np)
    (hfuture : ∀ n, ∃ next, K.nextAfter r.validated.resyncSchedule (w.choices n).now = some next ∧
      (w.choices n).now < next) :
    ∃ w₂ n next, (reconcile K policy).run (api applied) w =
        (.ok (.requeue (next - (w.choices n).now).toNat), w₂) ∧
      K.nextAfter r.validated.resyncSchedule (w.choices n).now = some next ∧
      (∃ np, w₂.state.managed policy = some np ∧ np.spec = r.rendered.spec ∧
        isManagedNetworkPolicyFor policy np) ∧
      ∃ stored status, w₂.state.stored policy = some stored ∧ stored.status = some status ∧
        status.lastObservedCidrs = r.cidrs.map NormalizedCidr.rendered ∧
        status.lastReconciliationError = none := by
  obtain ⟨m, hm⟩ := (retrieve K policy r.validated).run_choices (api applied) w
  rw [h.retrieved] at hm
  obtain ⟨stored, hstored'⟩ := Option.isSome_iff_exists.mp hstored
  by_cases hmatches : ∃ np, w.state.managed policy = some np ∧ managedPolicyMatches np r.rendered
  · obtain ⟨np, hnp, hmatches⟩ := hmatches
    obtain ⟨next, hnext, hlt⟩ := hfuture (3+m)
    obtain ⟨hmanaged, hstatus⟩ := h.after_noChange hstored' (w₁.choices 1).now
    refine ⟨_, 3+m, next, ?_, hnext, ⟨np, hmanaged.trans hnp, ?_, howned np hnp⟩, ?_⟩
    · rw [h.run_noChange hnp (howned np hnp) hmatches hstored, hm, requeueAt_eq hnext hlt]
    · exact (managedPolicyMatches_iff.mp hmatches).1
    · exact ⟨_, _, hstatus, rfl, rfl, rfl⟩
  · obtain ⟨next, hnext, hlt⟩ := hfuture (5+m)
    obtain ⟨hmanaged, hstatus⟩ := h.after_reconciled hstored' (w₁.choices 2).now
    have hmeta := renderedMetadata_of_build h.ns h.rendered
    refine ⟨_, 5+m, next, ?_, hnext, ⟨_, hmanaged, ?_, ?_⟩, ?_⟩
    · rw [h.run_reconciled (fun np hnp => ⟨howned np hnp, fun hmatch => hmatches ⟨np, hnp, hmatch⟩⟩)
        hstored, hm, requeueAt_eq hnext hlt]
    · exact (hsets _ _).spec
    · exact (hsets _ _).isManaged hpersisted hmeta
    · exact ⟨_, _, hstatus, rfl, rfl, rfl⟩

end Repair

namespace Sample

theorem replace_sets : Apply.Sets replace := fun _ patch => .refl patch

/-- The managed NetworkPolicy after another client emptied its spec. -/
def drifted : NetworkPolicy := { policy.rendered "payments" [cidr] with spec := none }

end Sample

open Sample in
theorem reconcile_repairs_drifted :
    ∃ w₂, (reconcile crates policy).run (api replace) (worldAt (cluster policy (some drifted)) 0) =
      (.ok (.requeue 86400000000000), w₂) ∧
      ∃ np, w₂.state.managed policy = some np ∧ np.spec = some (policy.spec.rendered [cidr]) := by
  obtain ⟨w₂, n, next, hrun, hnext, ⟨np, hnp, hspec, -⟩, -⟩ :=
    reconcile_repairs (cleanRound replace [rule] none (by rfl)
      (cluster policy (some drifted)) 0) replace_sets (persisted _ _) (by decide) (by decide)
      fun n => ⟨day, rfl, (by decide : (0 : ℤ) < day)⟩
  cases hnext
  exact ⟨w₂, hrun, np, hnp, hspec⟩

end Ipmaze
