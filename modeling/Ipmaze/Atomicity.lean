import Ipmaze.Reconcile.Answers
import Ipmaze.Reconcile.Settle
import Ipmaze.Sample

/-! What a failed reconcile leaves behind when it was not the API server that failed it. -/
namespace Ipmaze
open Effects

namespace Call

/-- A write of a NetworkPolicy, or of a status that shows no error. -/
def Commits : Call → Prop
  | patchNetworkPolicy _ _ _ _ | deleteNetworkPolicy _ _ => True
  | patchStatus _ _ _ status => status.lastReconciliationError = none
  | _ => False

theorem Idle.not_commits {call : Call} (h : call.Idle) : ¬ call.Commits := by
  cases call with
  | patchNetworkPolicy ns name params patch => exact fun _ => h.1 trivial
  | deleteNetworkPolicy ns name => exact fun _ => h.1 trivial
  | patchStatus ns name params status => exact fun _ => h.2 trivial
  | _ => exact id

end Call

/-- A reconcile that fails although every API call succeeded has changed no NetworkPolicy and
published no success. -/
def ErrorAtomic (K : Crates) (applied : Apply) (policy : CIDRPolicy)
    (w : World Calls Choice Cluster) : Prop :=
  ∀ error w', (reconcile K policy).run (api applied) w = (.error error, w') →
    (∀ e ∈ (reconcile K policy).events (api applied) w, Succeeded e) →
    w'.state.networkPolicies = w.state.networkPolicies ∧
      ∀ call ∈ (reconcile K policy).calls (api applied) w, ¬ call.Commits

section Paths
variable {K : Crates} {policy : CIDRPolicy} {ns : String}

theorem reconcile_eq_settle (h : policy.metadata.deletionTimestamp = none) :
    reconcile K policy = settle K policy >>= fun r =>
      scheduleRequeueAfter K r.validated.resyncSchedule >>= fun after => pure (.requeue after) := by
  have hpublish : publish K policy = fun r => publish K policy r := rfl
  rw [reconcile_eq h, settle, bind_assoc, hpublish]
  congr 1
  funext r
  simp only [publish, conclude, record, bind_assoc, pure_bind]

theorem deleteManagedNetworkPolicy_atomic (exists_ : Bool) :
    (deleteManagedNetworkPolicy ns policy exists_).Atomic Succeeded Call.Commits := by
  cases exists_ with
  | false => trivial
  | true =>
    intro answer h
    cases answer with
    | ok _ => exact ⟨trivial, fun _ => trivial⟩
    | error e => cases h

/-- A cleanup writes at most once, and nothing of its own can fail after that. -/
theorem cleanup_atomic (policy : CIDRPolicy) :
    (cleanup policy).Atomic Succeeded Call.Commits := by
  unfold cleanup
  have hns : (Program.ofExcept (policy.metadata.ns.elim (.error (.render .missingNamespace)) .ok) :
      Task ReconcileError String).Makes fun call : Call => ¬ call.Commits := Program.makes_ofExcept _
  refine hns.atomic_bind fun ns => ?_
  refine ((getManagedNetworkPolicy_idle _).mono fun _ => Call.Idle.not_commits).atomic_bind
    fun existing => ?_
  have hevent (deleted : Bool) := (publishPolicyEvent_robust policy .normal "CleanupManagedPolicy"
    "Cleanup" (some (if deleted then
      "Deleted managed NetworkPolicy " ++ policy.managedNetworkPolicyName ++
        " during CIDRPolicy cleanup"
    else
      "Managed NetworkPolicy " ++ policy.managedNetworkPolicyName ++
        " was already absent during CIDRPolicy cleanup")) none).mapError ReconcileError.kubernetesApi
  exact (deleteManagedNetworkPolicy_atomic _).bind hevent fun deleted => (hevent deleted).atomic

/-- Up to the computation of the requeue, only the API server can fail a reconcile that has
begun to write. -/
theorem settle_atomic (policy : CIDRPolicy) : (settle K policy).Atomic Succeeded Call.Commits := by
  have hresolve := (resolve_idle (K := K) policy).mono fun _ => Call.Idle.not_commits
  unfold settle record
  refine hresolve.atomic_bind fun r => ?_
  refine ((getManagedNetworkPolicy_idle _).mono fun _ => Call.Idle.not_commits).atomic_bind
    fun existing => ?_
  have houtcome := classifyOutcome_cases existing r.rendered r.observed
  apply Program.Robust.atomic
  refine Program.Robust.bind ?_ fun _ => ?_
  · split
    · exact (applyManagedNetworkPolicy_robust r.rendered).mapError _
    · trivial
  refine ((patchStatusForOutcome_robust houtcome).mapError _).bind fun _ => ?_
  exact ((publishOutcomeEvent_robust _ _).mapError _).bind fun _ => trivial

/-- A reconcile that gets to its requeue had no failed call before. -/
theorem settle_strict (policy : CIDRPolicy) : (settle K policy).Strict Succeeded := by
  have hresolve : (resolve K policy).Strict Succeeded := by
    refine (resolve_remote policy).strict ?_
    intro call answer hcall
    cases call with
    | httpGet url => trivial
    | _ => exact hcall.elim
  unfold settle record
  refine hresolve.bind fun r => ?_
  refine (getManagedNetworkPolicy_strict _).bind fun existing => ?_
  have houtcome := classifyOutcome_cases existing r.rendered r.observed
  refine Program.Strict.bind ?_ fun _ => ?_
  · split
    · exact (applyManagedNetworkPolicy_strict r.rendered).mapError _
    · trivial
  refine ((patchStatusForOutcome_strict houtcome).mapError _).bind fun _ => ?_
  exact ((publishOutcomeEvent_strict _ _).mapError _).bind fun _ => trivial

/-- A reconcile that gets to its requeue has published a success. -/
theorem settle_passes (policy : CIDRPolicy) : (settle K policy).Passes Call.Commits := by
  unfold settle record
  refine Program.passes_bind fun r => ?_
  refine Program.passes_bind fun existing => ?_
  have houtcome := classifyOutcome_cases existing r.rendered r.observed
  refine Program.passes_bind fun _ => ?_
  have hpasses : (patchStatusForOutcome K r.ns policy
      (classifyOutcome existing r.rendered r.observed)).Passes Call.Commits :=
    (patchStatusForOutcome_passes houtcome).mono fun call ⟨now, hcall⟩ => hcall ▸ rfl
  exact (hpasses.mapError _).bind

end Paths

/-- The schedule has an occurrence that is not before the instant. -/
def Fires (K : Crates) (schedule : K.Schedule) (now : Instant) : Prop :=
  ∃ next, K.nextAfter schedule now = some next ∧ now ≤ next

section Requeue
variable {K : Crates} {policy : CIDRPolicy} {applied : Apply} {w : World Calls Choice Cluster}

theorem requeueAt_ok_iff {schedule : K.Schedule} {now : Instant} :
    (∃ action, requeueAt K schedule now = .ok action) ↔ Fires K schedule now := by
  unfold requeueAt nextResyncAfter Fires
  cases hnext : K.nextAfter schedule now with
  | none => simp [Except.mapError, Except.map]
  | some next =>
    by_cases hlt : next < now
    · simp [hlt, Except.mapError, Except.map]
    · by_cases heq : next = now
      · simp [heq, Except.mapError, Except.map]
      · simp [hlt, heq, Except.mapError, Except.map, not_lt.mp hlt]

theorem networkPolicies_kept {ε α : Type} (p : Task ε α)
    (h : ∀ call ∈ p.calls (api applied) w, ¬ call.Commits) :
    (p.run (api applied) w).2.state.networkPolicies = w.state.networkPolicies := by
  refine Program.run_keeps (api applied) (J := fun s => s.networkPolicies = w.state.networkPolicies)
    ?_ p w h rfl
  intro choice call s hcall hs
  funext key
  rw [← hs]
  refine serve_networkPolicies applied choice call s key fun hwritten => hcall ?_
  cases call <;> trivial

theorem run_atomic {p : Task ReconcileError Action} (h : p.Atomic Succeeded Call.Commits)
    {error : ReconcileError} {w' : World Calls Choice Cluster}
    (hrun : p.run (api applied) w = (.error error, w'))
    (hgood : ∀ e ∈ p.events (api applied) w, Succeeded e) :
    w'.state.networkPolicies = w.state.networkPolicies ∧
      ∀ call ∈ p.calls (api applied) w, ¬ call.Commits := by
  have hcalls := h.run (api applied) hrun hgood
  have hkept := networkPolicies_kept p hcalls
  rw [hrun] at hkept
  exact ⟨hkept, hcalls⟩

theorem terminating_errorAtomic (h : policy.metadata.deletionTimestamp.isSome) :
    ErrorAtomic K applied policy w := by
  intro error w' hrun hgood
  rw [reconcile_terminating h] at hrun hgood ⊢
  have hatomic := (cleanup_atomic policy).bind (f := fun _ => pure Action.awaitChange)
    (fun _ => trivial) fun _ => trivial
  exact run_atomic hatomic hrun hgood

/-- A reconcile stopped before its last step is atomic. -/
theorem settle_error_atomic (h : policy.metadata.deletionTimestamp = none) {e : ReconcileError}
    {w₁ : World Calls Choice Cluster}
    (hsettle : (settle K policy).run (api applied) w = (.error e, w₁)) :
    ErrorAtomic K applied policy w := by
  intro error w' hrun hgood
  rw [reconcile_eq_settle h] at hrun hgood ⊢
  rw [Program.run_bind_error _ hsettle] at hrun
  rw [Program.events_bind_error _ hsettle] at hgood
  rw [Program.calls, Program.events_bind_error _ hsettle]
  cases hrun
  have hcalls := (settle_atomic policy).run (api applied) hsettle hgood
  have hkept := networkPolicies_kept (settle K policy) hcalls
  rw [hsettle] at hkept
  exact ⟨hkept, hcalls⟩

/-- What a reconcile issues for its last step is a clock reading. -/
theorem requeue_events (schedule : K.Schedule) (w₁ : World Calls Choice Cluster) :
    ∀ e ∈ (scheduleRequeueAfter K schedule >>= fun after => pure (Action.requeue after)).events
      (api applied) w₁, Succeeded e := by
  have hmakes : (scheduleRequeueAfter K schedule >>= fun after =>
      pure (Action.requeue after)).Makes (· = Call.utcNow) :=
    ⟨rfl, fun now => (Program.makes_ofExcept _).bind fun _ => trivial⟩
  intro e he
  have hcall := ((Program.run_trace (api applied) _ w₁).makes hmakes).1 e he
  obtain ⟨call, answer⟩ := e
  cases hcall
  trivial

theorem not_errorAtomic (h : policy.metadata.deletionTimestamp = none) {r : Resolved K}
    {w₁ : World Calls Choice Cluster}
    (hsettle : (settle K policy).run (api applied) w = (.ok r, w₁))
    (hfires : ¬ Fires K r.validated.resyncSchedule (w₁.choices 0).now) :
    ¬ ErrorAtomic K applied policy w := by
  intro hatomic
  cases hrequeue : requeueAt K r.validated.resyncSchedule (w₁.choices 0).now with
  | ok action => exact hfires (requeueAt_ok_iff.mp ⟨action, hrequeue⟩)
  | error e =>
    have hrun : (reconcile K policy).run (api applied) w =
        (.error e, w₁.after (api applied) .utcNow) := by
      rw [reconcile_eq_settle h, Program.run_bind_ok _ hsettle, run_scheduleRequeueAfter, hrequeue]
    have hevents := Program.events_bind_ok (api applied) hsettle (f := fun r =>
      scheduleRequeueAfter K r.validated.resyncSchedule >>= fun after => pure (Action.requeue after))
    rw [← reconcile_eq_settle h] at hevents
    have hgood : ∀ e ∈ (reconcile K policy).events (api applied) w, Succeeded e := by
      rw [hevents]
      intro e he
      rcases List.mem_append.mp he with he | he
      · exact (settle_strict policy).run (api applied) hsettle e he
      · exact requeue_events _ _ e he
    obtain ⟨call, hcall, hcommits⟩ := (settle_passes policy).run (api applied) hsettle
    refine (hatomic e _ hrun hgood).2 call ?_ hcommits
    rw [Program.calls, hevents, List.map_append]
    exact List.mem_append_left _ hcall

/-- A failed reconcile leaves nothing behind exactly if the policy is terminating, or it is hindered
on its way, or its schedule fires at the instant that the last clock reading shows. -/
theorem reconcile_errorAtomic_iff (K : Crates) (applied : Apply) (policy : CIDRPolicy)
    (w : World Calls Choice Cluster) :
    ErrorAtomic K applied policy w ↔ policy.metadata.deletionTimestamp.isSome ∨
      ∀ validated exchanges rendered, Unhindered K policy w validated exchanges rendered →
        Fires K validated.resyncSchedule
          (w.choices (exchanges.length + lastReading (upToDate policy w rendered))).now := by
  cases hlive : policy.metadata.deletionTimestamp with
  | some deletion =>
    exact iff_of_true (terminating_errorAtomic (by rw [hlive]; rfl)) (Or.inl rfl)
  | none =>
    constructor
    · intro hatomic
      refine Or.inr fun validated exchanges rendered h => ?_
      obtain ⟨r, w₁, hsettle, rfl, hreading⟩ := h.run_settle applied
      rw [← hreading]
      by_contra hfires
      exact not_errorAtomic hlive hsettle hfires hatomic
    · rintro (h | h)
      · cases h
      · cases hsettle : (settle K policy).run (api applied) w with
        | mk result w₁ =>
          cases result with
          | error e => exact settle_error_atomic hlive hsettle
          | ok r =>
            obtain ⟨exchanges, hunhindered, hreading⟩ := unhindered_of_run applied hsettle
            have hfires := h _ _ _ hunhindered
            rw [← hreading] at hfires
            obtain ⟨action, haction⟩ := requeueAt_ok_iff.mpr hfires
            intro error w' hrun
            rw [reconcile_eq_settle hlive, Program.run_bind_ok _ hsettle,
              run_scheduleRequeueAfter, haction] at hrun
            cases hrun

end Requeue

open Sample in
/-- Nothing hinders the reconcile of a policy that is due every midnight, and it fires. -/
theorem reconcile_errorAtomic_iff_daily :
    (∃ validated exchanges rendered,
      Unhindered crates policy (worldAt (cluster policy none) 0) validated exchanges rendered) ∧
      ErrorAtomic crates replace policy (worldAt (cluster policy none) 0) := by
  refine ⟨?_, (reconcile_errorAtomic_iff ..).mpr (Or.inr fun validated _ _ h => ?_)⟩
  · have hsettle : ∃ r w', (settle crates policy).run (api replace)
        (worldAt (cluster policy none) 0) = (.ok r, w') := ⟨_, _, rfl⟩
    obtain ⟨r, w', hsettle⟩ := hsettle
    obtain ⟨exchanges, h, -⟩ := unhindered_of_run replace hsettle
    exact ⟨_, exchanges, _, h⟩
  · have hvalid : validatePolicy crates policy = .ok
        { sourceAddress := { original := address, remoteAddress := .url url, requestUrl := url }
          pointerRegex := none
          resyncSchedule := Schedule.daily } := by rfl
    cases hvalid.symm.trans h.valid
    have hday : (0 : ℤ) ≤ day := by decide
    exact ⟨day, rfl, hday⟩

namespace Sample

/-- The sample policy, resynced on the thirtieth of February. -/
def neverDue : CIDRPolicy :=
  { policy with spec := { policy.spec with resyncSchedule := some "0 0 30 2 *" } }

end Sample

open Sample in
/-- Validation accepts the schedule, the NetworkPolicy is applied and the status shows a
success, and then the reconcile fails. -/
theorem neverDue_not_errorAtomic :
    (validatePolicy crates neverDue).isOk ∧
      ((reconcile crates neverDue).run (api replace) (worldAt (cluster neverDue none) 0)).1 =
        .error (.scheduling "schedule did not produce a future execution") ∧
      ((reconcile crates neverDue).run (api replace)
        (worldAt (cluster neverDue none) 0)).2.state.managed neverDue =
          some (neverDue.rendered "payments" [cidr]) ∧
      ¬ ErrorAtomic crates replace neverDue (worldAt (cluster neverDue none) 0) := by
  refine ⟨by decide, by decide, by decide, ?_⟩
  refine not_errorAtomic rfl rfl ?_
  rintro ⟨next, hnext, -⟩
  cases hnext

end Ipmaze
