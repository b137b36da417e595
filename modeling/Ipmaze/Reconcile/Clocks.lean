import Ipmaze.Cluster
import Ipmaze.Effects.Coupling
import Ipmaze.Reconcile.Writes

/-! What a publication owes to the clock: the time it stamps, and when the policy is tried again.
Everything else two runs do is the same, whatever their clocks show. -/
namespace Ipmaze
open Effects

/-- The status without the time of the last success. -/
def CIDRPolicyStatus.untimed (status : CIDRPolicyStatus) : CIDRPolicyStatus :=
  { status with lastSuccessfulResolutionTime := none }

def CIDRPolicy.untimedStatus (policy : CIDRPolicy) : Option CIDRPolicyStatus :=
  policy.status.map CIDRPolicyStatus.untimed

namespace Call

/-- The call without the time it stamps. -/
def untimed : Call → Call
  | patchStatus ns name params patch => patchStatus ns name params patch.untimed
  | call => call

def ReadsPolicy : Call → Prop
  | getPolicy _ _ => True
  | _ => False

/-- The answer is neither a time nor a stored policy. -/
def Timeless (call : Call) : Prop := call ≠ utcNow ∧ ¬ call.ReadsPolicy

theorem untimed_cases {call call' : Call} (h : call.untimed = call'.untimed) :
    call = call' ∨ ∃ ns name params patch patch', call = patchStatus ns name params patch ∧
      call' = patchStatus ns name params patch' ∧ patch.untimed = patch'.untimed := by
  cases call <;> cases call' <;> simp_all [untimed]

end Call

/-- Calls that differ at most in a time, and answers that are equal unless they are times. -/
def clocks : Coupling Calls where
  Ops call call' := call.untimed = call'.untimed ∧ ¬ call.ReadsPolicy
  Ans {call _} answer answer' := call ≠ .utcNow → HEq answer answer'

/-- Only the clocks may differ. -/
structure Choice.Alike (choice choice' : Choice) : Prop where
  http : choice.http = choice'.http
  delivery : choice.delivery = choice'.delivery

/-- Of the policies only the status is compared, and of the status not the time. -/
structure Cluster.Alike (s s' : Cluster) : Prop where
  networkPolicies : s.networkPolicies = s'.networkPolicies
  statuses : ∀ key, (s.policies key).map CIDRPolicy.untimedStatus =
    (s'.policies key).map CIDRPolicy.untimedStatus
  events : s.events = s'.events

namespace Cluster.Alike
variable {s s' t t' : Cluster}

theorem write (h : s.Alike s') (ht : t.Alike t') (delivery : Delivery) :
    (delivery.write s t).1 = (delivery.write s' t').1 ∧
      (delivery.write s t).2.Alike (delivery.write s' t').2 := by
  cases delivery with
  | delivered => exact ⟨rfl, ht⟩
  | lost error => exact ⟨rfl, h⟩
  | unacknowledged error => exact ⟨rfl, ht⟩

theorem setNetworkPolicy (h : s.Alike s') (key : Key) (stored : Option NetworkPolicy) :
    (s.setNetworkPolicy key stored).Alike (s'.setNetworkPolicy key stored) :=
  ⟨by simp only [Cluster.setNetworkPolicy, h.networkPolicies], h.statuses, h.events⟩

theorem setPolicy (h : s.Alike s') (key : Key) {policy policy' : CIDRPolicy}
    {patch patch' : CIDRPolicyStatus} (hpatch : patch.untimed = patch'.untimed) :
    (s.setPolicy key (some (policy.withStatus patch))).Alike
      (s'.setPolicy key (some (policy'.withStatus patch'))) := by
  refine ⟨h.networkPolicies, fun key' => ?_, h.events⟩
  by_cases hkey : key' = key
  · subst hkey
    simp [CIDRPolicy.withStatus, CIDRPolicy.untimedStatus, hpatch]
  · rw [Cluster.setPolicy_of_ne _ _ hkey, Cluster.setPolicy_of_ne _ _ hkey]
    exact h.statuses key'

/-- A status is patched where the policy is stored. -/
theorem patchStatus (h : s.Alike s') (applied : Apply) {choice choice' : Choice}
    (hchoice : choice.Alike choice') (ns name : String) (params : PatchParams)
    {patch patch' : CIDRPolicyStatus} (hpatch : patch.untimed = patch'.untimed) :
    (serve applied choice (.patchStatus ns name params patch) s).1 =
        (serve applied choice' (.patchStatus ns name params patch') s').1 ∧
      (serve applied choice (.patchStatus ns name params patch) s).2.Alike
        (serve applied choice' (.patchStatus ns name params patch') s').2 := by
  have hstatus := h.statuses (ns, name)
  simp only [serve, ← hchoice.delivery]
  cases hs : s.policies (ns, name) with
  | none =>
    cases hs' : s'.policies (ns, name) with
    | none => exact ⟨rfl, h⟩
    | some policy' => simp [hs, hs'] at hstatus
  | some policy =>
    cases hs' : s'.policies (ns, name) with
    | none => simp [hs, hs'] at hstatus
    | some policy' => exact h.write (h.setPolicy _ hpatch) _

/-- A call other than a status patch, issued twice. -/
theorem serve (h : s.Alike s') (applied : Apply) {choice choice' : Choice}
    (hchoice : choice.Alike choice') {call : Call} (hcall : call.Timeless) :
    (Ipmaze.serve applied choice call s).1 = (Ipmaze.serve applied choice' call s').1 ∧
      (Ipmaze.serve applied choice call s).2.Alike (Ipmaze.serve applied choice' call s').2 := by
  cases call with
  | httpGet url => exact ⟨hchoice.http, h⟩
  | utcNow => exact absurd rfl hcall.1
  | getNetworkPolicy ns name =>
    simp only [Ipmaze.serve, h.networkPolicies, hchoice.delivery]
    exact ⟨trivial, h⟩
  | patchNetworkPolicy ns name params patch =>
    simp only [Ipmaze.serve, h.networkPolicies, hchoice.delivery]
    exact h.write (h.setNetworkPolicy _ _) _
  | deleteNetworkPolicy ns name =>
    simp only [Ipmaze.serve, h.networkPolicies, hchoice.delivery]
    split
    · exact h.write (h.setNetworkPolicy _ _) _
    · exact ⟨rfl, h⟩
  | getPolicy ns name => exact absurd trivial hcall.2
  | patchStatus ns name params patch => exact h.patchStatus applied hchoice ns name params rfl
  | publishEvent event reference =>
    simp only [Ipmaze.serve, hchoice.delivery]
    refine h.write ?_ _
    exact ⟨h.networkPolicies, h.statuses, congrArg (· ++ [(event, reference)]) h.events⟩

end Cluster.Alike

/-- The API does not tell apart what differs in a time only. -/
theorem clocks_respected (applied : Apply) :
    clocks.Respected (api applied) (api applied) Choice.Alike Cluster.Alike := by
  rintro choice choice' call call' s s' hchoice ⟨hcall, hreads⟩ hs
  rcases Call.untimed_cases hcall with rfl | ⟨ns, name, params, patch, patch', rfl, rfl, hpatch⟩
  · by_cases hnow : call = .utcNow
    · subst hnow
      exact ⟨fun h => absurd rfl h, hs⟩
    · obtain ⟨hanswer, hstate⟩ := hs.serve applied hchoice ⟨hnow, hreads⟩
      exact ⟨fun _ => heq_of_eq hanswer, hstate⟩
  · obtain ⟨hanswer, hstate⟩ := hs.patchStatus applied hchoice ns name params hpatch
    exact ⟨fun _ => heq_of_eq hanswer, hstate⟩

/-- The same result, unless a next run cannot be scheduled. -/
def SameUnlessScheduling (r r' : Except ReconcileError Action) : Prop :=
  ∀ error : ReconcileError, error.stage ≠ .scheduling → (r = .error error ↔ r' = .error error)

section Programs
variable {K : Crates} {policy : CIDRPolicy}

theorem coupled_self {ε α : Type} {p : Task ε α} (h : p.Makes Call.Timeless) :
    Program.Coupled clocks Eq p p := by
  refine Program.Coupled.refl (C := clocks) (P := Call.Timeless) ?_ ?_ h
  · exact fun _ hcall => ⟨rfl, hcall.2⟩
  · exact fun _ hcall _ _ hanswer => eq_of_heq (hanswer hcall.1)

theorem patchStatusForOutcome_coupled {ns : String} {outcome : ReconcileOutcome}
    {observed : List String} (h : outcome = .reconciled observed ∨ outcome = .noChange observed) :
    Program.Coupled clocks Eq (patchStatusForOutcome K ns policy outcome)
      (patchStatusForOutcome K ns policy outcome) := by
  have hpatch {patch patch' : CIDRPolicyStatus} (heq : patch.untimed = patch'.untimed) :
      Program.Coupled clocks Eq
        (Task.patchStatus ns policy.nameAny (PatchParams.apply statusFieldManager) patch)
        (Task.patchStatus ns policy.nameAny (PatchParams.apply statusFieldManager) patch') := by
    refine .call ⟨congrArg (Call.patchStatus _ _ _) heq, id⟩ fun answer answer' hanswer => ?_
    cases hanswer (by simp)
    exact .halt rfl
  rcases h with rfl | rfl
  all_goals exact .call ⟨rfl, id⟩ fun now now' _ => hpatch rfl

theorem scheduleRequeueAfter_coupled (schedule : K.Schedule) :
    Program.Coupled clocks SameUnlessScheduling
      (scheduleRequeueAfter K schedule >>= fun after => pure (.requeue after))
      (scheduleRequeueAfter K schedule >>= fun after => pure (.requeue after)) := by
  have hrequeue (now : Instant) :
      (Program.ofExcept ((nextResyncAfter K schedule now).mapError .scheduling) >>= fun after =>
        pure (.requeue after) : Task ReconcileError Action) =
      .ofExcept (((nextResyncAfter K schedule now).map .requeue).mapError .scheduling) := by
    cases nextResyncAfter K schedule now <;> rfl
  have hother {now : Instant} {error : ReconcileError} (herror : error.stage ≠ .scheduling) :
      ((nextResyncAfter K schedule now).map Action.requeue).mapError .scheduling ≠ .error error := by
    intro h
    cases hnext : nextResyncAfter K schedule now with
    | ok after => simp [hnext, Except.map, Except.mapError] at h
    | error text =>
      rw [hnext] at h
      cases h
      exact herror rfl
  refine .call ⟨rfl, id⟩ fun now now' _ => ?_
  change Program.Coupled clocks SameUnlessScheduling
    (Program.ofExcept ((nextResyncAfter K schedule now).mapError .scheduling) >>= _)
    (Program.ofExcept ((nextResyncAfter K schedule now').mapError .scheduling) >>= _)
  rw [hrequeue, hrequeue]
  exact .halt fun error herror => iff_of_false (hother herror) (hother herror)

/-- Two publications of one resolution differ in their times, and in whether the next run can be
scheduled. -/
theorem publish_coupled (policy : CIDRPolicy) (r : Resolved K) :
    Program.Coupled clocks SameUnlessScheduling (publish K policy r) (publish K policy r) := by
  have hsame (e : ReconcileError) : SameUnlessScheduling (.error e) (.error e) :=
    fun _ _ => Iff.rfl
  have hget : (getManagedNetworkPolicy r.ns policy "Reconcile").Makes Call.Timeless :=
    getManagedNetworkPolicy_makes ⟨by simp, id⟩ (fun _ _ => ⟨by simp, id⟩) _
  have happly : (applyManagedNetworkPolicy r.ns r.rendered).Makes Call.Timeless :=
    ⟨⟨by simp, id⟩, fun _ => Program.makes_ofExcept _⟩
  have hevent (outcome : ReconcileOutcome) :
      (publishOutcomeEvent policy (some r.rendered) outcome).Makes Call.Timeless :=
    publishOutcomeEvent_makes (fun _ _ => ⟨by simp, id⟩) policy _ outcome
  unfold publish conclude
  refine (coupled_self hget).bind_eq hsame fun existing => ?_
  have hcases := classifyOutcome_cases existing r.rendered r.observed
  refine Program.Coupled.bind_eq (coupled_self ?_) hsame fun _ => ?_
  · split
    · exact happly.mapError _
    · trivial
  have hstatus : Program.Coupled clocks Eq (patchStatusForOutcome K r.ns policy _)
      (patchStatusForOutcome K r.ns policy _) := patchStatusForOutcome_coupled hcases
  refine (hstatus.mapError fun _ _ h => congrArg _ h).bind_eq hsame fun _ => ?_
  refine (coupled_self ((hevent _).mapError _)).bind_eq hsame fun _ => ?_
  exact scheduleRequeueAfter_coupled r.validated.resyncSchedule

end Programs
end Ipmaze
