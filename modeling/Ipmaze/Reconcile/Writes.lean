import Ipmaze.Effects.Paths
import Ipmaze.Reconcile.Footprint
import Ipmaze.Reconcile.Publication

/-! The few calls of a run that write: which programs issue them, with what contents, and what
has happened in a reconcile by the time it gets to one. -/
namespace Ipmaze
open Effects

namespace Call

/-- A write of a NetworkPolicy. -/
def Writes : Call → Prop
  | patchNetworkPolicy _ _ _ _ | deleteNetworkPolicy _ _ => True
  | _ => False

/-- A write of a status. -/
def Tells : Call → Prop
  | patchStatus _ _ _ _ => True
  | _ => False

instance : DecidablePred Tells
  | patchStatus _ _ _ _ => isTrue trivial
  | httpGet _ | utcNow | getNetworkPolicy _ _ | patchNetworkPolicy _ _ _ _
  | deleteNetworkPolicy _ _ | getPolicy _ _ | publishEvent _ _ => isFalse id

/-- A call that writes neither a NetworkPolicy nor a status. -/
def Idle (call : Call) : Prop := ¬ call.Writes ∧ ¬ call.Tells

/-- A status that is written is that of a success with these CIDRs. -/
def Stamps (K : Crates) (observed : List String) : Call → Prop
  | patchStatus _ _ _ status => ∃ now, status = successStatus K observed now
  | _ => True

theorem Idle.of_isRemote {call : Call} (h : call.IsRemote) : call.Idle := by
  cases call with
  | httpGet url => exact ⟨id, id⟩
  | _ => exact h.elim

end Call

section Programs
variable {K : Crates} {policy : CIDRPolicy} {ns : String}

theorem resolve_idle (policy : CIDRPolicy) : (resolve K policy).Makes Call.Idle :=
  (resolve_remote policy).mono fun _ => Call.Idle.of_isRemote

theorem publishPolicyEvent_idle (policy : CIDRPolicy) (eventType : EventType)
    (reason action : String) (note : Option String) (secondary : Option NetworkPolicy) :
    (publishPolicyEvent policy eventType reason action note secondary).Makes Call.Idle :=
  publishPolicyEvent_makes (fun _ _ => ⟨id, id⟩) policy _ _ _ _ _

/-- What follows a refused check only reports the collision. -/
theorem collision_idle {β : Type} (policy : CIDRPolicy) (np : NetworkPolicy) (action : String) :
    ((reportManagedPolicyCollision policy np action).mapError .kubernetesApi >>= fun _ =>
      .fail (.managedPolicyCollision policy.managedNetworkPolicyName) :
        Task ReconcileError β).Makes Call.Idle :=
  Program.Makes.bind ((publishPolicyEvent_idle policy _ _ _ _ _).mapError _) fun _ => trivial

theorem getManagedNetworkPolicy_idle (action : String) :
    (getManagedNetworkPolicy ns policy action).Makes Call.Idle :=
  getManagedNetworkPolicy_makes ⟨id, id⟩ (fun _ _ => ⟨id, id⟩) action

theorem patchStatusForOutcome_writes_nothing (ns : String) (policy : CIDRPolicy)
    (outcome : ReconcileOutcome) :
    (patchStatusForOutcome K ns policy outcome).Makes fun call : Call => ¬ call.Writes :=
  patchStatusForOutcome_makes id id (fun _ _ => id) outcome

theorem patchStatusForOutcome_stamps {outcome : ReconcileOutcome} {observed : List String}
    (h : outcome = .reconciled observed ∨ outcome = .noChange observed) :
    (patchStatusForOutcome K ns policy outcome).Makes (Call.Stamps K observed) := by
  rcases h with rfl | rfl
  all_goals exact ⟨trivial, fun now => ⟨⟨now, rfl⟩, fun _ => Program.makes_ofExcept _⟩⟩

theorem conclude_writes_nothing (policy : CIDRPolicy) (r : Resolved K)
    (outcome : ReconcileOutcome) :
    (conclude K policy r outcome).Makes fun call : Call => ¬ call.Writes :=
  conclude_makes id (fun _ _ => id) (patchStatusForOutcome_writes_nothing _ _ _)

/-- A reconcile writes no status but that of its success. -/
theorem publish_stamps (policy : CIDRPolicy) (r : Resolved K) :
    (publish K policy r).Makes (Call.Stamps K r.observed) :=
  publish_makes trivial trivial (fun _ _ => trivial) ⟨trivial, fun _ => Program.makes_ofExcept _⟩
    fun _ houtcome => patchStatusForOutcome_stamps houtcome

theorem handleReconcileFailure_writes_nothing (policy : CIDRPolicy) (stage : ReconcileStage)
    (message : String) :
    (handleReconcileFailure K policy stage message).Makes fun call : Call => ¬ call.Writes := by
  unfold handleReconcileFailure
  cases policy.metadata.ns with
  | none => trivial
  | some ns =>
    exact (patchStatusForOutcome_writes_nothing _ _ _).bind fun _ =>
      (publishPolicyEvent_idle policy _ _ _ _ _).mono fun _ h => h.1

/-- A cleanup writes nothing but the deletion of the managed NetworkPolicy. -/
theorem cleanup_deletes (policy : CIDRPolicy) :
    (cleanup policy).Makes fun call : Call =>
      call.Idle ∨ ∃ ns name, call = .deleteNetworkPolicy ns name :=
  cleanup_makes (fun _ _ => Or.inl ⟨id, id⟩) (fun _ _ => Or.inr ⟨_, _, rfl⟩)
    fun _ _ => Or.inl ⟨id, id⟩

end Programs

section Effects
variable (applied : Apply) {policy : CIDRPolicy} {call : Call}

/-- What a call on the policy's own keys leaves under its managed name. -/
theorem serve_managed (h : call.Within policy) (choice : Choice) (s : Cluster) :
    (serve applied choice call s).2.managed policy =
      match call with
      | .patchNetworkPolicy _ _ _ patch =>
        if choice.delivery.arrives then some (applied (s.managed policy) patch)
        else s.managed policy
      | .deleteNetworkPolicy _ _ => if choice.delivery.arrives then none else s.managed policy
      | _ => s.managed policy := by
  cases hns : policy.metadata.ns with
  | none =>
    cases call with
    | patchNetworkPolicy ns name params patch => cases hns.symm.trans h.1
    | deleteNetworkPolicy ns name => cases hns.symm.trans h.1
    | _ => simp only [Cluster.managed, hns, Option.bind_none]
  | some ns =>
    simp only [Cluster.managed_eq hns]
    cases call with
    | patchNetworkPolicy ns' name params patch =>
      obtain ⟨hns', rfl, -⟩ := h
      cases hns.symm.trans hns'
      simp only [serve, Delivery.write]
      split
      · exact Cluster.setNetworkPolicy_self ..
      · rfl
    | deleteNetworkPolicy ns' name =>
      obtain ⟨hns', rfl⟩ := h
      cases hns.symm.trans hns'
      simp only [serve]
      split
      · simp only [Delivery.write]
        split
        · exact Cluster.setNetworkPolicy_self ..
        · rfl
      · next hnone => simp [hnone]
    | _ => exact serve_networkPolicies applied choice _ s _ (Option.some_ne_none _).symm

theorem Call.writes_of_written {call : Call} {key : Key}
    (hkey : call.writtenNetworkPolicy = some key) : call.Writes := by
  cases call <;> trivial

/-- A call that writes no NetworkPolicy leaves the managed one as it is. -/
theorem serve_managed_of_not_writes {call : Call} (h : ¬ call.Writes) (choice : Choice)
    (s : Cluster) : (serve applied choice call s).2.managed policy = s.managed policy := by
  cases hns : policy.metadata.ns with
  | none => simp only [Cluster.managed, hns, Option.bind_none]
  | some ns =>
    rw [Cluster.managed_eq hns, Cluster.managed_eq hns]
    exact serve_networkPolicies applied choice call s _ fun hw => h (Call.writes_of_written hw)

/-- What a call on the policy's own keys leaves of the stored policy. -/
theorem serve_stored (h : call.Within policy) (choice : Choice) (s : Cluster) :
    (serve applied choice call s).2.stored policy =
      match call with
      | .patchStatus _ _ _ status =>
        if choice.delivery.arrives then (s.stored policy).map (·.withStatus status)
        else s.stored policy
      | _ => s.stored policy := by
  cases hns : policy.metadata.ns with
  | none =>
    cases call with
    | patchStatus ns name params status => cases hns.symm.trans h.1
    | _ => simp only [Cluster.stored, hns, Option.bind_none]
  | some ns =>
    simp only [Cluster.stored_eq hns]
    cases call with
    | patchStatus ns' name params status =>
      obtain ⟨hns', rfl⟩ := h
      cases hns.symm.trans hns'
      simp only [serve]
      split
      · next hsome =>
        simp only [Delivery.write, hsome]
        split
        · exact Cluster.setPolicy_self ..
        · exact hsome
      · next hnone => simp [hnone]
    | _ => exact serve_policies applied choice _ s _ (Option.some_ne_none _).symm

/-- The answer to a check is what is stored. -/
theorem serve_found {ns : String} (hns : policy.metadata.ns = some ns) {choice : Choice}
    {s : Cluster} {found : Option NetworkPolicy}
    (h : (serve applied choice (.getNetworkPolicy ns policy.managedNetworkPolicyName) s).1 =
      .ok found) : found = s.managed policy := by
  rw [Cluster.managed_eq hns]
  cases hdelivery : choice.delivery with
  | delivered =>
    simp only [serve, hdelivery, Delivery.receive, Except.ok.injEq] at h
    exact h.symm
  | lost error => simp [serve, hdelivery, Delivery.receive] at h
  | unacknowledged error => simp [serve, hdelivery, Delivery.receive] at h

/-- A managed NetworkPolicy changes only through a write that the server gets to act on. -/
theorem serve_managed_kept (h : call.Within policy) {choice : Choice}
    (hkept : ¬ (call.Writes ∧ choice.delivery.arrives)) (s : Cluster) :
    (serve applied choice call s).2.managed policy = s.managed policy := by
  rw [serve_managed applied h choice s]
  cases call with
  | patchNetworkPolicy ns name params patch => exact if_neg fun harrives => hkept ⟨trivial, harrives⟩
  | deleteNetworkPolicy ns name => exact if_neg fun harrives => hkept ⟨trivial, harrives⟩
  | _ => rfl

/-- A stored policy changes only through a status write that the server gets to act on. -/
theorem serve_stored_kept (h : call.Within policy) {choice : Choice}
    (hkept : ¬ (call.Tells ∧ choice.delivery.arrives)) (s : Cluster) :
    (serve applied choice call s).2.stored policy = s.stored policy := by
  rw [serve_stored applied h choice s]
  cases call with
  | patchStatus ns name params status => exact if_neg fun harrives => hkept ⟨trivial, harrives⟩
  | _ => rfl

end Effects

section Positions
variable {K : Crates} {policy : CIDRPolicy} {log : List Calls.Event}

/-- A live reconcile is still resolving, or has handed its resolution over to the publication. -/
theorem reconcile_cases (hlive : policy.metadata.deletionTimestamp = none)
    {q : Task ReconcileError Action} (h : (reconcile K policy).Trace log q) :
    (∃ p, (resolve K policy).Trace log p ∧ q = p >>= publish K policy) ∨
      ∃ r before after, log = before ++ after ∧ (resolve K policy).Trace before (.ret r) ∧
        (publish K policy r).Trace after q := by
  rw [reconcile_eq hlive] at h
  exact h.bind_inv

theorem publish_not_standsAt (r : Resolved K) : ¬ (publish K policy r).StandsAt Call.Writes := by
  unfold publish
  rw [getManagedNetworkPolicy_bind]
  exact id

/-- A write that follows the check is the first call after it. -/
theorem checked_at_write {r : Resolved K} {existing : Option NetworkPolicy} {call : Call}
    {next : call.Answer → Task ReconcileError Action} (hwrites : call.Writes)
    (h : ((if (classifyOutcome existing r.rendered r.observed).isReconciled then
        (applyManagedNetworkPolicy r.ns r.rendered).mapError .kubernetesApi else .ret ()) >>=
      fun _ => conclude K policy r (classifyOutcome existing r.rendered r.observed) :
        Task ReconcileError Action).Trace log (.call (I := Calls) call next)) :
    log = [] ∧ ∃ name params, call = .patchNetworkPolicy r.ns name params r.rendered := by
  have hconclude := conclude_writes_nothing policy r
    (classifyOutcome existing r.rendered r.observed)
  split at h
  · rcases h.call_inv with ⟨rfl, he⟩ | ⟨answer, rest, rfl, tail⟩
    · injection he with hcall
      exact ⟨rfl, _, _, hcall⟩
    · have hrest := (((Program.makes_ofExcept answer).mapError ReconcileError.kubernetesApi).bind
        fun _ => hconclude)
      exact ((tail.makes hrest).2.1 hwrites).elim
  · exact ((h.makes hconclude).2.1 hwrites).elim

theorem publish_at_write {r : Resolved K} {call : Call}
    {next : call.Answer → Task ReconcileError Action} (hwrites : call.Writes)
    (h : (publish K policy r).Trace log (.call (I := Calls) call next)) :
    ∃ found, log = [⟨.getNetworkPolicy r.ns policy.managedNetworkPolicyName, .ok found⟩] ∧
      (∀ np ∈ found, isManagedNetworkPolicyFor policy np) ∧
      ∃ name params, call = .patchNetworkPolicy r.ns name params r.rendered := by
  unfold publish at h
  rw [getManagedNetworkPolicy_bind] at h
  rcases h.call_inv with ⟨-, he⟩ | ⟨answer, rest, rfl, tail⟩
  · cases he
    exact hwrites.elim
  cases answer with
  | error e => cases tail.fail_inv.2
  | ok found =>
    cases found with
    | none =>
      obtain ⟨rfl, hcall⟩ := checked_at_write hwrites tail
      exact ⟨none, rfl, by simp, hcall⟩
    | some np =>
      by_cases howned : isManagedNetworkPolicyFor policy np = true
      · simp only [checked, howned, if_true] at tail
        obtain ⟨rfl, hcall⟩ := checked_at_write hwrites tail
        exact ⟨some np, rfl, by simpa using howned, hcall⟩
      · simp only [checked, howned] at tail
        exact ((tail.makes (collision_idle policy np _)).2.1.1 hwrites).elim

/-- A live reconcile gets to a write of a NetworkPolicy right after its check, and what it sends
is its rendering. -/
theorem reconcile_at_write (hlive : policy.metadata.deletionTimestamp = none) {call : Call}
    {next : call.Answer → Task ReconcileError Action} (hwrites : call.Writes)
    (h : (reconcile K policy).Trace log (.call (I := Calls) call next)) :
    ∃ before r found, (resolve K policy).Trace before (.ret r) ∧
      log = before ++ [⟨.getNetworkPolicy r.ns policy.managedNetworkPolicyName, .ok found⟩] ∧
      (∀ np ∈ found, isManagedNetworkPolicyFor policy np) ∧
      ∃ name params, call = .patchNetworkPolicy r.ns name params r.rendered := by
  rcases reconcile_cases hlive h with ⟨p, hp, he⟩ | ⟨r, before, after, rfl, hr, h⟩
  · have hstands : (p >>= publish K policy).StandsAt Call.Writes := by
      rw [← he]
      exact hwrites
    have hidle := (hp.makes ((resolve_idle policy).mono fun _ h => h.1)).2
    exact (hidle.not_standsAt (hstands.of_bind publish_not_standsAt)).elim
  · obtain ⟨found, rfl, howned, hcall⟩ := publish_at_write hwrites h
    exact ⟨before, r, found, hr, rfl, howned, hcall⟩

/-- A status that a live reconcile writes is that of its own success. -/
theorem reconcile_at_status (hlive : policy.metadata.deletionTimestamp = none)
    {ns name : String} {params : PatchParams} {status : CIDRPolicyStatus}
    {next : Except KubeError Unit → Task ReconcileError Action}
    (h : (reconcile K policy).Trace log
      (.call (I := Calls) (.patchStatus ns name params status) next)) :
    ∃ r before after now, log = before ++ after ∧ (resolve K policy).Trace before (.ret r) ∧
      status = successStatus K r.observed now := by
  rcases reconcile_cases hlive h with ⟨p, hp, he⟩ | ⟨r, before, after, rfl, hr, h⟩
  · have hstands : (p >>= publish K policy).StandsAt Call.Tells := by
      rw [← he]
      exact trivial
    have hpublish (r : Resolved K) : ¬ (publish K policy r).StandsAt Call.Tells := by
      unfold publish
      rw [getManagedNetworkPolicy_bind]
      exact id
    have hidle := (hp.makes ((resolve_idle policy).mono fun _ h => h.2)).2
    exact (hidle.not_standsAt (hstands.of_bind hpublish)).elim
  · obtain ⟨now, hnow⟩ := (h.makes (publish_stamps policy r)).2.1
    exact ⟨r, before, after, now, rfl, hr, hnow⟩

end Positions
end Ipmaze
