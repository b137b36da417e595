import Ipmaze.Reconcile.Writes

/-! What the answers of the API decide: a publication fails only if one of its calls fails, and
it fails if one of them does. -/
namespace Ipmaze
open Effects

/-- The API call was answered without an error. -/
def Succeeded : Calls.Event → Prop
  | ⟨.httpGet _, _⟩ | ⟨.utcNow, _⟩ => True
  | ⟨.getNetworkPolicy _ _, answer⟩ => answer.isOk
  | ⟨.patchNetworkPolicy _ _ _ _, answer⟩ => answer.isOk
  | ⟨.deleteNetworkPolicy _ _, answer⟩ => answer.isOk
  | ⟨.getPolicy _ _, answer⟩ => answer.isOk
  | ⟨.patchStatus _ _ _ _, answer⟩ => answer.isOk
  | ⟨.publishEvent _ _, answer⟩ => answer.isOk

section Programs
variable {K : Crates} {policy : CIDRPolicy} {ns : String}

theorem publishPolicyEvent_robust (policy : CIDRPolicy) (eventType : EventType)
    (reason action : String) (note : Option String) (secondary : Option NetworkPolicy) :
    (publishPolicyEvent policy eventType reason action note secondary).Robust Succeeded := by
  intro answer h
  cases answer with
  | ok _ => trivial
  | error e => cases h

theorem publishOutcomeEvent_robust (managed : Option NetworkPolicy) (outcome : ReconcileOutcome) :
    (publishOutcomeEvent policy managed outcome).Robust Succeeded := by
  cases outcome with
  | reconciled observed => exact publishPolicyEvent_robust policy _ _ _ _ _
  | noChange observed => trivial
  | failed stage message => trivial

theorem applyManagedNetworkPolicy_robust (rendered : NetworkPolicy) :
    (applyManagedNetworkPolicy ns rendered).Robust Succeeded := by
  intro answer h
  cases answer with
  | ok _ => trivial
  | error e => cases h

/-- A success neither reads the policy again nor fails unless its status patch does. -/
theorem patchStatusForOutcome_robust {outcome : ReconcileOutcome} {observed : List String}
    (h : outcome = .reconciled observed ∨ outcome = .noChange observed) :
    (patchStatusForOutcome K ns policy outcome).Robust Succeeded := by
  rcases h with rfl | rfl
  all_goals
    intro now _ answer hanswer
    cases answer with
    | ok _ => trivial
    | error e => cases hanswer

theorem publishPolicyEvent_strict (policy : CIDRPolicy) (eventType : EventType)
    (reason action : String) (note : Option String) (secondary : Option NetworkPolicy) :
    (publishPolicyEvent policy eventType reason action note secondary).Strict Succeeded := by
  intro answer
  cases answer with
  | ok _ => exact ⟨trivial, fun h => absurd rfl h⟩
  | error e => exact ⟨trivial, fun _ => trivial⟩

theorem publishOutcomeEvent_strict (managed : Option NetworkPolicy) (outcome : ReconcileOutcome) :
    (publishOutcomeEvent policy managed outcome).Strict Succeeded := by
  cases outcome with
  | reconciled observed => exact publishPolicyEvent_strict policy _ _ _ _ _
  | noChange observed => trivial
  | failed stage message => trivial

theorem getManagedNetworkPolicy_strict (action : String) :
    (getManagedNetworkPolicy ns policy action).Strict Succeeded := by
  have hget : (Task.getNetworkPolicy ns policy.managedNetworkPolicyName).Strict Succeeded := by
    intro answer
    cases answer with
    | ok _ => exact ⟨trivial, fun h => absurd rfl h⟩
    | error e => exact ⟨trivial, fun _ => trivial⟩
  unfold getManagedNetworkPolicy
  refine (hget.mapError _).bind fun found => ?_
  cases found with
  | none => trivial
  | some np =>
    change (ite _ _ _ : Task _ _).Strict _
    split
    · trivial
    · refine Program.Strict.bind ?_ fun _ => trivial
      exact (publishPolicyEvent_strict policy _ _ _ _ _).mapError _

theorem applyManagedNetworkPolicy_strict (rendered : NetworkPolicy) :
    (applyManagedNetworkPolicy ns rendered).Strict Succeeded := by
  intro answer
  cases answer with
  | ok _ => exact ⟨trivial, fun h => absurd rfl h⟩
  | error e => exact ⟨trivial, fun _ => trivial⟩

theorem patchStatusForOutcome_strict {outcome : ReconcileOutcome} {observed : List String}
    (h : outcome = .reconciled observed ∨ outcome = .noChange observed) :
    (patchStatusForOutcome K ns policy outcome).Strict Succeeded := by
  rcases h with rfl | rfl
  all_goals
    intro now
    refine ⟨fun answer => ?_, fun hbad => absurd trivial hbad⟩
    cases answer with
    | ok _ => exact ⟨trivial, fun h => absurd rfl h⟩
    | error e => exact ⟨trivial, fun _ => trivial⟩

/-- A success is published on every path that gets past it. -/
theorem patchStatusForOutcome_passes {outcome : ReconcileOutcome} {observed : List String}
    (h : outcome = .reconciled observed ∨ outcome = .noChange observed) :
    (patchStatusForOutcome K ns policy outcome).Passes fun call : Call => ∃ now,
      call = .patchStatus ns policy.nameAny (PatchParams.apply statusFieldManager)
        (successStatus K observed now) := by
  rcases h with rfl | rfl
  all_goals exact Or.inr fun now => Or.inl ⟨now, rfl⟩

theorem publish_strict (policy : CIDRPolicy) (r : Resolved K) :
    (publish K policy r).Strict Succeeded := by
  have hrequeue : (scheduleRequeueAfter K r.validated.resyncSchedule).Strict Succeeded :=
    fun now => ⟨Program.strict_ofExcept _, fun h => absurd trivial h⟩
  have houtcome (existing : Option NetworkPolicy) :=
    classifyOutcome_cases existing r.rendered r.observed
  unfold publish conclude
  refine (getManagedNetworkPolicy_strict _).bind fun existing => ?_
  refine Program.Strict.bind ?_ fun _ => ?_
  · split
    · exact (applyManagedNetworkPolicy_strict r.rendered).mapError _
    · trivial
  refine ((patchStatusForOutcome_strict (houtcome existing)).mapError _).bind fun _ => ?_
  refine ((publishOutcomeEvent_strict _ _).mapError _).bind fun _ => ?_
  exact hrequeue.bind fun _ => trivial

theorem publish_passes (policy : CIDRPolicy) (r : Resolved K) :
    (publish K policy r).Passes fun call : Call => ∃ now, call = statusCall K policy r now := by
  unfold publish conclude
  refine Program.passes_bind fun existing => ?_
  refine Program.passes_bind fun _ => ?_
  exact ((patchStatusForOutcome_passes (classifyOutcome_cases _ _ _)).mapError _).bind

/-- A live reconcile that returns was told that its success is stored. -/
theorem reconcile_returned (hlive : policy.metadata.deletionTimestamp = none)
    {log : List Calls.Event} {action : Action}
    (h : (reconcile K policy).Trace log (.ret action)) :
    ∃ r before after now, log = before ++ after ∧ (resolve K policy).Trace before (.ret r) ∧
      ⟨statusCall K policy r now, .ok ()⟩ ∈ after := by
  rcases reconcile_cases hlive h with ⟨p, hp, he⟩ | ⟨r, before, after, rfl, hr, h⟩
  · cases p with
    | ret r =>
      have hpublish := publish_passes policy r
      rw [Program.ret_bind] at he
      rw [← he] at hpublish
      exact hpublish.elim
    | fail e => cases he
    | call i next => cases he
  · obtain ⟨⟨call, answer⟩, hmem, now, hcall⟩ := h.passes (publish_passes policy r)
    have hgood := h.strict (publish_strict policy r) _ hmem
    cases hcall
    cases answer with
    | ok _ => exact ⟨r, before, after, now, rfl, hr, hmem⟩
    | error e => cases hgood

end Programs
end Ipmaze
