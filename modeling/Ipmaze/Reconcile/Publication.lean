import Ipmaze.Reconcile.Phases
import Ipmaze.Cluster

/-! The second phase of a reconcile when every API call is delivered: the calls it issues,
the state it leaves and the requeue it asks for. -/
namespace Ipmaze
open Effects

/-- No API call is lost. -/
def Delivered (w : World Calls Choice Cluster) : Prop :=
  ∀ n, (w.choices n).delivery = .delivered

/-- The status of a success with these CIDRs, stamped with this instant. -/
def successStatus (K : Crates) (observed : List String) (now : Instant) : CIDRPolicyStatus where
  lastSuccessfulResolutionTime := some (K.rfc3339 now)
  lastObservedCidrs := observed
  lastReconciliationError := none

variable (K : Crates) (policy : CIDRPolicy) (r : Resolved K)

def statusCall (now : Instant) : Call :=
  .patchStatus r.ns policy.nameAny (PatchParams.apply statusFieldManager)
    (successStatus K r.observed now)

def applyCall : Call :=
  .patchNetworkPolicy r.ns policy.managedNetworkPolicyName (PatchParams.apply fieldManager).forced
    r.rendered

def reconciledEvent : Event where
  eventType := .normal
  reason := "Reconciled"
  note := some ("Reconciled managed NetworkPolicy with " ++ toString r.observed.length ++
    " CIDR entries")
  action := "Reconcile"
  secondary := some r.rendered.objectRef

/-- The calls of a publication that finds nothing to change. -/
def noChangeCalls (now : Instant) : List Call :=
  [.getNetworkPolicy r.ns policy.managedNetworkPolicyName, .utcNow, statusCall K policy r now,
    .utcNow]

/-- The calls of a publication that applies the rendering. -/
def reconciledCalls (now : Instant) : List Call :=
  [.getNetworkPolicy r.ns policy.managedNetworkPolicyName, applyCall K policy r, .utcNow,
    statusCall K policy r now, .publishEvent (reconciledEvent K r) policy.objectRef, .utcNow]

def requeueAt (schedule : K.Schedule) (now : Instant) : Except ReconcileError Action :=
  ((nextResyncAfter K schedule now).mapError .scheduling).map .requeue

variable {K policy r} (applied : Apply) {w : World Calls Choice Cluster} {ns : String}

/-- The requeue is due when the schedule fires next. -/
theorem requeueAt_eq {schedule : K.Schedule} {now next : Instant}
    (h : K.nextAfter schedule now = some next) (hlt : now < next) :
    requeueAt K schedule now = .ok (.requeue (next - now).toNat) := by
  simp only [requeueAt, nextResyncAfter, h, not_lt_of_gt hlt, hlt.ne', if_false]
  rfl

theorem Delivered.after (h : Delivered w) (call : Call) : Delivered (w.after (api applied) call) :=
  fun n => h (n+1)

theorem Delivered.run {ε α : Type} (h : Delivered w) (p : Task ε α) :
    Delivered (p.run (api applied) w).2 := by
  obtain ⟨m, hm⟩ := p.run_choices (api applied) w
  intro n
  rw [hm n]
  exact h (n+m)

theorem serve_applyCall_policies (choice : Choice) (s : Cluster) (key : Key) :
    (serve applied choice (applyCall K policy r) s).2.policies key = s.policies key :=
  serve_policies applied choice (applyCall K policy r) s key (Option.some_ne_none _).symm

section Answers
variable {w' : World Calls Choice Cluster}

/-- A check lets through an answer that shows nothing of others. -/
theorem run_checked_iff {action : String} {answer : Except KubeError (Option NetworkPolicy)}
    {found : Option NetworkPolicy} :
    (checked policy action .ret answer).run (api applied) w = (.ok found, w') ↔
      answer = .ok found ∧ (∀ np ∈ found, isManagedNetworkPolicyFor policy np) ∧ w' = w := by
  cases answer with
  | error e => simp [checked]
  | ok seen =>
    cases seen with
    | none =>
      simp only [checked, Program.run_ret, Prod.mk.injEq, Except.ok.injEq]
      constructor
      · rintro ⟨rfl, rfl⟩
        exact ⟨rfl, by simp, rfl⟩
      · rintro ⟨rfl, -, rfl⟩
        exact ⟨rfl, rfl⟩
    | some np =>
      by_cases howned : isManagedNetworkPolicyFor policy np = true
      · simp only [checked, howned, if_true, Program.run_ret, Prod.mk.injEq, Except.ok.injEq]
        constructor
        · rintro ⟨rfl, rfl⟩
          exact ⟨rfl, by simpa using howned, rfl⟩
        · rintro ⟨rfl, -, rfl⟩
          exact ⟨rfl, rfl⟩
      · simp only [checked, howned]
        constructor
        · intro h
          obtain ⟨_, _, -, h⟩ := (Program.run_bind_ok_iff _).mp h
          cases h
        · rintro ⟨hfound, hall, -⟩
          obtain rfl := Except.ok.inj hfound
          exact absurd (hall np rfl) howned

/-- The check passes if its call is delivered and the managed name is free or held by the policy's
own NetworkPolicy. -/
theorem run_getManagedNetworkPolicy_iff {action : String} {found : Option NetworkPolicy} :
    (getManagedNetworkPolicy ns policy action).run (api applied) w = (.ok found, w') ↔
      (w.choices 0).delivery = .delivered ∧
      w.state.networkPolicies (ns, policy.managedNetworkPolicyName) = found ∧
      (∀ np ∈ found, isManagedNetworkPolicyFor policy np) ∧
      w' = w.after (api applied) (.getNetworkPolicy ns policy.managedNetworkPolicyName) := by
  have hbind := getManagedNetworkPolicy_bind ns policy action .ret
  rw [Program.bind_ret] at hbind
  rw [hbind, Program.run_call, run_checked_iff]
  simp only [World.answer, api, serve, Delivery.receive_ok_iff, Except.ok.injEq, and_assoc]

theorem run_applyManagedNetworkPolicy_iff
    (hname : r.rendered.metadata.name = some policy.managedNetworkPolicyName) :
    (applyManagedNetworkPolicy r.ns r.rendered).run (api applied) w = (.ok (), w') ↔
      (w.choices 0).delivery = .delivered ∧ w' = w.after (api applied) (applyCall K policy r) := by
  simp only [applyManagedNetworkPolicy, Task.patchNetworkPolicy, hname, Program.run_call,
    Program.run_ofExcept, Prod.mk.injEq, World.answer, api, serve, Delivery.write,
    Delivery.receive_ok_iff, and_true, eq_comm (a := w')]
  rfl

theorem run_patchStatusForOutcome_iff {outcome : ReconcileOutcome}
    (hsuccess : outcome = .reconciled r.observed ∨ outcome = .noChange r.observed) :
    (patchStatusForOutcome K r.ns policy outcome).run (api applied) w = (.ok (), w') ↔
      (w.choices 1).delivery = .delivered ∧
      (w.state.policies (r.ns, policy.nameAny)).isSome ∧
      w' = w.afterAll (api applied) [.utcNow, statusCall K policy r (w.choices 0).now] := by
  have hrun : (patchStatusForOutcome K r.ns policy outcome).run (api applied) w =
      ((serve applied (w.choices 1) (statusCall K policy r (w.choices 0).now) w.state).1,
        w.afterAll (api applied) [.utcNow, statusCall K policy r (w.choices 0).now]) := by
    rcases hsuccess with rfl | rfl
    all_goals exact Program.run_ofExcept _ _ _
  have hanswer : (serve applied (w.choices 1) (statusCall K policy r (w.choices 0).now) w.state).1 =
      .ok () ↔ (w.choices 1).delivery = .delivered ∧
        (w.state.policies (r.ns, policy.nameAny)).isSome := by
    simp only [statusCall, serve]
    cases w.state.policies (r.ns, policy.nameAny) with
    | none => simp [Delivery.receive_ok_iff]
    | some stored => simp [Delivery.write, Delivery.receive_ok_iff]
  rw [hrun, ← and_assoc, ← hanswer, eq_comm (a := w')]
  exact Prod.mk_inj

theorem run_publishOutcomeEvent_iff :
    (publishOutcomeEvent policy (some r.rendered) (.reconciled r.observed)).run (api applied) w =
        (.ok (), w') ↔
      (w.choices 0).delivery = .delivered ∧
      w' = w.after (api applied) (.publishEvent (reconciledEvent K r) policy.objectRef) := by
  simp only [publishOutcomeEvent, publishPolicyEvent, Task.publishEvent, Program.run_call,
    Program.run_ofExcept, Prod.mk.injEq, World.answer, api, serve, Delivery.write,
    Delivery.receive_ok_iff, and_true, eq_comm (a := w')]
  rfl

end Answers

section Calls
variable (h : Delivered w)
include h

theorem after_patchNetworkPolicy (ns name : String) (params : PatchParams)
    (patch : NetworkPolicy) :
    (w.after (api applied) (.patchNetworkPolicy ns name params patch)).state =
      w.state.setNetworkPolicy (ns, name)
        (some (applied (w.state.networkPolicies (ns, name)) patch)) := by
  simp only [World.after, api, serve, h 0, Delivery.write, Delivery.arrives, if_true]

theorem after_patchStatus {name : String} {stored : CIDRPolicy}
    (hstored : w.state.policies (ns, name) = some stored) (params : PatchParams)
    (patch : CIDRPolicyStatus) :
    (w.after (api applied) (.patchStatus ns name params patch)).state =
      w.state.setPolicy (ns, name) (some (stored.withStatus patch)) := by
  simp only [World.after, api, serve, hstored, h 0, Delivery.write, Delivery.arrives, if_true]

theorem after_publishEvent (event : Event) (reference : ObjectReference) :
    (w.after (api applied) (.publishEvent event reference)).state =
      { w.state with events := w.state.events ++ [(event, reference)] } := by
  simp only [World.after, api, serve, h 0, Delivery.write, Delivery.arrives, if_true]

/-- A managed name that is free or held by the policy's own NetworkPolicy passes the check. -/
theorem run_getManagedNetworkPolicy (ns : String) (policy : CIDRPolicy) (action : String)
    (howned : ∀ np ∈ w.state.networkPolicies (ns, policy.managedNetworkPolicyName),
      isManagedNetworkPolicyFor policy np) :
    (getManagedNetworkPolicy ns policy action).run (api applied) w =
      (.ok (w.state.networkPolicies (ns, policy.managedNetworkPolicyName)),
        w.after (api applied) (.getNetworkPolicy ns policy.managedNetworkPolicyName)) :=
  (run_getManagedNetworkPolicy_iff applied).mpr ⟨h 0, rfl, howned, rfl⟩

theorem run_applyManagedNetworkPolicy
    (hname : r.rendered.metadata.name = some policy.managedNetworkPolicyName) :
    (applyManagedNetworkPolicy r.ns r.rendered).run (api applied) w =
      (.ok (), w.after (api applied) (applyCall K policy r)) :=
  (run_applyManagedNetworkPolicy_iff applied hname).mpr ⟨h 0, rfl⟩

theorem run_patchStatusForOutcome {outcome : ReconcileOutcome}
    (hsuccess : outcome = .reconciled r.observed ∨ outcome = .noChange r.observed)
    (hstored : (w.state.policies (r.ns, policy.nameAny)).isSome) :
    (patchStatusForOutcome K r.ns policy outcome).run (api applied) w =
      (.ok (), w.afterAll (api applied) [.utcNow, statusCall K policy r (w.choices 0).now]) :=
  (run_patchStatusForOutcome_iff applied hsuccess).mpr ⟨h 1, hstored, rfl⟩

theorem run_publishOutcomeEvent (policy : CIDRPolicy) (r : Resolved K) :
    (publishOutcomeEvent policy (some r.rendered) (.reconciled r.observed)).run (api applied) w =
      (.ok (), w.after (api applied)
        (.publishEvent (reconciledEvent K r) policy.objectRef)) :=
  (run_publishOutcomeEvent_iff applied).mpr ⟨h 0, rfl⟩

omit h in
theorem run_scheduleRequeueAfter (schedule : K.Schedule) :
    (scheduleRequeueAfter K schedule >>= fun after => pure (.requeue after)).run (api applied) w =
      (requeueAt K schedule (w.choices 0).now, w.after (api applied) .utcNow) := by
  have hrun : (scheduleRequeueAfter K schedule).run (api applied) w =
      ((nextResyncAfter K schedule (w.choices 0).now).mapError .scheduling,
        w.after (api applied) .utcNow) :=
    Program.run_ofExcept _ _ _
  rw [Program.run_bind, hrun, requeueAt]
  cases nextResyncAfter K schedule (w.choices 0).now <;> rfl

/-- A publication that finds nothing to change stamps the status and computes the requeue. -/
theorem run_publish_noChange {current : NetworkPolicy}
    (hcurrent : w.state.networkPolicies (r.ns, policy.managedNetworkPolicyName) = some current)
    (howned : isManagedNetworkPolicyFor policy current)
    (hmatches : managedPolicyMatches current r.rendered)
    (hstored : (w.state.policies (r.ns, policy.nameAny)).isSome) :
    (publish K policy r).run (api applied) w =
      (requeueAt K r.validated.resyncSchedule (w.choices 3).now,
        w.afterAll (api applied) (noChangeCalls K policy r (w.choices 1).now)) := by
  have hget := run_getManagedNetworkPolicy applied h r.ns policy "Reconcile"
    (by simp [hcurrent, howned])
  have houtcome : classifyOutcome (some current) r.rendered r.observed = .noChange r.observed :=
    if_pos hmatches
  have hstatus := run_patchStatusForOutcome applied (K := K) (r := r)
    (h.after applied (.getNetworkPolicy r.ns policy.managedNetworkPolicyName)) (.inr rfl) hstored
  rw [publish, Program.run_bind_ok _ hget]
  simp only [hcurrent, houtcome, ReconcileOutcome.isReconciled, Bool.false_eq_true, if_false]
  rw [Program.run_bind_ok _ rfl, conclude,
    Program.run_bind_ok _ (Program.run_mapError_ok _ hstatus _), Program.run_bind_ok _ rfl]
  exact run_scheduleRequeueAfter applied _

/-- A publication that finds something to change applies the rendering first, and announces
it before it computes the requeue. -/
theorem run_publish_reconciled
    (howned : ∀ np ∈ w.state.networkPolicies (r.ns, policy.managedNetworkPolicyName),
      isManagedNetworkPolicyFor policy np ∧ ¬ managedPolicyMatches np r.rendered)
    (hname : r.rendered.metadata.name = some policy.managedNetworkPolicyName)
    (hstored : (w.state.policies (r.ns, policy.nameAny)).isSome) :
    (publish K policy r).run (api applied) w =
      (requeueAt K r.validated.resyncSchedule (w.choices 5).now,
        w.afterAll (api applied) (reconciledCalls K policy r (w.choices 2).now)) := by
  have hget := run_getManagedNetworkPolicy applied h r.ns policy "Reconcile"
    fun np hnp => (howned np hnp).1
  have houtcome : classifyOutcome
      (w.state.networkPolicies (r.ns, policy.managedNetworkPolicyName)) r.rendered r.observed =
        .reconciled r.observed := by
    cases he : w.state.networkPolicies (r.ns, policy.managedNetworkPolicyName) with
    | none => rfl
    | some np => exact if_neg (howned np he).2
  have hd := h.after applied (.getNetworkPolicy r.ns policy.managedNetworkPolicyName)
  have happly := run_applyManagedNetworkPolicy applied hd hname
  have hd' := hd.after applied (applyCall K policy r)
  have hstored' := hstored
  rw [← serve_applyCall_policies applied (w.choices 1) w.state] at hstored'
  have hstatus := run_patchStatusForOutcome applied (K := K) (r := r) hd' (.inl rfl) hstored'
  have hevent := run_publishOutcomeEvent applied ((hd'.after applied .utcNow).after applied
    (statusCall K policy r (w.choices 2).now)) policy r
  rw [publish, Program.run_bind_ok _ hget]
  simp only [houtcome, ReconcileOutcome.isReconciled, if_true]
  rw [Program.run_bind_ok _ (Program.run_mapError_ok _ happly _), conclude,
    Program.run_bind_ok _ (Program.run_mapError_ok _ hstatus _)]
  refine (Program.run_bind_ok _ (Program.run_mapError_ok _ hevent _)).trans ?_
  exact run_scheduleRequeueAfter applied _

/-- A publication that finds nothing to change changes the stored status only. -/
theorem afterAll_noChangeCalls {stored : CIDRPolicy}
    (hstored : w.state.policies (r.ns, policy.nameAny) = some stored) (now : Instant) :
    (w.afterAll (api applied) (noChangeCalls K policy r now)).state =
      w.state.setPolicy (r.ns, policy.nameAny)
        (some (stored.withStatus (successStatus K r.observed now))) := by
  have hd := (h.after applied (.getNetworkPolicy r.ns policy.managedNetworkPolicyName)).after
    applied .utcNow
  exact after_patchStatus applied hd hstored _ _

/-- A publication that applies the rendering changes the NetworkPolicy and the stored status. -/
theorem afterAll_reconciledCalls {stored : CIDRPolicy}
    (hstored : w.state.policies (r.ns, policy.nameAny) = some stored) (now : Instant) :
    (w.afterAll (api applied) (reconciledCalls K policy r now)).state =
      { networkPolicies := (w.state.setNetworkPolicy (r.ns, policy.managedNetworkPolicyName)
          (some (applied (w.state.networkPolicies (r.ns, policy.managedNetworkPolicyName))
            r.rendered))).networkPolicies
        policies := (w.state.setPolicy (r.ns, policy.nameAny)
          (some (stored.withStatus (successStatus K r.observed now)))).policies
        events := w.state.events ++ [(reconciledEvent K r, policy.objectRef)] } := by
  have hd := h.after applied (.getNetworkPolicy r.ns policy.managedNetworkPolicyName)
  have hd' := (hd.after applied (applyCall K policy r)).after applied .utcNow
  have hpatched : (((w.after (api applied) _).after (api applied) (applyCall K policy r)).after
      (api applied) .utcNow).state = w.state.setNetworkPolicy _ (some (applied _ r.rendered)) :=
    after_patchNetworkPolicy applied hd _ _ (PatchParams.apply fieldManager).forced _
  have hstored' := hstored
  rw [← serve_applyCall_policies applied (w.choices 1) w.state] at hstored'
  have hevent := after_publishEvent applied (hd'.after applied (statusCall K policy r now))
    (reconciledEvent K r) policy.objectRef
  refine hevent.trans ?_
  rw [statusCall, after_patchStatus applied hd' hstored', hpatched]
  rfl

end Calls
end Ipmaze
