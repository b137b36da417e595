import Ipmaze.Effects.Warrants
import Ipmaze.Reconcile.Listing
import Ipmaze.Reconcile.Writes

/-! What a reconcile has seen by the time it changes or announces something, and by the time it
returns. -/
namespace Ipmaze
open Effects

section Grounds
variable (K : Crates) (policy : CIDRPolicy)

def cleanupEvent (deleted : Bool) : Event where
  eventType := .normal
  reason := "CleanupManagedPolicy"
  note := some (if deleted then
      "Deleted managed NetworkPolicy " ++ policy.managedNetworkPolicyName ++
        " during CIDRPolicy cleanup"
    else
      "Managed NetworkPolicy " ++ policy.managedNetworkPolicyName ++
        " was already absent during CIDRPolicy cleanup")
  action := "Cleanup"
  secondary := none

def collisionEvent (np : NetworkPolicy) (action : String) : Event where
  eventType := .warning
  reason := "ManagedPolicyCollision"
  note := some ("Refusing to " ++ Text.toLowercase action ++ " NetworkPolicy " ++
    policy.managedNetworkPolicyName ++
    " because an existing resource with that name is not owned by this CIDRPolicy")
  action := action
  secondary := some np.objectRef

/-- The last thing seen is what the managed name holds. -/
def JustFound (past : List Calls.Event) (ns : String) (found : Option NetworkPolicy) : Prop :=
  ∃ before, past = before ++ [⟨.getNetworkPolicy ns policy.managedNetworkPolicyName, .ok found⟩]

/-- The cluster has been seen to hold the rendering, or has acknowledged an apply of it. -/
def Resolved.Shown {K : Crates} (r : Resolved K) (past : List Calls.Event) : Prop :=
  (∃ np, ⟨.getNetworkPolicy r.ns policy.managedNetworkPolicyName, .ok (some np)⟩ ∈ past ∧
    isManagedNetworkPolicyFor policy np ∧ managedPolicyMatches np r.rendered) ∨
  (⟨applyCall K policy r, Except.ok ()⟩ : Calls.Event) ∈ past

/-- The managed NetworkPolicy is gone: it was not there, was deleted, or was gone already when it
should have been deleted. -/
def Gone (past : List Calls.Event) (ns : String) (deleted : Bool) : Prop :=
  if deleted then ⟨.deleteNetworkPolicy ns policy.managedNetworkPolicyName, .ok ()⟩ ∈ past
  else ⟨.getNetworkPolicy ns policy.managedNetworkPolicyName, .ok none⟩ ∈ past ∨
    ∃ text, ⟨.deleteNetworkPolicy ns policy.managedNetworkPolicyName, .error (.api 404 text)⟩ ∈ past

/-- A resolution of the policy for the CIDRs that the answers have listed. -/
structure Resolved.Retrieved {K : Crates} (r : Resolved K) (past : List Calls.Event) : Prop where
  sound : r.Sound policy
  listed : Listed K policy past r.cidrs

/-- What was done and seen when an event is announced. -/
inductive Announced (past : List Calls.Event) : Event → Prop
  | reconciled {r : Resolved K} {now : Instant} (hretrieved : r.Retrieved policy past)
      (happly : (⟨applyCall K policy r, Except.ok ()⟩ : Calls.Event) ∈ past)
      (hstatus : (⟨statusCall K policy r now, Except.ok ()⟩ : Calls.Event) ∈ past) :
    Announced past (reconciledEvent K r)
  | cleanup {ns : String} {deleted : Bool} (hterminating : policy.metadata.deletionTimestamp.isSome)
      (hns : policy.metadata.ns = some ns) (hgone : Gone policy past ns deleted) :
    Announced past (cleanupEvent policy deleted)
  | collision {ns action : String} {np : NetworkPolicy} (hns : policy.metadata.ns = some ns)
      (hfound : JustFound policy past ns (some np))
      (hforeign : ¬ isManagedNetworkPolicyFor policy np) :
    Announced past (collisionEvent policy np action)

/-- What was done and seen when a call is made, and what the call is about. -/
def Grounds (past : List Calls.Event) : Call → Prop
  | .patchNetworkPolicy ns name _ patch =>
    policy.metadata.deletionTimestamp = none ∧ policy.metadata.ns = some ns ∧
      name = policy.managedNetworkPolicyName ∧ ∃ r : Resolved K, r.Retrieved policy past ∧
        patch = r.rendered ∧ ∃ found, JustFound policy past ns found ∧
          ∀ np ∈ found, isManagedNetworkPolicyFor policy np
  | .deleteNetworkPolicy ns name =>
    policy.metadata.deletionTimestamp.isSome ∧ policy.metadata.ns = some ns ∧
      name = policy.managedNetworkPolicyName ∧ ∃ np, JustFound policy past ns (some np) ∧
        isManagedNetworkPolicyFor policy np
  | .patchStatus ns name _ status =>
    policy.metadata.deletionTimestamp = none ∧ policy.metadata.ns = some ns ∧
      name = policy.nameAny ∧ ∃ (r : Resolved K) (now : Instant), r.Retrieved policy past ∧
        r.Shown policy past ∧ (⟨.utcNow, now⟩ : Calls.Event) ∈ past ∧
          status = successStatus K r.observed now
  | .publishEvent event reference => reference = policy.objectRef ∧ Announced K policy past event
  | _ => True

/-- What was done when a reconcile returns: published and stamped, or cleaned up. -/
def Achieved (past : List Calls.Event) : Except ReconcileError Action → Prop
  | .ok (.requeue _) =>
    policy.metadata.deletionTimestamp = none ∧ ∃ (r : Resolved K) (now : Instant),
      r.Retrieved policy past ∧ r.Shown policy past ∧
        (⟨statusCall K policy r now, Except.ok ()⟩ : Calls.Event) ∈ past
  | .ok .awaitChange =>
    policy.metadata.deletionTimestamp.isSome ∧ ∃ ns deleted, policy.metadata.ns = some ns ∧
      Gone policy past ns deleted
  | .error _ => True

end Grounds

section Programs
variable {K : Crates} {policy : CIDRPolicy} {past : List Calls.Event}

theorem Resolved.Shown.mono {r : Resolved K} {past' : List Calls.Event} (h : r.Shown policy past)
    (hpast : past <+: past') : r.Shown policy past' := by
  rcases h with ⟨np, hfound, howned, hmatches⟩ | happly
  · exact Or.inl ⟨np, hpast.subset hfound, howned, hmatches⟩
  · exact Or.inr (hpast.subset happly)

theorem Resolved.Retrieved.mono {r : Resolved K} {past' : List Calls.Event}
    (h : r.Retrieved policy past) (hpast : past <+: past') : r.Retrieved policy past' :=
  ⟨h.sound, h.listed.mono hpast⟩

theorem Gone.mono {past' : List Calls.Event} {ns : String} {deleted : Bool}
    (h : Gone policy past ns deleted) (hpast : past <+: past') : Gone policy past' ns deleted := by
  cases deleted with
  | true => exact hpast.subset h
  | false =>
    rcases h with hnone | ⟨text, hmissing⟩
    · exact Or.inl (hpast.subset hnone)
    · exact Or.inr ⟨text, hpast.subset hmissing⟩

/-- The last call of a reconcile finds out when the next one is due. -/
theorem scheduleRequeueAfter_warranted (schedule : K.Schedule)
    (hachieved : ∀ now after, Achieved K policy (past ++ [⟨.utcNow, now⟩]) (.ok (.requeue after))) :
    (scheduleRequeueAfter K schedule >>= fun after => pure (.requeue after)).Warranted
      (Grounds K policy) (Achieved K policy) past := by
  refine ⟨trivial, fun now => ?_⟩
  change (Program.ofExcept ((nextResyncAfter K schedule now).mapError .scheduling) >>= _ :
    Task ReconcileError Action).Warranted _ _ _
  cases nextResyncAfter K schedule now with
  | error e => trivial
  | ok after => exact hachieved now after

/-- The end of a reconcile, once the rendering is in place. -/
theorem conclude_warranted {r : Resolved K} {outcome : ReconcileOutcome}
    (hlive : policy.metadata.deletionTimestamp = none) (hretrieved : r.Retrieved policy past)
    (hshown : r.Shown policy past)
    (houtcome : outcome = .noChange r.observed ∨ outcome = .reconciled r.observed ∧
      (⟨applyCall K policy r, Except.ok ()⟩ : Calls.Event) ∈ past) :
    (conclude K policy r outcome).Warranted (Grounds K policy) (Achieved K policy) past := by
  have hafter (past' : List Calls.Event) (now : Instant) (hpast : past <+: past')
      (hstatus : (⟨statusCall K policy r now, Except.ok ()⟩ : Calls.Event) ∈ past') :
      (scheduleRequeueAfter K r.validated.resyncSchedule >>= fun after =>
        pure (.requeue after)).Warranted (Grounds K policy) (Achieved K policy) past' := by
    refine scheduleRequeueAfter_warranted _ fun later after => ?_
    have hpast' : past <+: past' ++ [⟨.utcNow, later⟩] := hpast.trans (List.prefix_append ..)
    exact ⟨hlive, r, now, hretrieved.mono hpast', hshown.mono hpast',
      List.mem_append_left _ hstatus⟩
  have hgrounds (now : Instant) :
      Grounds K policy (past ++ [⟨.utcNow, now⟩]) (statusCall K policy r now) :=
    ⟨hlive, hretrieved.sound.ns, rfl, r, now, hretrieved.mono (List.prefix_append ..),
      hshown.mono (List.prefix_append ..), List.mem_append_right _ (List.mem_singleton_self _), rfl⟩
  have hpast (now : Instant) :
      past <+: past ++ [⟨.utcNow, now⟩] ++ [⟨statusCall K policy r now, Except.ok ()⟩] := by
    rw [List.append_assoc]
    exact List.prefix_append ..
  have hstatus (now : Instant) : (⟨statusCall K policy r now, Except.ok ()⟩ : Calls.Event) ∈
      past ++ [⟨.utcNow, now⟩] ++ [⟨statusCall K policy r now, Except.ok ()⟩] :=
    List.mem_append_right _ (List.mem_singleton_self _)
  rcases houtcome with rfl | ⟨rfl, happly⟩
  · refine ⟨trivial, fun now => ⟨hgrounds now, fun answer => ?_⟩⟩
    cases answer with
    | error e => trivial
    | ok done => exact hafter _ now (hpast now) (hstatus now)
  · refine ⟨trivial, fun now => ⟨hgrounds now, fun answer => ?_⟩⟩
    cases answer with
    | error e => trivial
    | ok done =>
      have happlied := (hpast now).subset happly
      refine ⟨⟨rfl, .reconciled (hretrieved.mono (hpast now)) happlied (hstatus now)⟩,
        fun answer => ?_⟩
      cases answer with
      | error e => trivial
      | ok done =>
        exact hafter _ now ((hpast now).trans (List.prefix_append ..))
          (List.mem_append_left _ (hstatus now))

/-- A check reports what it finds, and announces a collision before it fails. -/
theorem checked_warranted {β : Type} {ns action : String}
    {f : Option NetworkPolicy → Task ReconcileError β}
    {Q : List Calls.Event → Except ReconcileError β → Prop} (hns : policy.metadata.ns = some ns)
    (herror : ∀ past e, Q past (.error e))
    (hf : ∀ past' found, past <+: past' → JustFound policy past' ns found →
      (∀ np ∈ found, isManagedNetworkPolicyFor policy np) →
      (f found).Warranted (Grounds K policy) Q past') :
    (getManagedNetworkPolicy ns policy action >>= f).Warranted (Grounds K policy) Q past := by
  rw [getManagedNetworkPolicy_bind]
  refine ⟨trivial, fun answer => ?_⟩
  cases answer with
  | error e => exact herror _ _
  | ok found =>
    have hfound : JustFound policy
        (past ++ [⟨.getNetworkPolicy ns policy.managedNetworkPolicyName, .ok found⟩]) ns found :=
      ⟨past, rfl⟩
    cases found with
    | none => exact hf _ none (List.prefix_append ..) hfound (by simp)
    | some np =>
      by_cases howned : isManagedNetworkPolicyFor policy np = true
      · simp only [checked, howned, if_true]
        exact hf _ (some np) (List.prefix_append ..) hfound (by simpa using howned)
      · simp only [checked, howned]
        refine ⟨⟨rfl, .collision hns hfound howned⟩, fun answer => ?_⟩
        cases answer <;> exact herror _ _

theorem Resolved.Sound.apply_eq {r : Resolved K} (h : r.Sound policy) :
    applyManagedNetworkPolicy r.ns r.rendered =
      .call (I := Calls) (applyCall K policy r) .ofExcept := by
  have hname : r.rendered.metadata.name = some policy.managedNetworkPolicyName := by
    rw [h.rendered_metadata]
    rfl
  unfold applyManagedNetworkPolicy Task.patchNetworkPolicy
  rw [hname]
  rfl

theorem publish_warranted {r : Resolved K} (hlive : policy.metadata.deletionTimestamp = none)
    (hretrieved : r.Retrieved policy past) :
    (publish K policy r).Warranted (Grounds K policy) (Achieved K policy) past := by
  have hsound := hretrieved.sound
  unfold publish
  refine checked_warranted hsound.ns (fun _ _ => trivial) fun past' found hpast hfound howned => ?_
  by_cases hmatches : ∃ np, found = some np ∧ managedPolicyMatches np r.rendered
  · obtain ⟨np, rfl, hmatches⟩ := hmatches
    have houtcome : classifyOutcome (some np) r.rendered r.observed = .noChange r.observed :=
      if_pos hmatches
    simp only [houtcome, ReconcileOutcome.isReconciled]
    refine conclude_warranted hlive (hretrieved.mono hpast)
      (Or.inl ⟨np, ?_, howned np rfl, hmatches⟩) (Or.inl rfl)
    obtain ⟨before, rfl⟩ := hfound
    exact List.mem_append_right _ (List.mem_singleton_self _)
  · have houtcome : classifyOutcome found r.rendered r.observed = .reconciled r.observed := by
      cases found with
      | none => rfl
      | some np => exact if_neg fun h => hmatches ⟨np, rfl, h⟩
    simp only [houtcome, ReconcileOutcome.isReconciled, if_true, hsound.apply_eq]
    refine ⟨⟨hlive, hsound.ns, rfl, r, hretrieved.mono hpast, rfl, found, hfound, howned⟩,
      fun answer => ?_⟩
    cases answer with
    | error e => trivial
    | ok done =>
      have happly : (⟨applyCall K policy r, Except.ok ()⟩ : Calls.Event) ∈
          past' ++ [⟨applyCall K policy r, Except.ok ()⟩] :=
        List.mem_append_right _ (List.mem_singleton_self _)
      exact conclude_warranted hlive (hretrieved.mono (hpast.trans (List.prefix_append ..)))
        (Or.inr happly) (Or.inr ⟨rfl, happly⟩)

theorem cleanup_warranted (hterminating : policy.metadata.deletionTimestamp.isSome) :
    (cleanup policy >>= fun _ => pure Action.awaitChange).Warranted (Grounds K policy)
      (Achieved K policy) past := by
  unfold cleanup
  cases hns : policy.metadata.ns with
  | none => trivial
  | some ns =>
    simp only [Option.elim_some, Program.ofExcept_ok, Program.ret_bind, bind_assoc]
    refine checked_warranted hns (fun _ _ => trivial) fun past found _ hfound howned => ?_
    have hevent (past : List Calls.Event) (deleted : Bool) (hgone : Gone policy past ns deleted) :
        ((publishPolicyEvent policy .normal "CleanupManagedPolicy" "Cleanup"
          (cleanupEvent policy deleted).note none).mapError .kubernetesApi >>= fun _ =>
            pure Action.awaitChange).Warranted (Grounds K policy) (Achieved K policy) past := by
      refine ⟨⟨rfl, .cleanup hterminating hns hgone⟩, fun answer => ?_⟩
      cases answer with
      | error e => trivial
      | ok done =>
        exact ⟨hterminating, ns, deleted, hns, hgone.mono (List.prefix_append ..)⟩
    cases found with
    | none =>
      obtain ⟨before, rfl⟩ := hfound
      exact hevent _ false (Or.inl (List.mem_append_right _ (List.mem_singleton_self _)))
    | some np =>
      rw [Option.isSome_some, deleteManagedNetworkPolicy_bind]
      refine ⟨⟨hterminating, hns, rfl, np, hfound, howned np rfl⟩, fun answer => ?_⟩
      unfold deleted
      split
      · exact hevent _ true (List.mem_append_right _ (List.mem_singleton_self _))
      · next text =>
        exact hevent _ false
          (Or.inr ⟨text, List.mem_append_right _ (List.mem_singleton_self _)⟩)
      · trivial

/-- Every write and every announcement of a reconcile has its grounds in what the reconcile has
seen, and so has its success. -/
theorem reconcile_warranted (K : Crates) (policy : CIDRPolicy) :
    (reconcile K policy).Warranted (Grounds K policy) (Achieved K policy) [] := by
  cases hlive : policy.metadata.deletionTimestamp with
  | some deletion =>
    have hterminating : policy.metadata.deletionTimestamp.isSome := by rw [hlive]; rfl
    rw [reconcile_terminating hterminating]
    exact cleanup_warranted hterminating
  | none =>
    rw [reconcile_eq hlive]
    have hresolve : (resolve K policy).Warranted (Grounds K policy)
        (fun log result => ∀ r, result = .ok r → r.Retrieved policy log) [] := by
      refine ((resolve_remote policy).warranted_along fun l call hremote => ?_).mono
        fun log result h r hr => ?_
      · cases call with
        | httpGet url => trivial
        | _ => exact hremote.elim
      · obtain ⟨l, rfl, htrace⟩ := h r hr
        exact ⟨htrace.yields (resolve_sound policy), resolve_listed htrace⟩
    refine hresolve.bind (fun past r hr => ?_) fun _ _ _ => trivial
    exact publish_warranted hlive (hr r rfl)

end Programs
end Ipmaze
