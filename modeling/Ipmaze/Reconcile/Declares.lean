import Ipmaze.Effects.Ensures
import Ipmaze.Reconcile.Grounds
import Ipmaze.Reconcile.Round

/-! As far as others leave it alone, a reconcile that returns has left the NetworkPolicy and the
status that its policy declares for the CIDRs it has retrieved, or no NetworkPolicy where the policy
is terminating. -/
namespace Ipmaze
open Effects

section Declared
variable (K : Crates) (policy : CIDRPolicy) (told : Prop)

/-- The managed name holds the rendering for these CIDRs. -/
def Holds (cidrs : List NormalizedCidr) (s : Cluster) : Prop :=
  ∃ np, s.managed policy = some np ∧ np.spec = some (policy.spec.rendered cidrs)

/-- The status is that of a success with these CIDRs. -/
def Stamped (cidrs : List NormalizedCidr) (s : Cluster) : Prop :=
  ∃ stored now, s.stored policy = some
    (CIDRPolicy.withStatus stored (successStatus K (cidrs.map NormalizedCidr.rendered) now))

/-- What a policy declares for these CIDRs is in place, the status included if it is to be told. -/
structure Declared (cidrs : List NormalizedCidr) (s : Cluster) : Prop where
  networkPolicy : Holds policy cidrs s
  status : told → Stamped K policy cidrs s

/-- What has been put in place for these CIDRs stays. -/
structure Spares (cidrs : List NormalizedCidr) (s s' : Cluster) : Prop where
  networkPolicy : Holds policy cidrs s → Holds policy cidrs s'
  status : told → Stamped K policy cidrs s → Stamped K policy cidrs s'

/-- A call of a publication writes nothing but the rendering and its success. -/
def Call.Publishes {K : Crates} (r : Resolved K) : Call → Prop
  | patchNetworkPolicy _ _ _ patch => patch = r.rendered
  | deleteNetworkPolicy _ _ => False
  | patchStatus _ _ _ status => ∃ now, status = successStatus K r.observed now
  | _ => True

/-- What a publication relies on of the others, and they on it. -/
structure Resolved.Arranged {K : Crates} (applied : Apply) (C : Call → Choice → Prop)
    (R G : Cluster → Cluster → Prop) (r : Resolved K) : Prop where
  refl : ∀ s, R s s
  others : ∀ s s', R s s' → Spares K policy told r.cidrs s s'
  change : ∀ choice call s, call.Within policy → call.Publishes r → C call choice →
    G s (serve applied choice call s).2

/-- A call of a cleanup writes no NetworkPolicy and no status. -/
def Call.Retracts : Call → Prop
  | patchNetworkPolicy _ _ _ _ | patchStatus _ _ _ _ => False
  | _ => True

/-- A call that only looks, or reports. -/
def Call.Inspects : Call → Prop
  | getNetworkPolicy _ _ | publishEvent _ _ => True
  | _ => False

/-- An outage is not taken for a missing object. -/
def Choice.Truthful (choice : Choice) : Prop :=
  ∀ error, choice.delivery = .lost error ∨ choice.delivery = .unacknowledged error →
    ∀ text, error ≠ .api 404 text

end Declared

section Programs
variable {K : Crates} {policy : CIDRPolicy} {told : Prop} {applied : Apply} {r : Resolved K}
variable {past : List Calls.Event} {s : Cluster}

theorem Declared.spared {cidrs : List NormalizedCidr} {s' : Cluster}
    (h : Declared K policy told cidrs s) (hs : Spares K policy told cidrs s s') :
    Declared K policy told cidrs s' :=
  ⟨hs.networkPolicy h.networkPolicy, fun ht => hs.status ht (h.status ht)⟩

namespace Call.Inspects
variable {call : Call}

theorem publishes (h : call.Inspects) : call.Publishes r := by
  cases call with
  | getNetworkPolicy ns name | publishEvent event reference => trivial
  | _ => exact h.elim

theorem retracts (h : call.Inspects) : call.Retracts := by
  cases call with
  | getNetworkPolicy ns name | publishEvent event reference => trivial
  | _ => exact h.elim

end Call.Inspects

section Calls
variable (hsound : r.Sound policy)
include hsound

/-- A status update that is acknowledged is stored. -/
theorem serve_statusCall {now : Instant} {choice : Choice}
    (h : (serve applied choice (statusCall K policy r now) s).1 = .ok ()) :
    Stamped K policy r.cidrs (serve applied choice (statusCall K policy r now) s).2 := by
  have hwithin : (statusCall K policy r now).Within policy := ⟨hsound.ns, rfl⟩
  rw [Stamped, serve_stored applied hwithin]
  cases hstored : s.policies (r.ns, policy.nameAny) with
  | none =>
    simp only [statusCall, serve, hstored] at h
    cases hdelivery : choice.delivery with
    | delivered => simp [hdelivery, Delivery.receive] at h
    | lost error => simp [hdelivery, Delivery.receive] at h
    | unacknowledged error => simp [hdelivery, Delivery.receive] at h
  | some stored =>
    simp only [statusCall, serve, hstored] at h
    rw [Cluster.stored_eq hsound.ns, hstored]
    exact ⟨stored, now, if_pos (Delivery.arrives_of_receive h)⟩

theorem Resolved.Sound.applied_spec (hsets : Apply.Sets applied) (old : Option NetworkPolicy) :
    (applied old r.rendered).spec = some (policy.spec.rendered r.cidrs) := by
  rw [(hsets _ _).spec, hsound.rendered_eq]
  rfl

/-- An apply that is acknowledged is stored. -/
theorem serve_applyCall (hsets : Apply.Sets applied) {choice : Choice}
    (h : (serve applied choice (applyCall K policy r) s).1 = .ok ()) :
    Holds policy r.cidrs (serve applied choice (applyCall K policy r) s).2 := by
  have hwithin : (applyCall K policy r).Within policy := ⟨hsound.ns, rfl, hsound.rendered_metadata⟩
  rw [Holds, serve_managed applied hwithin]
  exact ⟨_, if_pos (Delivery.arrives_of_receive h), hsound.applied_spec hsets _⟩

/-- Whatever becomes of it, a call of the publication disturbs nothing. -/
theorem Call.Publishes.spares (hsets : Apply.Sets applied) {call : Call}
    (hwithin : call.Within policy) (h : call.Publishes r) (choice : Choice) (s : Cluster) :
    Spares K policy told r.cidrs s (serve applied choice call s).2 := by
  constructor
  · rintro ⟨np, hnp, hspec⟩
    rw [Holds, serve_managed applied hwithin]
    cases call with
    | patchNetworkPolicy ns name params patch =>
      cases choice.delivery.arrives with
      | false => exact ⟨np, hnp, hspec⟩
      | true =>
        obtain rfl : patch = r.rendered := h
        exact ⟨_, rfl, hsound.applied_spec hsets _⟩
    | deleteNetworkPolicy ns name => exact h.elim
    | _ => exact ⟨np, hnp, hspec⟩
  · rintro - ⟨stored, now, hstored⟩
    rw [Stamped, serve_stored applied hwithin]
    cases call with
    | patchStatus ns name params status =>
      cases choice.delivery.arrives with
      | false => exact ⟨stored, now, hstored⟩
      | true =>
        obtain ⟨later, rfl⟩ := h
        rw [hstored]
        exact ⟨_, later, rfl⟩
    | _ => exact ⟨stored, now, hstored⟩

end Calls

variable {C : Call → Choice → Prop} {R G : Cluster → Cluster → Prop}

/-- What is found under the managed name is what is stored there. -/
theorem checked_ensures {ns action : String} {β : Type}
    {f : Option NetworkPolicy → Task ReconcileError β} {Q : List Calls.Event → β → Cluster → Prop}
    (hns : policy.metadata.ns = some ns)
    (hchange : ∀ choice call s, call.Within policy → call.Inspects → C call choice →
      G s (serve applied choice call s).2)
    (hf : ∀ past s found, found = s.managed policy →
      (f found).Ensures (api applied) C R G Q past s) :
    (getManagedNetworkPolicy ns policy action >>= f).Ensures (api applied) C R G Q past s := by
  rw [getManagedNetworkPolicy_bind]
  intro s' hs choice hchoice
  refine ⟨hchange choice (.getNetworkPolicy ns policy.managedNetworkPolicyName) s' ⟨hns, rfl⟩
    trivial hchoice, ?_⟩
  cases hanswer : (api applied choice
      (.getNetworkPolicy ns policy.managedNetworkPolicyName) s').1 with
  | error e => trivial
  | ok found =>
    have hfound := serve_found applied hns hanswer
    cases found with
    | none => exact hf _ s' none hfound
    | some np =>
      by_cases howned : isManagedNetworkPolicyFor policy np = true
      · simp only [checked, howned, if_true]
        exact hf _ s' (some np) hfound
      · have hreport : (reportManagedPolicyCollision policy np action).Makes
            fun call : Call => call.Within policy ∧ call.Inspects :=
          publishPolicyEvent_makes (fun _ _ => ⟨trivial, trivial⟩) policy _ _ _ _ _
        simp only [checked, howned]
        refine (hreport.mapError _).ensures_bind_fail ?_ _
        exact fun choice call s hcall => hchange choice call s hcall.1 hcall.2

section Publication
variable (hsets : Apply.Sets applied) (hsound : r.Sound policy)
variable (h : r.Arranged policy told applied C R G)
include hsets hsound h

theorem patchStatus_ensures {outcome : ReconcileOutcome}
    (houtcome : outcome = .reconciled r.observed ∨ outcome = .noChange r.observed)
    (hheld : Holds policy r.cidrs s) :
    (patchStatusForOutcome K r.ns policy outcome).Ensures (api applied) C R G
      (fun _ _ s' => Declared K policy told r.cidrs s') past s := by
  have hstatus (now : Instant) : (statusCall K policy r now).Within policy := ⟨hsound.ns, rfl⟩
  have hpatch (past : List Calls.Event) (now : Instant) (s : Cluster)
      (hheld : Holds policy r.cidrs s) :
      (Program.call (I := Calls) (statusCall K policy r now) .ofExcept :
        Task KubeError Unit).Ensures (api applied) C R G
          (fun _ _ s' => Declared K policy told r.cidrs s') past s := by
    intro s' hs choice hchoice
    refine ⟨h.change _ _ _ (hstatus now) ⟨now, rfl⟩ hchoice, ?_⟩
    refine Program.ensures_ofExcept fun _ hok s'' hs' => ?_
    have hkept : Spares K policy told r.cidrs s'
        (serve applied choice (statusCall K policy r now) s').2 :=
      Call.Publishes.spares hsound hsets (hstatus now) ⟨now, rfl⟩ choice s'
    have hdeclared : Declared K policy told r.cidrs
        (serve applied choice (statusCall K policy r now) s').2 :=
      ⟨hkept.networkPolicy ((h.others s s' hs).networkPolicy hheld),
        fun _ => serve_statusCall hsound hok⟩
    exact hdeclared.spared (h.others _ _ hs')
  have hnow (s' : Cluster) (hs : R s s') : Holds policy r.cidrs s' :=
    (h.others s s' hs).networkPolicy hheld
  rcases houtcome with rfl | rfl
  · exact fun s' hs choice hchoice =>
      ⟨h.change choice .utcNow s' trivial trivial hchoice, hpatch _ _ _ (hnow s' hs)⟩
  · exact fun s' hs choice hchoice =>
      ⟨h.change choice .utcNow s' trivial trivial hchoice, hpatch _ _ _ (hnow s' hs)⟩

/-- Calls of a publication keep what it has put in place. -/
theorem publishes_ensures {ε α : Type} {p : Task ε α}
    (hp : p.Makes fun call : Call => call.Within policy ∧ call.Publishes r)
    (hs : Declared K policy told r.cidrs s) :
    p.Ensures (api applied) C R G (fun _ _ s' => Declared K policy told r.cidrs s') past s := by
  refine (hp.ensures (A := fun _ => True) (J := Declared K policy told r.cidrs) ?_ ?_ hs).mono
    fun _ _ _ h => h.1
  · intro choice call s hcall hchoice hs
    refine ⟨trivial, h.change choice call s hcall.1 hcall.2 hchoice, hs.spared ?_⟩
    exact Call.Publishes.spares hsound hsets hcall.1 hcall.2 choice s
  · exact fun s s' hs' hs => hs.spared (h.others s s' hs')

theorem conclude_ensures {outcome : ReconcileOutcome}
    (houtcome : outcome = .reconciled r.observed ∨ outcome = .noChange r.observed)
    (hheld : Holds policy r.cidrs s) :
    (conclude K policy r outcome).Ensures (api applied) C R G
      (fun _ _ s' => Declared K policy told r.cidrs s') past s := by
  refine ((patchStatus_ensures hsets hsound h houtcome hheld).mapError _).bind h.refl
    fun _ _ s hs => ?_
  have hevent : (publishOutcomeEvent policy (some r.rendered) outcome).Makes
      fun call : Call => call.Within policy ∧ call.Publishes r :=
    publishOutcomeEvent_makes (fun _ _ => ⟨trivial, trivial⟩) policy _ _
  refine publishes_ensures hsets hsound h ((hevent.mapError _).bind fun _ => ?_) hs
  exact ⟨⟨trivial, trivial⟩, fun now => (Program.makes_ofExcept _).bind fun _ => trivial⟩

/-- A publication that returns leaves its rendering under the managed name, and says so. -/
theorem publish_ensures :
    (publish K policy r).Ensures (api applied) C R G
      (fun _ _ s' => Declared K policy told r.cidrs s') past s := by
  have happly (past : List Calls.Event) (s : Cluster) :
      ((applyManagedNetworkPolicy r.ns r.rendered).mapError .kubernetesApi >>= fun _ =>
        conclude K policy r (.reconciled r.observed)).Ensures (api applied) C R G
          (fun _ _ s' => Declared K policy told r.cidrs s') past s := by
    have hwithin : (applyCall K policy r).Within policy :=
      ⟨hsound.ns, rfl, hsound.rendered_metadata⟩
    rw [hsound.apply_eq]
    intro s' hs choice hchoice
    refine ⟨h.change choice _ s' hwithin rfl hchoice, ?_⟩
    cases hanswer : (api applied choice (applyCall K policy r) s').1 with
    | error e => trivial
    | ok done =>
      exact conclude_ensures hsets hsound h (Or.inl rfl) (serve_applyCall hsound hsets hanswer)
  unfold publish
  refine checked_ensures hsound.ns
    (fun choice call s hwithin hinspects => h.change choice call s hwithin hinspects.publishes)
    fun past s found hfound => ?_
  by_cases hmatches : ∃ np, found = some np ∧ managedPolicyMatches np r.rendered
  · obtain ⟨np, rfl, hmatches⟩ := hmatches
    have houtcome : classifyOutcome (some np) r.rendered r.observed = .noChange r.observed :=
      if_pos hmatches
    simp only [houtcome, ReconcileOutcome.isReconciled]
    refine conclude_ensures hsets hsound h (Or.inr rfl) ⟨np, hfound.symm, ?_⟩
    rw [(managedPolicyMatches_iff.mp hmatches).1, hsound.rendered_eq]
    rfl
  · have houtcome : classifyOutcome found r.rendered r.observed = .reconciled r.observed := by
      cases found with
      | none => rfl
      | some np => exact if_neg fun h => hmatches ⟨np, rfl, h⟩
    simp only [houtcome, ReconcileOutcome.isReconciled]
    exact happly _ _

end Publication

section Cleanup

/-- A deletion that is acknowledged, or answered by the server with 404, leaves nothing behind. -/
theorem serve_delete {ns : String} (hns : policy.metadata.ns = some ns) {choice : Choice}
    (htruthful : choice.Truthful)
    (h : (serve applied choice (.deleteNetworkPolicy ns policy.managedNetworkPolicyName) s).1 =
        .ok () ∨
      ∃ text, (serve applied choice (.deleteNetworkPolicy ns policy.managedNetworkPolicyName) s).1 =
        .error (.api 404 text)) :
    (serve applied choice (.deleteNetworkPolicy ns policy.managedNetworkPolicyName) s).2.managed
      policy = none := by
  have hwithin : (Call.deleteNetworkPolicy ns policy.managedNetworkPolicyName).Within policy :=
    ⟨hns, rfl⟩
  rw [serve_managed applied hwithin]
  cases hstored : s.networkPolicies (ns, policy.managedNetworkPolicyName) with
  | none => simp [Cluster.managed_eq hns, hstored]
  | some np =>
    simp only [serve, hstored] at h
    refine if_pos ?_
    rcases h with hok | ⟨text, herror⟩
    · exact Delivery.arrives_of_receive hok
    · cases hdelivery : choice.delivery with
      | delivered => rfl
      | unacknowledged error => rfl
      | lost error =>
        simp only [Delivery.write, hdelivery, Delivery.receive, Except.error.injEq] at herror
        exact absurd herror (htruthful error (Or.inl hdelivery) text)

theorem Call.Retracts.absent {call : Call} (hwithin : call.Within policy) (h : call.Retracts)
    (choice : Choice) (hs : s.managed policy = none) :
    (serve applied choice call s).2.managed policy = none := by
  rw [serve_managed applied hwithin]
  cases call with
  | patchNetworkPolicy ns name params patch => exact h.elim
  | deleteNetworkPolicy ns name =>
    cases choice.delivery.arrives with
    | false => exact hs
    | true => rfl
  | _ => exact hs

section Retraction
variable (hothers : ∀ s s', R s s' → s.managed policy = none → s'.managed policy = none)
variable (hchange : ∀ choice call s, call.Within policy → call.Retracts → C call choice →
  G s (serve applied choice call s).2)
include hothers hchange

/-- Calls of a cleanup bring nothing back. -/
theorem retracts_ensures {ε α : Type} {p : Task ε α}
    (hp : p.Makes fun call : Call => call.Within policy ∧ call.Retracts)
    (hs : s.managed policy = none) :
    p.Ensures (api applied) C R G (fun _ _ s' => s'.managed policy = none) past s := by
  refine (hp.ensures (A := fun _ => True) (J := fun s => s.managed policy = none) ?_ hothers
    hs).mono fun _ _ _ h => h.1
  intro choice call s hcall hchoice hs
  exact ⟨trivial, hchange choice call s hcall.1 hcall.2 hchoice, hcall.2.absent hcall.1 choice hs⟩

/-- A cleanup that returns leaves no NetworkPolicy under the managed name. -/
theorem cleanup_ensures (htruthful : ∀ call choice, C call choice → choice.Truthful) :
    (cleanup policy >>= fun _ => pure Action.awaitChange).Ensures (api applied) C R G
      (fun _ _ s' => s'.managed policy = none) past s := by
  unfold cleanup
  cases hns : policy.metadata.ns with
  | none => trivial
  | some ns =>
    have hevent (deleted : Bool) (past : List Calls.Event) {s : Cluster}
        (hs : s.managed policy = none) :
        ((publishPolicyEvent policy .normal "CleanupManagedPolicy" "Cleanup"
          (cleanupEvent policy deleted).note none).mapError ReconcileError.kubernetesApi >>=
            fun _ => pure Action.awaitChange).Ensures (api applied) C R G
              (fun _ _ s' => s'.managed policy = none) past s := by
      refine retracts_ensures hothers hchange ?_ hs
      refine Program.Makes.bind (Program.Makes.mapError ?_ _) fun _ => trivial
      exact publishPolicyEvent_makes (fun _ _ => ⟨trivial, trivial⟩) policy _ _ _ _ _
    simp only [Option.elim_some, Program.ofExcept_ok, Program.ret_bind, bind_assoc]
    refine checked_ensures hns
      (fun choice call s hwithin hinspects => hchange choice call s hwithin hinspects.retracts)
      fun past s found hfound => ?_
    cases found with
    | none => exact hevent false _ hfound.symm
    | some np =>
      rw [Option.isSome_some, deleteManagedNetworkPolicy_bind]
      intro s' hs choice hchoice
      refine ⟨hchange choice (.deleteNetworkPolicy ns policy.managedNetworkPolicyName) s'
        ⟨hns, rfl⟩ trivial hchoice, ?_⟩
      cases hanswer : (api applied choice
          (.deleteNetworkPolicy ns policy.managedNetworkPolicyName) s').1 with
      | ok done => exact hevent true _ (serve_delete hns (htruthful _ _ hchoice) (Or.inl hanswer))
      | error e =>
        unfold deleted
        split
        · trivial
        · next text he =>
          obtain rfl := Except.error.inj he
          exact hevent false _ (serve_delete hns (htruthful _ _ hchoice) (Or.inr ⟨_, hanswer⟩))
        · trivial

end Retraction
end Cleanup

/-- A live reconcile that returns leaves what its policy declares for the CIDRs it has listed, if
the others leave it alone. -/
theorem reconcile_ensures (told : Prop) {A : Calls.Event → Prop} (hsets : Apply.Sets applied)
    (hlive : policy.metadata.deletionTimestamp = none) (hrefl : ∀ s, R s s)
    (hremote : ∀ choice (call : Call) s, call.IsRemote → C call choice →
      A ⟨call, (serve applied choice call s).1⟩ ∧ G s s)
    (harranged : ∀ r : Resolved K, r.Sound policy → ∀ log, Listed K policy log r.cidrs →
      (∀ e ∈ log, A e) → r.Arranged policy told applied C R G) (s : Cluster) :
    (reconcile K policy).Ensures (api applied) C R G
      (fun log _ s' => ∃ cidrs answers, answers <+: log ∧ (∀ e ∈ answers, A e) ∧
        Listed K policy answers cidrs ∧ Declared K policy told cidrs s') [] s := by
  have hresolve : (resolve K policy).Ensures (api applied) C R G
      (fun log r _ => (∀ e ∈ log, A e) ∧ Listed K policy log r.cidrs ∧ r.Sound policy) [] s := by
    refine ((resolve_remote policy).ensures (A := A) (J := fun _ => True) ?_ (fun _ _ _ => id)
      trivial).mono fun log r _ h => ?_
    · intro choice call s hcall hchoice _
      obtain ⟨hanswer, hkept⟩ := hremote choice call s hcall hchoice
      cases call with
      | httpGet url => exact ⟨hanswer, hkept, trivial⟩
      | _ => exact hcall.elim
    · obtain ⟨-, l, rfl, htrace, hanswers⟩ := h
      exact ⟨hanswers, resolve_listed htrace, htrace.yields (resolve_sound policy)⟩
  rw [reconcile_eq hlive]
  refine hresolve.bind hrefl fun answers r s' hr => ?_
  obtain ⟨hanswers, hlisted, hsound⟩ := hr
  have hpublish : (publish K policy r).Ensures (api applied) C R G
      (fun _ _ s' => Declared K policy told r.cidrs s') answers s' :=
    publish_ensures hsets hsound (harranged r hsound answers hlisted hanswers)
  refine hpublish.extends.mono fun log action s'' h => ?_
  exact ⟨r.cidrs, answers, h.2, hanswers, hlisted, h.1⟩

end Programs
end Ipmaze
