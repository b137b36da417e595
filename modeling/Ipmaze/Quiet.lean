import Ipmaze.Reconcile.Round

/-! The watch queue of the controller. Each write that really changes the CIDRPolicy or a
NetworkPolicy it owns enqueues a reconcile, the stamp of a successful round included. -/
namespace Ipmaze
open Effects

/-- An owner reference to the policy, as the watch of owned objects resolves it. -/
def NetworkPolicy.refersTo (policy : CIDRPolicy) (np : NetworkPolicy) : Bool :=
  (np.metadata.ownerReferences.getD []).any fun owner =>
    owner.apiVersion == CIDRPolicy.apiVersion && owner.kind == CIDRPolicy.kind &&
      some owner.name == policy.metadata.name

/-- Whether a call is an event for the policy, given the cluster before and after it. -/
def Call.triggers (policy : CIDRPolicy) (before after : Cluster) : Call → Bool
  | patchNetworkPolicy ns name _ _ | deleteNetworkPolicy ns name =>
    policy.metadata.ns == some ns &&
      before.networkPolicies (ns, name) != after.networkPolicies (ns, name) &&
      ((before.networkPolicies (ns, name)).any (NetworkPolicy.refersTo policy) ||
        (after.networkPolicies (ns, name)).any (NetworkPolicy.refersTo policy))
  | patchStatus ns name _ _ =>
    policy.metadata.ns == some ns && name == policy.nameAny &&
      before.policies (ns, name) != after.policies (ns, name)
  | _ => false

/-- The cluster, and whether a reconcile of the policy is queued. -/
structure Watched where
  cluster : Cluster
  pending : Bool

def watch (applied : Apply) (policy : CIDRPolicy) : Service Calls Choice Watched :=
  fun choice call s =>
    let served := serve applied choice call s.cluster
    (served.1, ⟨served.2, s.pending || call.triggers policy s.cluster served.2⟩)

/-- A round starts by taking the policy off the queue. -/
def dequeued (w : World Calls Choice Cluster) : World Calls Choice Watched where
  state := ⟨w.state, false⟩
  choices := w.choices
  log := w.log

/-- A reconcile that changes neither object, leaves the queue empty and asks to be called again
when the schedule fires next. -/
structure GoesQuiet (K : Crates) (applied : Apply) (policy : CIDRPolicy) (schedule : K.Schedule)
    (w : World Calls Choice Cluster) (now : Instant) : Prop where
  managed : ((reconcile K policy).run (watch applied policy) (dequeued w)).2.state.cluster.managed
    policy = w.state.managed policy
  stored : ((reconcile K policy).run (watch applied policy) (dequeued w)).2.state.cluster.stored
    policy = w.state.stored policy
  idle : ((reconcile K policy).run (watch applied policy) (dequeued w)).2.state.pending = false
  resync : ∃ next, ∃ after : Duration, K.nextAfter schedule now = some next ∧
    next = now + after ∧
      ((reconcile K policy).run (watch applied policy) (dequeued w)).1 = .ok (.requeue after)

/-- The managed NetworkPolicy equals the rendered one, and the status shows these CIDRs and no
error. -/
structure Settled (policy : CIDRPolicy) (rendered : NetworkPolicy) (observed : List String)
    (stamp : Option String) (s : Cluster) : Prop where
  managed : ∃ np, s.managed policy = some np ∧ managedPolicyMatches np rendered
  stored : ∃ stored, s.stored policy = some stored ∧ stored.status = some
    { lastSuccessfulResolutionTime := stamp
      lastObservedCidrs := observed
      lastReconciliationError := none }

theorem watch_refines (applied : Apply) (policy : CIDRPolicy) :
    (watch applied policy).Refines Watched.cluster (api applied) :=
  fun _ _ _ => ⟨rfl, rfl⟩

section Rounds
variable {K : Crates} {applied : Apply} {policy : CIDRPolicy} {r : Resolved K}
variable {w w₁ : World Calls Choice Cluster} {stamp : Option String}

theorem watched_run (applied : Apply) (policy : CIDRPolicy) (p : Task ReconcileError Action)
    (w : World Calls Choice Cluster) :
    p.run (api applied) w = ((p.run (watch applied policy) (dequeued w)).1,
      (p.run (watch applied policy) (dequeued w)).2.map Watched.cluster) :=
  Program.run_map (watch_refines applied policy) p (dequeued w)

/-- Of the calls of a settled round only the stamp of the status can be an event. -/
theorem pending_noChangeCalls (v : World Calls Choice Watched) (hidle : v.state.pending = false)
    (hdelivered : (v.choices 2).delivery = .delivered) (hns : policy.metadata.ns = some r.ns)
    {stored : CIDRPolicy} (hstored : v.state.cluster.policies (r.ns, policy.nameAny) = some stored)
    (now : Instant) :
    (v.afterAll (watch applied policy) (noChangeCalls K policy r now)).state.pending =
      (some stored != some (stored.withStatus (successStatus K r.observed now))) := by
  have hserve : (serve applied (v.choices 2) (statusCall K policy r now) v.state.cluster).2 =
      v.state.cluster.setPolicy (r.ns, policy.nameAny)
        (some (stored.withStatus (successStatus K r.observed now))) := by
    simp only [serve, statusCall, hstored, hdelivered, Delivery.write, Delivery.arrives, if_true]
  have hpending : (v.afterAll (watch applied policy) (noChangeCalls K policy r now)).state.pending =
      (v.state.pending || false || false || (statusCall K policy r now).triggers policy
        v.state.cluster (serve applied (v.choices 2) (statusCall K policy r now)
          v.state.cluster).2 || false) := rfl
  rw [hpending, hserve, hidle]
  simp [Call.triggers, statusCall, hns, hstored]

theorem pending_noChange (h : CleanRound K applied policy r w w₁)
    (hrun : (reconcile K policy).run (api applied) w =
      (requeueAt K r.validated.resyncSchedule (w₁.choices 3).now,
        w₁.afterAll (api applied) (noChangeCalls K policy r (w₁.choices 1).now)))
    {stored : CIDRPolicy} (hstored : w.state.stored policy = some stored) :
    ((reconcile K policy).run (watch applied policy) (dequeued w)).2.state.pending =
      (some stored != some (stored.withStatus (successStatus K r.observed (w₁.choices 1).now))) := by
  have hsame : (dequeued w).map Watched.cluster = w := rfl
  have hcalls := Program.calls_map (watch_refines applied policy) (reconcile K policy) (dequeued w)
  have hremote := Program.calls_map (watch_refines applied policy)
    (retrieve K policy r.validated) (dequeued w)
  have hretrieved := Program.run_map (watch_refines applied policy)
    (retrieve K policy r.validated) (dequeued w)
  rw [hsame] at hcalls hremote hretrieved
  rw [h.calls_eq hrun, hremote] at hcalls
  rw [h.retrieved, Prod.mk.injEq] at hretrieved
  have hidle : ((retrieve K policy r.validated).run (watch applied policy)
      (dequeued w)).2.state = ⟨w.state, false⟩ := by
    refine Program.run_preserves (watch applied policy) (J := fun s => s = ⟨w.state, false⟩)
      (retrieve_remote policy r.validated) ?_ (dequeued w) rfl
    rintro choice call s hcall rfl
    cases call with
    | httpGet url => rfl
    | _ => exact hcall.elim
  rw [Program.run_eq_afterAll] at hretrieved hidle
  have hchoices : ((dequeued w).afterAll (watch applied policy) _).choices = w₁.choices :=
    congrArg World.choices hretrieved.2.symm
  rw [Program.run_eq_afterAll, ← hcalls, World.afterAll_append]
  refine pending_noChangeCalls _ (by rw [hidle]) ?_ h.ns ?_ _
  · rw [hchoices]
    exact h.delivered_after 2
  · rw [hidle, ← h.stored_eq]
    exact hstored

theorem withStatus_eq_self {stored : CIDRPolicy} {status : CIDRPolicyStatus} :
    stored.withStatus status = stored ↔ stored.status = some status := by
  obtain ⟨metadata, spec, current⟩ := stored
  simp [CIDRPolicy.withStatus, eq_comm]

/-- The stamp of a settled round changes the status unless it prints as the stored one. -/
theorem Settled.stamped_iff {rendered : NetworkPolicy} {observed : List String} {s : Cluster}
    {stored : CIDRPolicy} {now : Instant}
    (hsettled : Settled policy rendered observed stamp s) (hstored : s.stored policy = some stored) :
    stored.withStatus (successStatus K observed now) = stored ↔ stamp = some (K.rfc3339 now) := by
  obtain ⟨stored', hstored', hstatus⟩ := hsettled.stored
  cases hstored.symm.trans hstored'
  rw [withStatus_eq_self, hstatus, Option.some_inj, successStatus, CIDRPolicyStatus.mk.injEq]
  exact and_iff_left ⟨rfl, rfl⟩

theorem Settled.run (hsettled : Settled policy r.rendered r.observed stamp w.state)
    (hpersisted : policy.Persisted) (h : CleanRound K applied policy r w w₁) :
    (reconcile K policy).run (api applied) w =
      (requeueAt K r.validated.resyncSchedule (w₁.choices 3).now,
        w₁.afterAll (api applied) (noChangeCalls K policy r (w₁.choices 1).now)) := by
  obtain ⟨np, hnp, hmatches⟩ := hsettled.managed
  obtain ⟨stored, hstored, -⟩ := hsettled.stored
  have howned := (NetworkPolicy.Carries.of_matches hmatches).isManaged hpersisted
    (renderedMetadata_of_build h.ns h.rendered)
  exact h.run_noChange hnp howned hmatches (Option.isSome_of_eq_some hstored)

theorem requeueAt_next_iff {schedule : K.Schedule} {now : Instant} :
    (∃ next, ∃ after : Duration, K.nextAfter schedule now = some next ∧ next = now + after ∧
      requeueAt K schedule now = .ok (.requeue after)) ↔
    ∃ next, K.nextAfter schedule now = some next ∧ now < next := by
  constructor
  · rintro ⟨next, after, hnext, hdue, hrequeue⟩
    refine ⟨next, hnext, ?_⟩
    rcases lt_trichotomy now next with hlt | heq | hlt
    · exact hlt
    · subst heq
      have hzero : after = 0 := Int.natCast_eq_zero.mp (add_eq_left.mp hdue.symm)
      simp [requeueAt, nextResyncAfter, hnext, Except.mapError, Except.map, hzero] at hrequeue
    · simp [requeueAt, nextResyncAfter, hnext, hlt, Except.mapError, Except.map] at hrequeue
  · rintro ⟨next, hnext, hlt⟩
    refine ⟨next, (next - now).toNat, hnext, ?_, requeueAt_eq hnext hlt⟩
    have hpos : (0 : ℤ) ≤ next - now := sub_nonneg_of_le hlt.le
    rw [Int.toNat_of_nonneg hpos]
    exact (add_sub_cancel now next).symm

/-- Successive clean rounds with the same CIDRs: for each, the instant of its stamp and whether
it put the policy back on the queue. -/
inductive Rounds (K : Crates) (applied : Apply) (policy : CIDRPolicy) (r : Resolved K) :
    Cluster → List (Instant × Bool) → Cluster → Prop
  | nil (s) : Rounds K applied policy r s [] s
  | cons {w w₁ log s'} (round : CleanRound K applied policy r w w₁)
      (tail : Rounds K applied policy r ((reconcile K policy).run (api applied) w).2.state log s') :
      Rounds K applied policy r w.state
        (((w₁.choices 1).now,
          ((reconcile K policy).run (watch applied policy) (dequeued w)).2.state.pending) :: log) s'

/-- Each round is followed by another one exactly if its stamp differs from the one before. -/
def Echoes (K : Crates) : Option String → List (Instant × Bool) → Prop
  | _, [] => True
  | stamp, (now, pending) :: log =>
    (pending ↔ stamp ≠ some (K.rfc3339 now)) ∧ Echoes K (some (K.rfc3339 now)) log

theorem Settled.after_round (h : CleanRound K applied policy r w w₁) (hpersisted : policy.Persisted)
    (hsettled : Settled policy r.rendered r.observed stamp w.state) :
    Settled policy r.rendered r.observed (some (K.rfc3339 (w₁.choices 1).now))
      ((reconcile K policy).run (api applied) w).2.state := by
  obtain ⟨np, hnp, hmatches⟩ := hsettled.managed
  obtain ⟨stored, hstored, -⟩ := hsettled.stored
  obtain ⟨hmanaged, hstatus⟩ := h.after_noChange hstored (w₁.choices 1).now
  rw [hsettled.run hpersisted h]
  exact ⟨⟨np, hmanaged.trans hnp, hmatches⟩, _, hstatus, rfl⟩

/-- A settled policy is reconciled over and over for as long as the clock moves on between the
stamps: the rounds feed the queue they are taken from. -/
theorem Rounds.echoes (hpersisted : policy.Persisted) {s s' : Cluster} {log : List (Instant × Bool)}
    (hrounds : Rounds K applied policy r s log s')
    (hsettled : Settled policy r.rendered r.observed stamp s) : Echoes K stamp log := by
  induction hrounds generalizing stamp with
  | nil s => trivial
  | @cons w w₁ log s' round tail ih =>
    obtain ⟨stored, hstored, -⟩ := hsettled.stored
    refine ⟨?_, ih (hsettled.after_round round hpersisted)⟩
    rw [pending_noChange round (hsettled.run hpersisted round) hstored, bne_iff_ne, ne_eq,
      Option.some_inj]
    exact not_congr (eq_comm.trans (hsettled.stamped_iff hstored))

/-- From a settled state a clean round goes quiet exactly if the instant of its stamp prints as
the stored one does, and the schedule fires later than the instant the round ends at. Of any clean
rounds from there, each is followed by another one exactly if its stamp prints anew. -/
theorem goesQuiet_iff (h : CleanRound K applied policy r w w₁) (hpersisted : policy.Persisted)
    (hsettled : Settled policy r.rendered r.observed stamp w.state) :
    (GoesQuiet K applied policy r.validated.resyncSchedule w (w₁.choices 3).now ↔
      stamp = some (K.rfc3339 (w₁.choices 1).now) ∧
        ∃ next, K.nextAfter r.validated.resyncSchedule (w₁.choices 3).now = some next ∧
          (w₁.choices 3).now < next) ∧
      ∀ s' log, Rounds K applied policy r w.state log s' → Echoes K stamp log := by
  refine ⟨?_, fun s' log hrounds => hrounds.echoes hpersisted hsettled⟩
  obtain ⟨stored, hstored, -⟩ := hsettled.stored
  have hrun := hsettled.run hpersisted h
  have hpending := pending_noChange h hrun hstored
  obtain ⟨hmanaged, hstatus⟩ := h.after_noChange hstored (w₁.choices 1).now
  have hwatched := watched_run applied policy (reconcile K policy) w
  rw [hrun, Prod.mk.injEq] at hwatched
  rw [hwatched.2] at hmanaged hstatus
  rw [← requeueAt_next_iff, hwatched.1, ← hsettled.stamped_iff hstored]
  constructor
  · intro hquiet
    have hidle := hquiet.idle
    rw [hpending, bne_eq_false_iff_eq, Option.some_inj] at hidle
    exact ⟨hidle.symm, hquiet.resync⟩
  · rintro ⟨hsame, hresync⟩
    refine ⟨hmanaged, ?_, ?_, hresync⟩
    · rw [hstored, ← hsame]
      exact hstatus
    · rw [hpending, bne_eq_false_iff_eq, hsame]

end Rounds

namespace Sample

/-- The sample policy with the status of a success at this instant. -/
def stamped (now : Instant) : CIDRPolicy :=
  policyWith [rule] (some (successStatus crates ["10.0.0.0/24"] now))

def settledCluster (now : Instant) : Cluster :=
  cluster (stamped now) (some (policy.rendered "payments" [cidr]))

theorem settledCluster_settled (now : Instant) : Settled (stamped now) (resolved [rule]).rendered
    (resolved [rule]).observed (some (rfc3339 now)) (settledCluster now) :=
  ⟨⟨_, rfl, by decide⟩, _, rfl, rfl⟩

end Sample

open Sample in
/-- A round that stamps the time that is stored goes quiet, and one a minute later does not. -/
theorem settled_goesQuiet :
    GoesQuiet crates replace (stamped 43200123456789) Schedule.daily
        (worldAt (settledCluster 43200123456789) 43200123456789) 43200123456789 ∧
      Echoes crates (some "1970-01-01T12:00:00.123456789+00:00")
        [(43200123456789, false), (43260123456789, true)] := by
  have hround (now : Instant) (s : Cluster) :=
    cleanRound replace [rule] (stamped 43200123456789).status (by rfl) s now
  have hrounds : ∃ s', Rounds crates replace (stamped 43200123456789) (resolved [rule])
      (settledCluster 43200123456789) [(43200123456789, false), (43260123456789, true)] s' :=
    ⟨_, .cons (hround 43200123456789 _) (.cons (hround 43260123456789 _) (.nil _))⟩
  obtain ⟨s', hrounds⟩ := hrounds
  obtain ⟨hquiet, hechoes⟩ := goesQuiet_iff (hround 43200123456789 _) (persisted _ _)
    (settledCluster_settled 43200123456789)
  exact ⟨hquiet.mpr ⟨by decide, day, by decide, by decide⟩, hechoes s' _ hrounds⟩

open Sample in
/-- A minute after the last success the round stamps a new time and queues the next one, and the
next one a minute later does the same. -/
theorem settled_not_goesQuiet :
    Settled (stamped 0) (resolved [rule]).rendered (resolved [rule]).observed
        (some "1970-01-01T00:00:00+00:00") (settledCluster 0) ∧
      (∃ s', Rounds crates replace (stamped 0) (resolved [rule]) (settledCluster 0)
        [(60000000000, true), (120000000000, true)] s') ∧
      ¬ GoesQuiet crates replace (stamped 0) Schedule.daily
        (worldAt (settledCluster 0) 60000000000) 60000000000 := by
  have hround (now : Instant) (s : Cluster) :=
    cleanRound replace [rule] (stamped 0).status (by rfl) s now
  have hpending : ((reconcile crates (stamped 0)).run (watch replace (stamped 0))
      (dequeued (worldAt (settledCluster 0) 60000000000))).2.state.pending = true := by decide
  refine ⟨settledCluster_settled 0, ?_, fun hquiet => ?_⟩
  · exact ⟨_, .cons (hround 60000000000 _) (.cons (hround 120000000000 _) (.nil _))⟩
  · have hidle := hquiet.idle
    rw [hpending] at hidle
    cases hidle

end Ipmaze
