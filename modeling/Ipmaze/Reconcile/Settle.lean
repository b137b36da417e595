import Ipmaze.Reconcile.Listing
import Ipmaze.Reconcile.Publication

/-! A reconcile up to its last step, the computation of the requeue, and what the policy, the stored
objects and the answers have to be like for it to get there. -/
namespace Ipmaze
open Effects Checked

section Programs
variable (K : Crates) (policy : CIDRPolicy)

/-- The writes of a reconcile that has found this under the managed name. -/
def record (r : Resolved K) (existing : Option NetworkPolicy) :
    Task ReconcileError (Resolved K) := do
  let outcome := classifyOutcome existing r.rendered r.observed
  (if outcome.isReconciled then
    (applyManagedNetworkPolicy r.ns r.rendered).mapError .kubernetesApi else .ret ())
  (patchStatusForOutcome K r.ns policy outcome).mapError .kubernetesApi
  (publishOutcomeEvent policy (some r.rendered) outcome).mapError .kubernetesApi
  return r

/-- The reconcile of a live policy up to its last step, the computation of the requeue. -/
def settle : Task ReconcileError (Resolved K) := do
  let r ← resolve K policy
  let existing ← getManagedNetworkPolicy r.ns policy "Reconcile"
  record K policy r existing

end Programs

section Conditions
variable (K : Crates) (policy : CIDRPolicy) (w : World Calls Choice Cluster)

/-- The remote endpoints answer the first requests like this. -/
def Answered (exchanges : List Exchange) : Prop :=
  exchanges.map Prod.snd = (List.range exchanges.length).map fun n => (w.choices n).http

/-- The managed NetworkPolicy is as it is rendered. -/
def upToDate (rendered : NetworkPolicy) : Bool :=
  (w.state.managed policy).any (managedPolicyMatches · rendered)

/-- The places of the API calls among the calls of a publication. The others are clock readings. -/
def apiPlaces (upToDate : Bool) : List ℕ := if upToDate then [0, 2] else [0, 1, 3, 4]

/-- The place of the last clock reading of a publication. -/
def lastReading (upToDate : Bool) : ℕ := if upToDate then 3 else 5

/-- The policy is valid, its source lists CIDRs, its managed name is free or its own, it is stored,
and every API call is delivered up to the last clock reading. -/
structure Unhindered (validated : ValidatedPolicy K) (exchanges : List Exchange)
    (rendered : NetworkPolicy) : Prop where
  valid : validatePolicy K policy = .ok validated
  answered : Answered w exchanges
  lists : ∃ cidrs, SourceLists K policy validated exchanges cidrs ∧
    buildManagedNetworkPolicy policy cidrs = .ok rendered
  owned : ∀ np ∈ w.state.managed policy, isManagedNetworkPolicyFor policy np
  stored : (w.state.stored policy).isSome
  delivered : ∀ n ∈ apiPlaces (upToDate policy w rendered),
    (w.choices (exchanges.length + n)).delivery = .delivered

end Conditions

section Runs
variable {K : Crates} {policy : CIDRPolicy} {applied : Apply} {w w' : World Calls Choice Cluster}
variable {validated : ValidatedPolicy K} {r : Resolved K}

theorem gives_iff_answered {exchanges : List Exchange} :
    w.Gives (api applied) (exchanges.map Exchange.event) ↔ Answered w exchanges := by
  induction exchanges generalizing w with
  | nil => simp [Answered, World.Gives]
  | cons e exchanges ih =>
    simp only [List.map_cons, World.Gives, Exchange.event, Answered, List.length_cons,
      List.range_succ_eq_map, List.map_map, List.cons.injEq, eq_comm (a := e.2)]
    exact and_congr_right' ih

theorem run_retrieve_iff {cidrs : List NormalizedCidr} :
    (retrieve K policy validated).run (api applied) w = (.ok cidrs, w') ↔
      ∃ exchanges, SourceLists K policy validated exchanges cidrs ∧ Answered w exchanges ∧
        w' = w.afterAll (api applied) (exchanges.map fun e => .httpGet e.1) := by
  simp only [Program.run_ok_iff, retrieve_trace_iff]
  constructor
  · rintro ⟨_, ⟨exchanges, rfl, hlists⟩, hgives, rfl⟩
    refine ⟨exchanges, hlists, gives_iff_answered.mp hgives, ?_⟩
    rw [List.map_map]
    rfl
  · rintro ⟨exchanges, hlists, hanswered, rfl⟩
    refine ⟨_, ⟨exchanges, rfl, hlists⟩, gives_iff_answered.mpr hanswered, ?_⟩
    rw [List.map_map]
    rfl

theorem run_resolve_iff :
    (resolve K policy).run (api applied) w = (.ok r, w') ↔
      validatePolicy K policy = .ok r.validated ∧
      (retrieve K policy r.validated).run (api applied) w = (.ok r.cidrs, w') ∧
      buildManagedNetworkPolicy policy r.cidrs = .ok r.rendered ∧
      policy.metadata.ns = some r.ns := by
  have hns (ns : String) : (policy.metadata.ns.elim (.error (.render .missingNamespace)) .ok :
      Except ReconcileError String) = .ok ns ↔ policy.metadata.ns = some ns := by
    cases policy.metadata.ns <;> simp
  simp only [resolve, Program.run_bind_ok_iff, Program.run_ofExcept, Prod.mk.injEq, mapError_ok_iff,
    hns]
  constructor
  · rintro ⟨validated, _, ⟨hvalid, rfl⟩, cidrs, _, hretrieve, rendered, _, ⟨hrendered, rfl⟩, ns, _,
      ⟨hns, rfl⟩, h⟩
    cases h
    exact ⟨hvalid, hretrieve, hrendered, hns⟩
  · rintro ⟨hvalid, hretrieve, hrendered, hns⟩
    exact ⟨_, _, ⟨hvalid, rfl⟩, _, _, hretrieve, _, _, ⟨hrendered, rfl⟩, _, _, ⟨hns, rfl⟩, rfl⟩

theorem classifyOutcome_of_any {existing : Option NetworkPolicy} {desired : NetworkPolicy}
    (h : existing.any (managedPolicyMatches · desired)) (observed : List String) :
    classifyOutcome existing desired observed = .noChange observed := by
  cases existing with
  | none => cases h
  | some np => exact if_pos h

theorem classifyOutcome_of_not_any {existing : Option NetworkPolicy} {desired : NetworkPolicy}
    (h : existing.any (managedPolicyMatches · desired) = false) (observed : List String) :
    classifyOutcome existing desired observed = .reconciled observed := by
  cases existing with
  | none => rfl
  | some np => exact if_neg (Bool.not_eq_true _ ▸ h)

section Record
variable {existing : Option NetworkPolicy} {r' : Resolved K}

theorem run_record_noChange_iff (h : existing.any (managedPolicyMatches · r.rendered)) :
    (record K policy r existing).run (api applied) w = (.ok r', w') ↔
      (w.choices 1).delivery = .delivered ∧
      (w.state.policies (r.ns, policy.nameAny)).isSome ∧ r' = r ∧
      w' = w.afterAll (api applied) [.utcNow, statusCall K policy r (w.choices 0).now] := by
  simp only [record, classifyOutcome_of_any h]
  constructor
  · intro h
    obtain ⟨_, w₁, h₁, h⟩ := (Program.run_bind_ok_iff _).mp h
    cases h₁
    obtain ⟨_, w₂, h₂, h⟩ := (Program.run_bind_ok_iff _).mp h
    rw [Program.run_mapError_ok_iff, run_patchStatusForOutcome_iff applied (Or.inr rfl)] at h₂
    obtain ⟨hdelivered, hstored, rfl⟩ := h₂
    cases h
    exact ⟨hdelivered, hstored, rfl, rfl⟩
  · rintro ⟨hdelivered, hstored, rfl, rfl⟩
    have hstatus := (run_patchStatusForOutcome_iff applied (K := K) (Or.inr rfl)).mpr
      ⟨hdelivered, hstored, rfl⟩
    exact Program.run_bind_ok _ (Program.run_mapError_ok _ hstatus _)

theorem run_record_reconciled_iff (h : existing.any (managedPolicyMatches · r.rendered) = false)
    (hname : r.rendered.metadata.name = some policy.managedNetworkPolicyName) :
    (record K policy r existing).run (api applied) w = (.ok r', w') ↔
      (w.choices 0).delivery = .delivered ∧ (w.choices 2).delivery = .delivered ∧
      (w.choices 3).delivery = .delivered ∧
      (w.state.policies (r.ns, policy.nameAny)).isSome ∧ r' = r ∧
      w' = w.afterAll (api applied) [applyCall K policy r, .utcNow,
        statusCall K policy r (w.choices 1).now,
        .publishEvent (reconciledEvent K r) policy.objectRef] := by
  simp only [record, classifyOutcome_of_not_any h]
  constructor
  · intro h
    obtain ⟨_, w₁, h₁, h⟩ := (Program.run_bind_ok_iff _).mp h
    rw [ReconcileOutcome.isReconciled, if_pos rfl, Program.run_mapError_ok_iff,
      run_applyManagedNetworkPolicy_iff applied hname] at h₁
    obtain ⟨happly, rfl⟩ := h₁
    obtain ⟨_, w₂, h₂, h⟩ := (Program.run_bind_ok_iff _).mp h
    rw [Program.run_mapError_ok_iff, run_patchStatusForOutcome_iff applied (Or.inl rfl)] at h₂
    obtain ⟨hstatus, hstored, rfl⟩ := h₂
    obtain ⟨_, w₃, h₃, h⟩ := (Program.run_bind_ok_iff _).mp h
    rw [Program.run_mapError_ok_iff, run_publishOutcomeEvent_iff] at h₃
    obtain ⟨hevent, rfl⟩ := h₃
    cases h
    refine ⟨happly, hstatus, hevent, ?_, rfl, rfl⟩
    rwa [World.after_state, api, serve_applyCall_policies] at hstored
  · rintro ⟨happly, hstatus, hevent, hstored, rfl, rfl⟩
    rw [← serve_applyCall_policies applied (K := K) (r := r') (w.choices 0)] at hstored
    have happlied := (run_applyManagedNetworkPolicy_iff applied hname).mpr ⟨happly, rfl⟩
    have hstamped : (patchStatusForOutcome K r'.ns policy (.reconciled r'.observed)).run
        (api applied) (w.after (api applied) (applyCall K policy r')) = (.ok (), _) :=
      (run_patchStatusForOutcome_iff applied (Or.inl rfl)).mpr ⟨hstatus, hstored, rfl⟩
    have hannounced (w₁ : World Calls Choice Cluster) (h : w₁.choices 0 = w.choices 3) :
        (publishOutcomeEvent policy (some r'.rendered) (.reconciled r'.observed)).run
          (api applied) w₁ = (.ok (), _) :=
      (run_publishOutcomeEvent_iff applied).mpr ⟨h ▸ hevent, rfl⟩
    refine (Program.run_bind_ok _ (Program.run_mapError_ok _ happlied _)).trans ?_
    refine (Program.run_bind_ok _ (Program.run_mapError_ok _ hstamped _)).trans ?_
    exact Program.run_bind_ok _ (Program.run_mapError_ok _ (hannounced _ rfl) _)

end Record

theorem buildManagedNetworkPolicy_ns {cidrs : List NormalizedCidr} {rendered : NetworkPolicy}
    (h : buildManagedNetworkPolicy policy cidrs = .ok rendered) :
    ∃ ns, policy.metadata.ns = some ns ∧ rendered.metadata = policy.renderedMetadata ns := by
  cases hns : policy.metadata.ns with
  | none =>
    rw [buildManagedNetworkPolicy, hns] at h
    cases h
  | some ns => exact ⟨ns, rfl, renderedMetadata_of_build hns h⟩

variable (K policy r w) in
/-- The calls of a publication up to its last clock reading. -/
def settleCalls (upToDate : Bool) : List Call :=
  if upToDate then
    [.getNetworkPolicy r.ns policy.managedNetworkPolicyName, .utcNow,
      statusCall K policy r (w.choices 1).now]
  else
    [.getNetworkPolicy r.ns policy.managedNetworkPolicyName, applyCall K policy r, .utcNow,
      statusCall K policy r (w.choices 2).now,
      .publishEvent (reconciledEvent K r) policy.objectRef]

theorem settleCalls_length (upToDate : Bool) :
    (settleCalls K policy w r upToDate).length = lastReading upToDate := by
  cases upToDate <;> rfl

/-- A publication gets to its last clock reading if the managed name is free or its own, the policy
is stored and the API calls are delivered. -/
theorem run_published_iff {r' : Resolved K} (hns : policy.metadata.ns = some r.ns)
    (hname : r.rendered.metadata.name = some policy.managedNetworkPolicyName) :
    (getManagedNetworkPolicy r.ns policy "Reconcile" >>= record K policy r).run (api applied) w =
        (.ok r', w') ↔
      (∀ n ∈ apiPlaces (upToDate policy w r.rendered), (w.choices n).delivery = .delivered) ∧
      (∀ np ∈ w.state.managed policy, isManagedNetworkPolicyFor policy np) ∧
      (w.state.stored policy).isSome ∧ r' = r ∧
      w' = w.afterAll (api applied)
        (settleCalls K policy w r (upToDate policy w r.rendered)) := by
  simp only [Program.run_bind_ok_iff, run_getManagedNetworkPolicy_iff, Cluster.managed_eq hns,
    Cluster.stored_eq hns, upToDate]
  cases hmatches : (w.state.networkPolicies (r.ns, policy.managedNetworkPolicyName)).any
      (managedPolicyMatches · r.rendered) with
  | true =>
    constructor
    · rintro ⟨existing, w₁, ⟨hget, rfl, howned, rfl⟩, h⟩
      obtain ⟨hstatus, hstored, rfl, rfl⟩ := (run_record_noChange_iff hmatches).mp h
      exact ⟨by simpa [apiPlaces] using ⟨hget, hstatus⟩, howned, hstored, rfl, rfl⟩
    · rintro ⟨hdelivered, howned, hstored, rfl, rfl⟩
      refine ⟨_, _, ⟨hdelivered 0 (by decide), rfl, howned, rfl⟩, ?_⟩
      exact (run_record_noChange_iff hmatches).mpr
        ⟨hdelivered 2 (by decide), hstored, rfl, rfl⟩
  | false =>
    constructor
    · rintro ⟨existing, w₁, ⟨hget, rfl, howned, rfl⟩, h⟩
      obtain ⟨happly, hstatus, hevent, hstored, rfl, rfl⟩ :=
        (run_record_reconciled_iff hmatches hname).mp h
      exact ⟨by simpa [apiPlaces] using ⟨hget, happly, hstatus, hevent⟩, howned, hstored, rfl, rfl⟩
    · rintro ⟨hdelivered, howned, hstored, rfl, rfl⟩
      refine ⟨_, _, ⟨hdelivered 0 (by decide), rfl, howned, rfl⟩, ?_⟩
      exact (run_record_reconciled_iff hmatches hname).mpr ⟨hdelivered 1 (by decide),
        hdelivered 3 (by decide), hdelivered 4 (by decide), hstored, rfl, rfl⟩

/-- Remote requests leave the cluster as it is. -/
theorem afterAll_exchanges_state (applied : Apply) (w : World Calls Choice Cluster)
    (exchanges : List Exchange) :
    (w.afterAll (api applied) (exchanges.map fun e => Call.httpGet e.1)).state = w.state := by
  induction exchanges generalizing w with
  | nil => rfl
  | cons e exchanges ih => exact ih _

theorem afterAll_exchanges_choices (applied : Apply) (w : World Calls Choice Cluster)
    (exchanges : List Exchange) (n : ℕ) :
    (w.afterAll (api applied) (exchanges.map fun e => Call.httpGet e.1)).choices n =
      w.choices (exchanges.length + n) := by
  rw [World.afterAll_choices, List.length_map, Nat.add_comm]

section Worlds
variable {exchanges : List Exchange} {rendered : NetworkPolicy}

theorem upToDate_congr (h : w'.state = w.state) :
    upToDate policy w' rendered = upToDate policy w rendered := by
  rw [upToDate, upToDate, h]

/-- A reconcile that is not hindered gets to its last step. -/
theorem Unhindered.run_settle (applied : Apply)
    (h : Unhindered K policy w validated exchanges rendered) :
    ∃ r w', (settle K policy).run (api applied) w = (.ok r, w') ∧ r.validated = validated ∧
      w'.choices 0 =
        w.choices (exchanges.length + lastReading (upToDate policy w rendered)) := by
  obtain ⟨cidrs, hlists, hrendered⟩ := h.lists
  obtain ⟨ns, hns, hmeta⟩ := buildManagedNetworkPolicy_ns hrendered
  let r : Resolved K := ⟨validated, cidrs, rendered, ns⟩
  have hresolve : (resolve K policy).run (api applied) w = (.ok r, _) := run_resolve_iff.mpr
    ⟨h.valid, run_retrieve_iff.mpr ⟨exchanges, hlists, h.answered, rfl⟩, hrendered, hns⟩
  have hstate := afterAll_exchanges_state applied w exchanges
  have hchoices := afterAll_exchanges_choices applied w exchanges
  generalize w.afterAll (api applied) _ = w₁ at hresolve hstate hchoices
  have hpublished : (getManagedNetworkPolicy ns policy "Reconcile" >>= record K policy r).run
      (api applied) w₁ = (.ok r, w₁.afterAll (api applied)
        (settleCalls K policy w₁ r (upToDate policy w₁ rendered))) := by
    have hname : r.rendered.metadata.name = some policy.managedNetworkPolicyName := by
      change rendered.metadata.name = _
      rw [hmeta]
      rfl
    refine (run_published_iff (r := r) hns hname).mpr ⟨fun n hn => ?_, ?_, ?_, rfl, rfl⟩
    · rw [upToDate_congr hstate] at hn
      rw [hchoices]
      exact h.delivered n hn
    · exact hstate ▸ h.owned
    · exact hstate ▸ h.stored
  refine ⟨r, _, (Program.run_bind_ok _ hresolve).trans hpublished, rfl, ?_⟩
  rw [World.afterAll_choices, settleCalls_length, hchoices, upToDate_congr hstate, Nat.zero_add]

/-- A reconcile that gets to its last step was not hindered. -/
theorem unhindered_of_run (applied : Apply)
    (h : (settle K policy).run (api applied) w = (.ok r, w')) :
    ∃ exchanges, Unhindered K policy w r.validated exchanges r.rendered ∧
      w'.choices 0 =
        w.choices (exchanges.length + lastReading (upToDate policy w r.rendered)) := by
  obtain ⟨r', w₁, hresolve, h⟩ := (Program.run_bind_ok_iff _).mp h
  obtain ⟨hvalid, hretrieve, hrendered, hns⟩ := run_resolve_iff.mp hresolve
  obtain ⟨exchanges, hlists, hanswered, rfl⟩ := run_retrieve_iff.mp hretrieve
  obtain ⟨ns, -, hmeta⟩ := buildManagedNetworkPolicy_ns hrendered
  have hstate := afterAll_exchanges_state applied w exchanges
  have hchoices := afterAll_exchanges_choices applied w exchanges
  generalize w.afterAll (api applied) _ = w₁ at h hstate hchoices
  obtain ⟨hdelivered, howned, hstored, rfl, rfl⟩ :=
    (run_published_iff hns (by rw [hmeta]; rfl)).mp h
  rw [upToDate_congr hstate] at hdelivered
  rw [hstate] at howned hstored
  refine ⟨exchanges, ⟨hvalid, hanswered, ⟨_, hlists, hrendered⟩, howned, hstored, ?_⟩, ?_⟩
  · intro n hn
    rw [← hdelivered n hn, hchoices]
  · rw [World.afterAll_choices, settleCalls_length, hchoices, upToDate_congr hstate, Nat.zero_add]

end Worlds
end Runs
end Ipmaze
