import Ipmaze.Effects.Turning
import Ipmaze.Reconcile.Writes
import Ipmaze.Sample

/-! What becomes of a run that finds somebody else's NetworkPolicy under the managed name. -/
namespace Ipmaze
open Effects

/-- The managed name is read, and what is stored there is not owned by the policy. -/
def FindsForeign (policy : CIDRPolicy) : Calls.Event → Prop
  | ⟨.getNetworkPolicy _ _, answer⟩ =>
    ∃ np, answer = .ok (some np) ∧ isManagedNetworkPolicyFor policy np = false
  | _ => False

/-- Every event was published. -/
def Published (log : List Calls.Event) : Prop :=
  ∀ event reference answer, ⟨.publishEvent event reference, answer⟩ ∈ log →
    (answer : Except KubeError Unit) = .ok ()

section Paths
variable {α : Type} {policy : CIDRPolicy} {ns : String}

/-- All that is left to do is to report the collision. -/
def Colliding (policy : CIDRPolicy) (p : Task ReconcileError α) : Prop :=
  ∃ np action, p = do
    (reportManagedPolicyCollision policy np action).mapError .kubernetesApi
    .fail (.managedPolicyCollision policy.managedNetworkPolicyName)

def Call.Reads : Call → Prop
  | getNetworkPolicy _ _ => True
  | _ => False

theorem findsForeign_reads {call : Call} {answer : call.Answer}
    (h : FindsForeign policy ⟨call, answer⟩) : call.Reads := by
  cases call with
  | getNetworkPolicy ns name => trivial
  | _ => exact h.elim

theorem avoids_findsForeign {p : Task ReconcileError α}
    (h : p.Makes fun call : Call => ¬ call.Reads) :
    p.Avoids (FindsForeign policy) :=
  h.avoids fun _ _ hcall hforeign => hcall (findsForeign_reads hforeign)

theorem getManagedNetworkPolicy_turnsAt (action : String)
    {f : Option NetworkPolicy → Task ReconcileError α}
    (hf : ∀ existing, (f existing).Makes fun call : Call => ¬ call.Reads) :
    (getManagedNetworkPolicy ns policy action >>= f).TurnsAt (FindsForeign policy) Call.IsRemote
      (Colliding policy) := by
  rw [getManagedNetworkPolicy_bind]
  intro answer
  cases answer with
  | error e => exact ⟨fun ⟨_, h, _⟩ => by simp at h, fun _ => Or.inr trivial⟩
  | ok found =>
    cases found with
    | none => exact ⟨fun ⟨_, h, _⟩ => by simp at h, fun _ => Or.inr (avoids_findsForeign (hf none))⟩
    | some np =>
      cases hmanaged : isManagedNetworkPolicyFor policy np with
      | true =>
        refine ⟨fun ⟨np', h, hnot⟩ => ?_, fun _ => Or.inr ?_⟩
        · cases h
          simp [hmanaged] at hnot
        · simp only [checked, hmanaged, if_true]
          exact avoids_findsForeign (hf _)
      | false =>
        refine ⟨fun _ => ⟨np, action, ?_⟩, fun h => absurd ⟨np, rfl, hmanaged⟩ h⟩
        simp [checked, hmanaged]

theorem cleanup_bind_turnsAt {f : Unit → Task ReconcileError α}
    (hf : ∀ done, (f done).Makes fun call : Call => ¬ call.Reads) :
    (cleanup policy >>= f).TurnsAt (FindsForeign policy) Call.IsRemote (Colliding policy) := by
  unfold cleanup
  cases policy.metadata.ns with
  | none => trivial
  | some ns =>
    simp only [Option.elim_some, Program.ofExcept_ok, Program.ret_bind, bind_assoc]
    apply getManagedNetworkPolicy_turnsAt
    intro existing
    refine (deleteManagedNetworkPolicy_makes id _).bind fun deleted => ?_
    exact ((publishPolicyEvent_makes (fun _ _ => id) policy _ _ _ _ _).mapError _).bind hf

theorem cleanup_turnsAt (policy : CIDRPolicy) :
    (cleanup policy).TurnsAt (FindsForeign policy) Call.IsRemote (Colliding policy) := by
  rw [← bind_pure (cleanup policy)]
  exact cleanup_bind_turnsAt fun _ => trivial

variable {K : Crates}

theorem reconcile_turnsAt (K : Crates) (policy : CIDRPolicy) :
    (reconcile K policy).TurnsAt (FindsForeign policy) Call.IsRemote (Colliding policy) := by
  have hremote (call : Call) (answer : call.Answer) (h : call.IsRemote) :
      ¬ FindsForeign policy ⟨call, answer⟩ := by
    cases call with
    | httpGet url => exact id
    | _ => exact h.elim
  have hpublish (r : Resolved K) :
      (publish K policy r).TurnsAt (FindsForeign policy) Call.IsRemote (Colliding policy) := by
    apply getManagedNetworkPolicy_turnsAt
    intro existing
    refine Program.Makes.bind ?_ fun _ => ?_
    · split
      · exact ⟨id, fun _ => (Program.makes_ofExcept _).mapError _⟩
      · trivial
    · exact conclude_makes id (fun _ _ => id)
        (patchStatusForOutcome_makes id id (fun _ _ => id) _)
  cases hd : policy.metadata.deletionTimestamp with
  | none =>
    rw [reconcile_eq hd]
    exact (resolve_remote policy).turnsAt_bind hremote hpublish
  | some deletion =>
    rw [reconcile_terminating (by rw [hd]; rfl)]
    exact cleanup_bind_turnsAt fun _ => trivial

/-- A run that finds the name taken reports it and ends. -/
theorem colliding_trace {p : Task ReconcileError α} {log : List Calls.Event}
    {result : Except ReconcileError α}
    (hp : p.TurnsAt (FindsForeign policy) Call.IsRemote (Colliding policy))
    (htrace : p.Trace log (.ofExcept result)) (hfound : ∃ e ∈ log, FindsForeign policy e) :
    ∃ before ns name answer event reference published,
      log = before ++ [⟨.getNetworkPolicy ns name, answer⟩,
        ⟨.publishEvent event reference, published⟩] ∧
      (∀ e ∈ before, e.1.IsRemote) ∧
      result = match (published : Except KubeError Unit) with
        | .ok _ => .error (.managedPolicyCollision policy.managedNetworkPolicyName)
        | .error error => .error (.kubernetesApi error) := by
  obtain ⟨before, ⟨call, answer⟩, after, q, rfl, hbefore, hread, ⟨np, action, rfl⟩, htail⟩ :=
    hp.trace htrace hfound
  cases call with
  | getNetworkPolicy ns name =>
    rcases htail.call_inv with ⟨-, hq⟩ | ⟨published, m, rfl, hrest⟩
    · cases result <;> cases hq
    · cases published with
      | ok _ =>
        obtain ⟨rfl, hq⟩ := hrest.fail_inv
        refine ⟨before, ns, name, answer, _, _, .ok (), rfl, hbefore, ?_⟩
        cases result <;> cases hq
        rfl
      | error error =>
        obtain ⟨rfl, hq⟩ := hrest.fail_inv
        refine ⟨before, ns, name, answer, _, _, .error error, rfl, hbefore, ?_⟩
        cases result <;> cases hq
        rfl
  | _ => exact hread.elim

end Paths
section Runs
variable {α : Type} {policy : CIDRPolicy} {applied : Apply} {w : World Calls Choice Cluster}

/-- The run fails over the collision and leaves every NetworkPolicy as it was. -/
def ReportsCollision (applied : Apply) (p : Task ReconcileError α)
    (w : World Calls Choice Cluster) : Prop :=
  ∃ error w', p.run (api applied) w = (.error error, w') ∧
    error.stage = .managedPolicyCollision ∧
    w'.state.networkPolicies = w.state.networkPolicies

theorem networkPolicies_unwritten {p : Task ReconcileError α}
    (h : ∀ call ∈ p.calls (api applied) w, call.writtenNetworkPolicy = none) :
    (p.run (api applied) w).2.state.networkPolicies = w.state.networkPolicies := by
  refine Program.run_keeps (api applied) (J := fun s => s.networkPolicies = w.state.networkPolicies)
    ?_ p w h rfl
  intro choice call s hcall hs
  funext key
  rw [← hs]
  exact serve_networkPolicies applied choice call s key (by simp [hcall])

section Log
variable {before : List Calls.Event} {ns name : String}
variable {answer : Except KubeError (Option NetworkPolicy)}
variable {event : Event} {reference : ObjectReference} {published : Except KubeError Unit}

theorem writes_nothing_of_colliding (hbefore : ∀ e ∈ before, e.1.IsRemote) :
    ∀ e ∈ before ++ [⟨.getNetworkPolicy ns name, answer⟩,
      ⟨.publishEvent event reference, published⟩], e.1.writtenNetworkPolicy = none := by
  intro e he
  simp only [List.mem_append, List.mem_cons, List.not_mem_nil, or_false] at he
  rcases he with he | rfl | rfl
  · have hremote := hbefore e he
    obtain ⟨call, answer⟩ := e
    cases call with
    | httpGet url => rfl
    | _ => exact hremote.elim
  · rfl
  · rfl

/-- The event that announces the collision is the only one. -/
theorem published_of_colliding_iff (hbefore : ∀ e ∈ before, e.1.IsRemote) :
    Published (before ++ [⟨.getNetworkPolicy ns name, answer⟩,
      ⟨.publishEvent event reference, published⟩]) ↔ published = .ok () := by
  constructor
  · exact fun h => h event reference published (by simp)
  · intro hok event' reference' published' hmem
    simp only [List.mem_append, List.mem_cons, List.not_mem_nil, or_false] at hmem
    rcases hmem with hmem | hmem | hmem
    · exact (hbefore _ hmem).elim
    · cases hmem
    · cases hmem
      exact hok

end Log

/-- Whether such a run reports the collision is up to the publication of the event. -/
theorem reportsCollision_iff {p : Task ReconcileError α}
    (hp : p.TurnsAt (FindsForeign policy) Call.IsRemote (Colliding policy))
    (hfound : ∃ e ∈ p.events (api applied) w, FindsForeign policy e) :
    (ReportsCollision applied p w ↔ Published (p.events (api applied) w)) ∧
      (p.run (api applied) w).2.state.networkPolicies = w.state.networkPolicies := by
  have htrace := Program.run_trace (api applied) p w
  obtain ⟨before, ns, name, answer, event, reference, published, hlog, hbefore, hresult⟩ :=
    colliding_trace hp htrace hfound
  have hkept : (p.run (api applied) w).2.state.networkPolicies = w.state.networkPolicies := by
    apply networkPolicies_unwritten
    intro call hcall
    rw [Program.calls, hlog] at hcall
    obtain ⟨e, he, rfl⟩ := List.mem_map.mp hcall
    exact writes_nothing_of_colliding hbefore e he
  refine ⟨?_, hkept⟩
  rw [hlog, published_of_colliding_iff hbefore]
  constructor
  · rintro ⟨error, w', hrun, hstage, -⟩
    rw [hrun] at hresult
    cases published with
    | ok done => rfl
    | error e =>
      cases hresult
      simp [ReconcileError.stage] at hstage
  · intro hok
    rw [hok] at hresult
    exact ⟨_, _, Prod.ext hresult rfl, rfl, hkept⟩

/-- A reconcile or cleanup that finds the managed name taken changes no NetworkPolicy, and fails
over the collision exactly if the event that announces it is published. -/
theorem collision_reported_iff (K : Crates) (applied : Apply) (policy : CIDRPolicy)
    (w : World Calls Choice Cluster) :
    ((∃ e ∈ (reconcile K policy).events (api applied) w, FindsForeign policy e) →
      (ReportsCollision applied (reconcile K policy) w ↔
        Published ((reconcile K policy).events (api applied) w)) ∧
      ((reconcile K policy).run (api applied) w).2.state.networkPolicies =
        w.state.networkPolicies) ∧
    ((∃ e ∈ (cleanup policy).events (api applied) w, FindsForeign policy e) →
      (ReportsCollision applied (cleanup policy) w ↔
        Published ((cleanup policy).events (api applied) w)) ∧
      ((cleanup policy).run (api applied) w).2.state.networkPolicies = w.state.networkPolicies) :=
  ⟨fun h => reportsCollision_iff (reconcile_turnsAt K policy) h,
    fun h => reportsCollision_iff (cleanup_turnsAt policy) h⟩

end Runs

namespace Sample

/-- A NetworkPolicy of another owner is stored under the managed name, and only the publication
of the event is lost. -/
def taken : World Calls Choice Cluster where
  state := cluster policy (some { metadata := {}, spec := none })
  choices n := if n = 2 then { choice 0 with delivery := .lost (.other "timeout") } else choice 0
  log := []

end Sample

open Sample in
theorem collision_reported_iff_taken :
    ReportsCollision replace (reconcile crates policy) (worldAt taken.state 0) ↔
      Published ((reconcile crates policy).events (api replace) (worldAt taken.state 0)) := by
  refine ((collision_reported_iff crates replace policy (worldAt taken.state 0)).1 ?_).1
  exact ⟨⟨.getNetworkPolicy "payments" policy.managedNetworkPolicyName, _⟩,
    List.mem_cons_of_mem _ (List.mem_cons_self ..), _, rfl, by decide⟩

open Sample in
/-- The event is lost, and the failure is reported as one of the API. -/
theorem taken_not_reported :
    (∃ e ∈ (reconcile crates policy).events (api replace) taken, FindsForeign policy e) ∧
      ((reconcile crates policy).run (api replace) taken).1 =
        .error (.kubernetesApi (.other "timeout")) ∧
      ¬ ReportsCollision replace (reconcile crates policy) taken := by
  have hrun : ((reconcile crates policy).run (api replace) taken).1 =
      .error (.kubernetesApi (.other "timeout")) := by decide
  refine ⟨?_, hrun, ?_⟩
  · exact ⟨⟨.getNetworkPolicy "payments" policy.managedNetworkPolicyName, _⟩,
      List.mem_cons_of_mem _ (List.mem_cons_self ..), _, rfl, by decide⟩
  · rintro ⟨error, w', hreport, hstage, -⟩
    rw [hreport] at hrun
    cases hrun
    simp [ReconcileError.stage] at hstage

end Ipmaze
