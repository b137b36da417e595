import Ipmaze.Reconcile.Round
import Ipmaze.Reconcile.Writes
import Ipmaze.Effects.Pool

/-! The ownership check and the write it licenses are two API calls. Other clients act between
them, and the write is forced. -/
namespace Ipmaze
open Effects Pool

/-- Nothing foreign is stored under the managed name. -/
def Cluster.Safe (s : Cluster) (policy : CIDRPolicy) : Prop :=
  ∀ np ∈ s.managed policy, isManagedNetworkPolicyFor policy np

/-- A check of the managed name that found nothing foreign. -/
inductive Licence (policy : CIDRPolicy) : Calls.Event → Prop
  | found {ns : String} {found : Option NetworkPolicy} (hns : policy.metadata.ns = some ns)
    (howned : ∀ np ∈ found, isManagedNetworkPolicyFor policy np) :
    Licence policy ⟨.getNetworkPolicy ns policy.managedNetworkPolicyName, .ok found⟩

/-- What other clients do with NetworkPolicies. -/
inductive Foreign
  | store (key : Key) (np : NetworkPolicy)
  | remove (key : Key)

def Foreign.act : Foreign → Cluster → Cluster
  | store key np, s => s.setNetworkPolicy key (some np)
  | remove key, s => s.setNetworkPolicy key none

section Programs
variable {K : Crates} {policy : CIDRPolicy} {ns : String}

/-- Whatever follows the check of the managed name starts under its licence. -/
theorem checked_guarded {β : Type} (hns : policy.metadata.ns = some ns) (action : String)
    {f : Option NetworkPolicy → Task ReconcileError β}
    (hf : ∀ existing, (f existing).Guarded Call.Writes (Licence policy)) :
    (getManagedNetworkPolicy ns policy action >>= f).Guarded Call.Writes (Licence policy) := by
  rw [getManagedNetworkPolicy_bind]
  intro answer
  cases answer with
  | error e => exact ⟨fun h => h.elim, trivial⟩
  | ok found =>
    cases found with
    | none =>
      have hfound : ∀ np ∈ (none : Option NetworkPolicy), isManagedNetworkPolicyFor policy np := by
        simp
      exact ⟨fun _ => Licence.found hns hfound, hf none⟩
    | some np =>
      by_cases howned : isManagedNetworkPolicyFor policy np = true
      · simp only [checked, howned, if_true]
        have hfound : ∀ np' ∈ some np, isManagedNetworkPolicyFor policy np' := by
          intro np' hnp
          rwa [← Option.some_inj.mp hnp]
        exact ⟨fun _ => Licence.found hns hfound, hf (some np)⟩
      · simp only [checked, howned]
        have hrest :=
      (collision_idle policy np action : Program.Makes _ (_ : Task _ β)).mono fun _ h => h.1
        exact ⟨fun h => (hrest.not_standsAt h).elim, hrest.guarded⟩

theorem getManagedNetworkPolicy_not_standsAt {β : Type} (action : String)
    (f : Option NetworkPolicy → Task ReconcileError β) :
    ¬ (getManagedNetworkPolicy ns policy action >>= f).StandsAt Call.Writes := by
  rw [getManagedNetworkPolicy_bind]
  exact id

theorem publish_guarded {r : Resolved K} (hns : policy.metadata.ns = some r.ns) :
    (publish K policy r).Guarded Call.Writes (Licence policy) := by
  refine checked_guarded hns _ fun existing => ?_
  have hconclude := conclude_writes_nothing policy r
    (classifyOutcome existing r.rendered r.observed)
  refine Program.Guarded.bind ?_ (fun _ => hconclude.guarded) fun _ => hconclude.not_standsAt
  split
  · exact Program.Guarded.mapError Program.guarded_call _
  · trivial

/-- A program that may start any time: it checks before it writes. -/
def Careful (policy : CIDRPolicy) {ε α : Type} (p : Task ε α) : Prop :=
  p.Guarded Call.Writes (Licence policy) ∧ ¬ p.StandsAt Call.Writes

theorem careful_of_makes {ε α : Type} {p : Task ε α}
    (h : p.Makes fun call : Call => ¬ call.Writes) : Careful policy p :=
  ⟨h.guarded, h.not_standsAt⟩

theorem Careful.bind {ε α β : Type} {p : Task ε α} {f : α → Task ε β} (hp : Careful policy p)
    (hf : ∀ a, Careful policy (f a)) : Careful policy (p >>= f) :=
  ⟨hp.1.bind (fun a => (hf a).1) fun a => (hf a).2, fun h => hp.2 (h.of_bind fun a => (hf a).2)⟩

/-- Nothing is written after a deletion. -/
theorem delete_guarded {β : Type} {f : Bool → Task ReconcileError β}
    (hf : ∀ deleted, (f deleted).Makes fun call : Call => ¬ call.Writes) :
    (deleteManagedNetworkPolicy ns policy true >>= f).Guarded Call.Writes (Licence policy) := by
  have hrest (answer : Except KubeError Unit) :
      (deleted f answer).Makes fun call : Call => ¬ call.Writes := by
    fun_cases deleted f answer with
    | case1 done => exact hf true
    | case2 text => exact hf false
    | case3 error hcode => trivial
  rw [deleteManagedNetworkPolicy_bind]
  exact fun answer => ⟨fun h => ((hrest answer).not_standsAt h).elim, (hrest answer).guarded⟩

theorem cleanup_careful (policy : CIDRPolicy) : Careful policy (cleanup policy) := by
  unfold cleanup
  cases hns : policy.metadata.ns with
  | none => exact ⟨trivial, id⟩
  | some ns =>
    refine ⟨checked_guarded hns _ fun existing => ?_, getManagedNetworkPolicy_not_standsAt _ _⟩
    have hevent (note : Option String) := ((publishPolicyEvent_idle policy .normal
      "CleanupManagedPolicy" "Cleanup" note none).mono fun _ h => h.1).mapError
        ReconcileError.kubernetesApi
    cases existing with
    | none => exact (hevent _).guarded
    | some np =>
      exact delete_guarded fun deleted => hevent _

theorem reconcile_careful (policy : CIDRPolicy) : Careful policy (reconcile K policy) := by
  cases hd : policy.metadata.deletionTimestamp with
  | some deletion =>
    rw [reconcile_terminating (by rw [hd]; rfl)]
    exact (cleanup_careful policy).bind fun _ => ⟨trivial, id⟩
  | none =>
    rw [reconcile_eq hd]
    have hresolve := (resolve_idle (K := K) policy).mono fun _ h => h.1
    have hpublish (r : Resolved K) : ¬ (publish K policy r).StandsAt Call.Writes :=
      getManagedNetworkPolicy_not_standsAt "Reconcile" _
    refine ⟨hresolve.guarded.bind_of_yields (resolve_sound policy) ?_ hpublish, ?_⟩
    · intro r hr
      exact publish_guarded hr.ns
    · intro h
      exact hresolve.not_standsAt (h.of_bind hpublish)

theorem handleReconcileFailure_careful (policy : CIDRPolicy) (stage : ReconcileStage)
    (message : String) : Careful policy (handleReconcileFailure K policy stage message) :=
  careful_of_makes (handleReconcileFailure_writes_nothing policy stage message)

/-- Every run of the controller checks before it writes. -/
theorem Run.task_careful (r : Run) : Careful r.policy (r.task K) := by
  have hdiscard {ε α : Type} {p : Task ε α} (h : Careful r.policy p) :
      Careful r.policy p.discard := ⟨h.1.discard, fun hs => h.2 hs.of_discard⟩
  cases r with
  | reconcile policy => exact hdiscard (reconcile_careful policy)
  | cleanup policy => exact hdiscard (cleanup_careful policy)
  | failure policy stage message =>
    exact hdiscard (handleReconcileFailure_careful policy stage message)
  | attempt context policy =>
    have hrescue (error : ReconcileError) : Careful policy
        ((errorPolicy K context policy error).1 >>= fun _ =>
          pure (errorPolicy K context policy error).2) :=
      (handleReconcileFailure_careful policy _ _).bind fun _ => ⟨trivial, id⟩
    obtain ⟨hguarded, hstands⟩ := reconcile_careful (K := K) policy
    exact hdiscard ⟨hguarded.rescue (fun e => (hrescue e).1) fun e => (hrescue e).2,
      fun h => hstands (h.of_rescue fun e => (hrescue e).2)⟩

theorem Licence.congr {p q : CIDRPolicy} (hpq : p.SameObject q) {e : Calls.Event}
    (h : Licence p e) : Licence q e := by
  cases h with
  | found hns howned =>
    rw [hpq.managedNetworkPolicyName]
    refine .found (hpq.ns.symm.trans hns) fun np hnp => ?_
    rw [← hpq.isManaged]
    exact howned np hnp

end Programs

section Interleaving
variable (applied : Apply) {K : Crates} {τ : Type} [DecidableEq τ] {runs : τ → Run}
variable {policy : CIDRPolicy} {P : Pool Calls τ Cluster PUnit PUnit}

/-- Run `t` stands between its check of the managed name and the write it has decided on. -/
def Decided (P : Pool Calls τ Cluster PUnit PUnit) (t : τ) : Prop :=
  (P.threads t).StandsAt Call.Writes

/-- Between the check and the write of a run, nothing but what the policy owns is stored under
its managed name. What another run of the policy stores there is owned if the policy has a
name and a uid. -/
def Undisturbed (policy : CIDRPolicy) (P : Pool Calls τ Cluster PUnit PUnit) :
    Move τ Choice Foreign → Prop
  | .other (.store key np) => (∃ t, Decided P t) → policy.metadata.ns = some key.1 →
    key.2 = policy.managedNetworkPolicyName → isManagedNetworkPolicyFor policy np
  | .other (.remove _) => True
  | .serve t _ => policy.Persisted ∨ ∀ u, u ≠ t → ¬ Decided P u

/-- A write of a run finds nothing foreign under the managed name, and a foreign object that
is stored there stays as it is. -/
def RespectsForeign (policy : CIDRPolicy) (P : Pool Calls τ Cluster PUnit PUnit) :
    Move τ Choice Foreign → Prop
  | .other _ => True
  | .serve t choice => (Decided P t → P.state.Safe policy) ∧
    ∀ np, P.state.managed policy = some np → ¬ isManagedNetworkPolicyFor policy np →
      (step (api applied) Foreign.act P (.serve t choice)).state.managed policy = some np

/-- What a licence was given for still holds when it is used. -/
structure Licensed (policy : CIDRPolicy) (P : Pool Calls τ Cluster PUnit PUnit) : Prop where
  within : P.Within fun _ => Call.Within policy
  guarded : ∀ t, (P.threads t).Guarded Call.Writes (Licence policy)
  safe : ∀ t, Decided P t → P.state.Safe policy

omit [DecidableEq τ] in
theorem start_licensed (hsame : ∀ t, (runs t).policy.SameObject policy) (s : Cluster) :
    Licensed policy (start s fun t => (runs t).task K) where
  within t := ((runs t).task_within K).mono fun _ h => (hsame t).within h
  guarded t := ((runs t).task_careful).1.mono fun _ h => h.congr (hsame t)
  safe t h := ((runs t).task_careful.2 h).elim

variable {applied}

/-- A licence is given for the cluster as it is. -/
theorem Licence.safe {call : Call} {choice : Choice} {s : Cluster}
    (h : Licence policy ⟨call, (serve applied choice call s).1⟩) :
    (serve applied choice call s).2.Safe policy := by
  generalize hanswer : (serve applied choice call s).1 = answer at h
  cases h with
  | found hns howned =>
    rw [serve_found applied hns hanswer] at howned
    exact howned

/-- What a run stores is the policy's own. -/
theorem Cluster.Safe.serve (hsets : applied.Sets) (hpersisted : policy.Persisted) {call : Call}
    (hcall : call.Within policy) {s : Cluster} (h : s.Safe policy) (choice : Choice) :
    (serve applied choice call s).2.Safe policy := by
  have hmanaged := serve_managed applied hcall choice s
  intro np hnp
  rw [hmanaged] at hnp
  cases call with
  | patchNetworkPolicy ns name params patch =>
    simp only at hnp
    split at hnp
    · obtain rfl := Option.some.inj hnp
      exact (hsets _ patch).isManaged hpersisted hcall.2.2
    · exact h np hnp
  | deleteNetworkPolicy ns name =>
    simp only at hnp
    split at hnp
    · cases hnp
    · exact h np hnp
  | _ => exact h np hnp

theorem Cluster.Safe.set {s : Cluster} (h : s.Safe policy) {key : Key} {stored : Option NetworkPolicy}
    (hstored : ∀ np ∈ stored, policy.metadata.ns = some key.1 →
      key.2 = policy.managedNetworkPolicyName → isManagedNetworkPolicyFor policy np) :
    (s.setNetworkPolicy key stored).Safe policy := by
  intro np hnp
  cases hns : policy.metadata.ns with
  | none => simp [Cluster.managed, hns] at hnp
  | some ns =>
    rw [Cluster.managed_eq hns] at hnp
    by_cases hkey : (ns, policy.managedNetworkPolicyName) = key
    · subst hkey
      rw [Cluster.setNetworkPolicy_self] at hnp
      exact hstored np hnp hns rfl
    · rw [Cluster.setNetworkPolicy_of_ne _ _ hkey] at hnp
      exact h np (by rwa [Cluster.managed_eq hns])

/-- Another client leaves the managed name safe if what it stores there is owned. -/
theorem Foreign.safe {s : Cluster} (h : s.Safe policy) {act : Foreign}
    (hact : ∀ key np, act = .store key np → policy.metadata.ns = some key.1 →
      key.2 = policy.managedNetworkPolicyName → isManagedNetworkPolicyFor policy np) :
    (act.act s).Safe policy := by
  cases act with
  | store key stored =>
    refine h.set fun np hnp => ?_
    obtain rfl := Option.some.inj hnp
    exact hact key stored rfl
  | remove key => exact h.set (by simp)

/-- An undisturbed move keeps every licence good. -/
theorem Licensed.step (hsets : applied.Sets) (h : Licensed policy P) {m : Move τ Choice Foreign}
    (hm : Undisturbed policy P m) : Licensed policy (step (api applied) Foreign.act P m) := by
  cases m with
  | other act =>
    refine ⟨h.within, h.guarded, fun t ht => ?_⟩
    refine Foreign.safe (h.safe t ht) fun key np hact hns hname => ?_
    subst hact
    exact hm ⟨t, ht⟩ hns hname
  | serve t choice =>
    rcases step_serve_cases (api applied) Foreign.act P t choice with he | ⟨call, next, ht⟩
    · rw [he]
      exact h
    · have hguarded := h.guarded t
      have hwithin := h.within t
      rw [ht] at hguarded hwithin
      refine ⟨h.within.step _, fun u => ?_, fun u hu => ?_⟩
      · rw [step_serve_call ht]
        by_cases hut : u = t
        · subst hut
          simpa using (hguarded _).2
        · simpa [Function.update_of_ne hut] using h.guarded u
      · rw [step_serve_call ht] at hu ⊢
        by_cases hut : u = t
        · subst hut
          simp only [Decided, Function.update_self] at hu
          exact ((hguarded _).1 hu).safe
        · simp only [Decided, Function.update_of_ne hut] at hu
          rcases hm with hpersisted | hm
          · exact (h.safe u hu).serve hsets hpersisted hwithin.1 choice
          · exact (hm u hut hu).elim

/-- A run that holds a good licence respects what is foreign. -/
theorem Licensed.respects (h : Licensed policy P) (m : Move τ Choice Foreign) :
    RespectsForeign applied policy P m := by
  cases m with
  | other act => trivial
  | serve t choice =>
    refine ⟨h.safe t, fun np hnp hforeign => ?_⟩
    rcases step_serve_cases (api applied) Foreign.act P t choice with he | ⟨call, next, ht⟩
    · rw [he]
      exact hnp
    · rw [step_serve_call ht]
      by_cases hw : call.Writes
      · have hdecided : Decided P t := by
          rw [Decided, ht]
          exact hw
        exact absurd (h.safe t hdecided np hnp) hforeign
      · exact (serve_managed_of_not_writes applied hw choice P.state).trans hnp

/-- In every run in which no foreign object appears between a check and the write it licenses,
no foreign object is written over, adopted or deleted. -/
theorem runs_respect_foreign (hsets : applied.Sets)
    (hsame : ∀ t, (runs t).policy.SameObject policy) (s : Cluster)
    (moves : List (Move τ Choice Foreign))
    (h : Along (step (api applied) Foreign.act) (Undisturbed policy)
      (start s fun t => (runs t).task K) moves) :
    Along (step (api applied) Foreign.act) (RespectsForeign applied policy)
      (start s fun t => (runs t).task K) moves :=
  h.of_invariant (fun _ _ hP hm => hP.step hsets hm) (fun _ m hP _ => hP.respects m)
    (start_licensed hsame s)

/-- A foreign object that appears between the check and the write of a run is in the way of
that write. -/
theorem not_respectsForeign_of_store {t : τ} (ht : Decided P t) {ns : String}
    (hns : policy.metadata.ns = some ns) {np : NetworkPolicy}
    (hforeign : ¬ isManagedNetworkPolicyFor policy np) (choice : Choice) :
    ¬ RespectsForeign applied policy
      (step (api applied) Foreign.act P
        (.other (.store (ns, policy.managedNetworkPolicyName) np))) (.serve t choice) := by
  intro h
  refine hforeign (h.1 ht np ?_)
  rw [Cluster.managed_eq hns]
  exact Cluster.setNetworkPolicy_self ..

end Interleaving

namespace Sample

/-- A NetworkPolicy that someone else keeps under the managed name of the sample policy. -/
def foreign : NetworkPolicy where
  metadata := { name := some "office-allowlist-managed", ns := some "payments" }
  spec := none

/-- One reconcile: the request for the list, the check, another client's move, the write. -/
def interrupted (act : Foreign) : List (Move Unit Choice Foreign) :=
  [.serve () (choice 0), .serve () (choice 0), .other act, .serve () (choice 0)]

def reconcileOnly : Unit → Run := fun _ => .reconcile policy

def reconcileTwice : Bool → Run := fun _ => .reconcile policy

/-- Another client stores an unrelated object while the first run stands before its write, and
takes the managed name before the second run checks it. -/
def contested : List (Move Bool Choice Foreign) :=
  [.serve false (choice 0), .serve false (choice 0), .other (.store ("payments", "legacy") foreign),
    .serve false (choice 0), .other (.store ("payments", policy.managedNetworkPolicyName) foreign),
    .serve true (choice 0), .serve true (choice 0), .serve true (choice 0)]

end Sample

open Sample in
theorem runs_respect_foreign_reconcile :
    Along (step (api replace) Foreign.act) (RespectsForeign replace policy)
      (start (cluster policy none) fun t => (reconcileTwice t).task crates) contested := by
  have hpersisted : policy.Persisted := persisted [rule] none
  have hlegacy : "legacy" ≠ policy.managedNetworkPolicyName := by decide
  have hundisturbed : Along (step (api replace) Foreign.act) (Undisturbed policy)
      (start (cluster policy none) fun t => (reconcileTwice t).task crates) contested := by
    refine ⟨.inl hpersisted, .inl hpersisted, fun _ _ h => absurd h hlegacy, .inl hpersisted, ?_,
      .inl hpersisted, .inl hpersisted, .inl hpersisted, trivial⟩
    -- The first run has written and the second has not yet checked.
    rintro ⟨t, ht⟩
    cases t with
    | false => exact ht.elim
    | true => exact ht.elim
  have hsame : ∀ t, (reconcileTwice t).policy.SameObject policy := fun _ => ⟨rfl, rfl, rfl, rfl⟩
  have hsets : Apply.Sets replace := fun _ patch => .refl patch
  exact runs_respect_foreign hsets hsame _ _ hundisturbed

open Sample in
/-- The check finds the name free, another client takes it, and the forced apply replaces what
that client stored. -/
theorem foreign_overwritten :
    (exec (api replace) Foreign.act
        (start (cluster policy none) fun t => (reconcileOnly t).task crates)
        (interrupted (.store ("payments", policy.managedNetworkPolicyName) foreign))).state.managed
          policy = some (policy.rendered "payments" [cidr]) ∧
      ¬ Along (step (api replace) Foreign.act) (RespectsForeign replace policy)
        (start (cluster policy none) fun t => (reconcileOnly t).task crates)
        (interrupted (.store ("payments", policy.managedNetworkPolicyName) foreign)) := by
  refine ⟨by decide, ?_⟩
  rintro ⟨-, -, -, hrespects, -⟩
  refine not_respectsForeign_of_store ?_ rfl (by decide) _ hrespects
  exact trivial

end Ipmaze
