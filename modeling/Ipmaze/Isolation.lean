import Ipmaze.Effects.Pool
import Ipmaze.Reconcile.Writes
import Ipmaze.Runs
import Ipmaze.Sample

/-! Runs for different CIDRPolicies do not disturb each other, however their API calls
interleave. -/
namespace Ipmaze
open Effects Pool

/-- What a policy of this identity can see of the cluster: its NetworkPolicy and itself. -/
def Identity.view (r : Identity) (s : Cluster) : Option NetworkPolicy × Option CIDRPolicy :=
  (r.1.bind fun ns => s.networkPolicies (ns, r.2 ++ "-managed"),
    r.1.bind fun ns => s.policies (ns, r.2))

theorem nameAny_eq {policy : CIDRPolicy} {name : String} (h : policy.metadata.name = some name) :
    policy.nameAny = name := by
  simp [CIDRPolicy.nameAny, h]

/-- The managed name of a named policy is its own name with a fixed suffix. -/
theorem managedNetworkPolicyName_eq {policy : CIDRPolicy} (h : policy.metadata.name.isSome) :
    policy.managedNetworkPolicyName = policy.nameAny ++ "-managed" := by
  obtain ⟨name, hname⟩ := Option.isSome_iff_exists.mp h
  rw [nameAny_eq hname, CIDRPolicy.managedNetworkPolicyName, hname]
  rfl

theorem view_identity {policy : CIDRPolicy} (h : policy.metadata.name.isSome) (s : Cluster) :
    policy.identity.view s = (s.managed policy, s.stored policy) := by
  simp only [Identity.view, CIDRPolicy.identity, Cluster.managed, Cluster.stored,
    managedNetworkPolicyName_eq h]

namespace Call
variable {policy : CIDRPolicy}

theorem Within.writtenNetworkPolicy {call : Call} {key : Key} (h : call.Within policy)
    (hkey : call.writtenNetworkPolicy = some key) :
    policy.metadata.ns = some key.1 ∧ key.2 = policy.managedNetworkPolicyName := by
  cases call <;> cases hkey
  · exact ⟨h.1, h.2.1⟩
  · exact h

theorem Within.writtenStatus {call : Call} {key : Key} (h : call.Within policy)
    (hkey : call.writtenStatus = some key) :
    policy.metadata.ns = some key.1 ∧ key.2 = policy.nameAny := by
  cases call <;> cases hkey
  exact h

end Call

section Separation
variable (applied : Apply) {policy : CIDRPolicy} {call : Call} {s s' : Cluster}

/-- The answer to a call on the policy's own keys depends on the policy's own objects only. -/
theorem serve_answer_local (h : call.Within policy) (choice : Choice)
    (hmanaged : s.managed policy = s'.managed policy)
    (hstored : s.stored policy = s'.stored policy) :
    (serve applied choice call s).1 = (serve applied choice call s').1 := by
  cases call with
  | httpGet url => rfl
  | utcNow => rfl
  | publishEvent event reference => rfl
  | patchNetworkPolicy ns name params patch => rfl
  | getNetworkPolicy ns name =>
    obtain ⟨hns, rfl⟩ := h
    simp only [Cluster.managed_eq hns] at hmanaged
    simp only [serve, hmanaged]
  | deleteNetworkPolicy ns name =>
    obtain ⟨hns, rfl⟩ := h
    simp only [Cluster.managed_eq hns] at hmanaged
    simp only [serve, hmanaged]
    split <;> rfl
  | getPolicy ns name =>
    obtain ⟨hns, rfl⟩ := h
    simp only [Cluster.stored_eq hns] at hstored
    simp only [serve, hstored]
  | patchStatus ns name params patch =>
    obtain ⟨hns, rfl⟩ := h
    simp only [Cluster.stored_eq hns] at hstored
    simp only [serve, hstored]
    split <;> rfl

theorem serve_managed_local (h : call.Within policy) (choice : Choice)
    (hmanaged : s.managed policy = s'.managed policy) :
    (serve applied choice call s).2.managed policy =
      (serve applied choice call s').2.managed policy := by
  rw [serve_managed applied h, serve_managed applied h]
  cases call <;> simp only [hmanaged]

theorem serve_stored_local (h : call.Within policy) (choice : Choice)
    (hstored : s.stored policy = s'.stored policy) :
    (serve applied choice call s).2.stored policy =
      (serve applied choice call s').2.stored policy := by
  rw [serve_stored applied h, serve_stored applied h]
  cases call <;> simp only [hstored]

/-- A call on the policy's own keys changes nothing another identity can see. -/
theorem serve_view_frame (h : call.Within policy) (hname : policy.metadata.name.isSome)
    (choice : Choice) (s : Cluster) {r : Identity} (hr : r ≠ policy.identity) :
    r.view (serve applied choice call s).2 = r.view s := by
  obtain ⟨ns, name⟩ := r
  cases ns with
  | none => rfl
  | some ns =>
    have hnetwork : call.writtenNetworkPolicy ≠ some (ns, name ++ "-managed") := by
      intro hw
      obtain ⟨hns, hkey⟩ := h.writtenNetworkPolicy hw
      rw [managedNetworkPolicyName_eq hname] at hkey
      apply hr
      rw [CIDRPolicy.identity, hns, (String.append_left_inj _).mp hkey]
    have hstatus : call.writtenStatus ≠ some (ns, name) := by
      intro hw
      obtain ⟨hns, hkey⟩ := h.writtenStatus hw
      apply hr
      rw [CIDRPolicy.identity, hns, ← hkey]
    simp only [Identity.view, Option.bind_some, serve_networkPolicies _ _ _ _ _ hnetwork,
      serve_policies _ _ _ _ _ hstatus]

/-- A NetworkPolicy names the policy it is managed for. -/
theorem managed_for_one {p q : CIDRPolicy} {networkPolicy : NetworkPolicy}
    (hp : p.metadata.name.isSome) (hq : q.metadata.name.isSome)
    (h : isManagedNetworkPolicyFor p networkPolicy) (h' : isManagedNetworkPolicyFor q networkPolicy) :
    p.metadata.name = q.metadata.name := by
  simp only [isManagedNetworkPolicyFor, Bool.and_eq_true, beq_iff_eq] at h h'
  have hname : p.nameAny = q.nameAny := Option.some.inj (h.1.2.symm.trans h'.1.2)
  obtain ⟨m, hm⟩ := Option.isSome_iff_exists.mp hp
  obtain ⟨n, hn⟩ := Option.isSome_iff_exists.mp hq
  rw [nameAny_eq hm, nameAny_eq hn] at hname
  rw [hm, hn, hname]

end Separation

section Pools
variable (applied : Apply) {K : Crates} {τ : Type} [DecidableEq τ] (runs : τ → Run)

/-- No other party acts. -/
def noOther : Empty → Cluster → Cluster := fun a => a.elim

/-- Every run of a pool, each answered as its moves say. -/
def interleave (K : Crates) (s : Cluster) (moves : List (Move τ Choice Empty)) :
    Pool Calls τ Cluster PUnit PUnit :=
  exec (api applied) noOther (start s fun t => (runs t).task K) moves

omit [DecidableEq τ] in
theorem start_within (s : Cluster) :
    (start s fun t => (runs t).task K).Within fun t => Call.Within (runs t).policy :=
  fun t => (runs t).task_within K

variable {runs}

omit [DecidableEq τ] in
theorem runs_separated (hname : ∀ t, (runs t).policy.metadata.name.isSome) :
    Separated (fun t => (runs t).owner) Identity.view (api applied)
      fun t => Call.Within (runs t).policy where
  local_answer t choice call s s' h hview := by
    rw [Run.owner, view_identity (hname t), view_identity (hname t), Prod.mk.injEq] at hview
    exact serve_answer_local applied h choice hview.1 hview.2
  local_effect t choice call s s' h hview := by
    rw [Run.owner, view_identity (hname t), view_identity (hname t), Prod.mk.injEq] at hview ⊢
    exact ⟨serve_managed_local applied h choice hview.1, serve_stored_local applied h choice hview.2⟩
  frame t choice call s r h hr := serve_view_frame applied h (hname t) choice s hr

/-- The moves of the runs for one policy. -/
def ownMoves (runs : τ → Run) (policy : CIDRPolicy) (moves : List (Move τ Choice Empty)) :
    List (Move τ Choice Empty) :=
  movesOf (fun t => (runs t).owner) policy.identity moves

theorem interleave_alike (hname : ∀ t, (runs t).policy.metadata.name.isSome) (s : Cluster)
    (moves : List (Move τ Choice Empty)) (policy : CIDRPolicy) :
    Alike (fun t => (runs t).owner) Identity.view policy.identity (interleave applied runs K s moves)
      (interleave applied runs K s (ownMoves runs policy moves)) :=
  exec_alike (runs_separated applied hname) policy.identity moves (start_within runs s)
    ⟨rfl, fun _ _ => rfl⟩

theorem interleave_untouched (s : Cluster) (moves : List (Move τ Choice Empty)) {key : Key}
    (hkey : ∀ t, (runs t).policy.metadata.ns = some key.1 →
      (runs t).policy.managedNetworkPolicyName ≠ key.2) :
    (interleave applied runs K s moves).state.networkPolicies key = s.networkPolicies key := by
  refine exec_view_eq (fun s : Cluster => s.networkPolicies key) ?_ (fun a => a.elim) _
    (start_within runs s) moves
  intro t choice call s h
  refine serve_networkPolicies applied choice call s key fun hw => ?_
  obtain ⟨hns, hname⟩ := h.writtenNetworkPolicy hw
  exact hkey t hns hname.symm

/-- In every interleaving, the NetworkPolicy, the stored CIDRPolicy and the runs of each policy
end as if its own calls had been executed alone; no other NetworkPolicy changes, and none is
managed for two policies of different names. -/
theorem runs_isolated (hname : ∀ t, (runs t).policy.metadata.name.isSome) (s : Cluster)
    (moves : List (Move τ Choice Empty)) :
    (∀ t, ∃ alone, alone = interleave applied runs K s (ownMoves runs (runs t).policy moves) ∧
      (interleave applied runs K s moves).state.managed (runs t).policy =
        alone.state.managed (runs t).policy ∧
      (interleave applied runs K s moves).state.stored (runs t).policy =
        alone.state.stored (runs t).policy ∧
      (interleave applied runs K s moves).threads t = alone.threads t) ∧
    (∀ key : Key, (∀ t, (runs t).policy.metadata.ns = some key.1 →
        (runs t).policy.managedNetworkPolicyName ≠ key.2) →
      (interleave applied runs K s moves).state.networkPolicies key = s.networkPolicies key) ∧
    ∀ (p q : CIDRPolicy) (networkPolicy : NetworkPolicy), p.metadata.name.isSome →
      q.metadata.name.isSome → isManagedNetworkPolicyFor p networkPolicy →
      isManagedNetworkPolicyFor q networkPolicy → p.metadata.name = q.metadata.name := by
  refine ⟨?_, ?_, ?_⟩
  · intro t
    obtain ⟨hview, hthreads⟩ := interleave_alike (K := K) applied hname s moves (runs t).policy
    rw [view_identity (hname t), view_identity (hname t), Prod.mk.injEq] at hview
    exact ⟨_, rfl, hview.1, hview.2, hthreads t rfl⟩
  · intro key hkey
    exact interleave_untouched applied s moves hkey
  · intro p q networkPolicy hp hq h h'
    exact managed_for_one hp hq h h'

end Pools

namespace Sample

/-- Two teams of one namespace, each with a reconcile under way. -/
def tenants : Bool → Run
  | false => .reconcile policy
  | true => .reconcile { policy with metadata := { policy.metadata with name := some "vpn" } }

/-- The calls of both reconciles in turns, to the end. -/
def turns : List (Move Bool Choice Empty) :=
  (List.replicate 7 [.serve false (choice 0), .serve true (choice 0)]).flatten

end Sample

open Sample in
theorem runs_isolated_tenants :
    ∃ both alone, both = interleave replace tenants crates (cluster policy none) turns ∧
      alone = interleave replace tenants crates (cluster policy none)
        (List.replicate 7 (.serve false (choice 0))) ∧
      both.state.managed policy = alone.state.managed policy ∧
      both.state.stored policy = alone.state.stored policy ∧
      both.state.managed policy = some (policy.rendered "payments" [cidr]) := by
  have hname : ∀ t, (tenants t).policy.metadata.name.isSome := by decide
  have hrendered : (interleave replace tenants crates (cluster policy none) turns).state.managed
      policy = some (policy.rendered "payments" [cidr]) := by decide
  obtain ⟨alone, halone, hmanaged, hstored, -⟩ :=
    (runs_isolated (K := crates) replace hname (cluster policy none) turns).1 false
  exact ⟨_, alone, rfl, halone, hmanaged, hstored, hrendered⟩

end Ipmaze
