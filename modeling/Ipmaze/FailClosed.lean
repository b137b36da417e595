import Ipmaze.Effects.Ensures
import Ipmaze.Isolation
import Ipmaze.Reconcile.Grounds
import Ipmaze.Reconcile.Round
import Ipmaze.Rendering.Meaning

/-! Failing closed: a pod that a policy has isolated stays isolated, whatever fails and however the
calls of the controller interleave. -/
namespace Ipmaze
open Effects

section Isolates
variable (K : Crates) (pod : String × StringMap) (direction : Direction)

/-- A NetworkPolicy of this namespace isolates the pod. -/
def NetworkPolicy.Isolates (ns : String) (np : NetworkPolicy) : Prop :=
  ∃ spec ∈ np.spec, pod ∈ (spec.access K ns).subjects ∧ direction ∈ (spec.access K ns).isolated

/-- What is stored under a key isolates the pod. -/
def Cluster.Isolates (key : Key) (s : Cluster) : Prop :=
  ∃ np ∈ s.networkPolicies key, np.Isolates K pod direction key.1

/-- A spec asks for the pod to be isolated. -/
def CIDRPolicySpec.Isolates (ns : String) (spec : CIDRPolicySpec) : Prop :=
  pod.1 = ns ∧ spec.target.podSelector.Matches pod.2 ∧ ∃ rule ∈ spec.rules, rule.Includes direction

/-- A run for a policy that is not terminating. -/
def Run.Live : Run → Prop
  | reconcile policy | failure policy _ _ | attempt _ policy =>
    policy.metadata.deletionTimestamp = none
  | cleanup _ => False

/-- A call that deletes no NetworkPolicy and applies none but renderings. -/
def Call.Installs (policy : CIDRPolicy) : Call → Prop
  | patchNetworkPolicy _ _ _ patch => ∃ cidrs, patch.spec = some (policy.spec.rendered cidrs)
  | deleteNetworkPolicy _ _ => False
  | _ => True

end Isolates

section Programs
variable {K : Crates} {policy : CIDRPolicy}

theorem reconcile_installs (hlive : policy.metadata.deletionTimestamp = none) :
    (reconcile K policy).Makes (Call.Installs policy) := by
  refine (reconcile_warranted K policy).makes fun past call h => ?_
  cases call with
  | patchNetworkPolicy ns name params patch =>
    obtain ⟨-, -, -, r, hretrieved, rfl, -⟩ := h
    refine ⟨r.cidrs, ?_⟩
    rw [hretrieved.sound.rendered_eq]
    rfl
  | deleteNetworkPolicy ns name =>
    have hterminating := h.1
    rw [hlive] at hterminating
    cases hterminating
  | _ => trivial

theorem handleReconcileFailure_installs (policy : CIDRPolicy) (stage : ReconcileStage)
    (message : String) :
    (handleReconcileFailure K policy stage message).Makes (Call.Installs policy) := by
  refine (handleReconcileFailure_writes_nothing policy stage message).mono fun call h => ?_
  cases call with
  | patchNetworkPolicy ns name params patch => exact (h trivial).elim
  | deleteNetworkPolicy ns name => exact (h trivial).elim
  | _ => trivial

theorem Run.Live.installs {run : Run} (h : run.Live) :
    (run.task K).Makes (Call.Installs run.policy) := by
  cases run with
  | reconcile policy => exact (reconcile_installs h).discard
  | cleanup policy => exact h.elim
  | failure policy stage message => exact (handleReconcileFailure_installs policy _ _).discard
  | attempt context policy =>
    refine Program.Makes.discard ((reconcile_installs h).rescue fun error => ?_)
    exact (handleReconcileFailure_installs policy _ _).bind fun _ => trivial

end Programs

section Clusters
variable {K : Crates} {pod : String × StringMap} {direction : Direction} {key : Key}

/-- The rendering of a spec isolates what the spec asks for, whatever the CIDRs. -/
theorem CIDRPolicySpec.Isolates.rendered {spec : CIDRPolicySpec} {ns : String}
    (h : spec.Isolates pod direction ns) (cidrs : List NormalizedCidr) {np : NetworkPolicy}
    (hnp : np.spec = some (spec.rendered cidrs)) : np.Isolates K pod direction ns := by
  refine ⟨_, hnp, ?_⟩
  rw [rendered_access]
  exact ⟨⟨h.1, h.2.1⟩, h.2.2⟩

variable {applied : Apply} {policy : CIDRPolicy} {s : Cluster}

/-- A call for one policy keeps the isolation, if it is the policy of the key only by a rendering
that isolates as well. -/
theorem Cluster.Isolates.serve (hsets : Apply.Sets applied) (h : s.Isolates K pod direction key)
    {call : Call} (hwithin : call.Within policy)
    (hown : policy.metadata.ns = some key.1 → policy.managedNetworkPolicyName = key.2 →
      call.Installs policy ∧ policy.spec.Isolates pod direction key.1) (choice : Choice) :
    (Ipmaze.serve applied choice call s).2.Isolates K pod direction key := by
  by_cases hwritten : call.writtenNetworkPolicy = some key
  · obtain ⟨hns, hname⟩ := hwithin.writtenNetworkPolicy hwritten
    obtain ⟨hinstalls, hisolates⟩ := hown hns hname.symm
    cases call with
    | patchNetworkPolicy ns name params patch =>
      obtain rfl := Option.some.inj hwritten
      obtain ⟨cidrs, hpatch⟩ := hinstalls
      simp only [Ipmaze.serve, Delivery.write]
      cases choice.delivery.arrives with
      | false => exact h
      | true =>
        refine ⟨_, s.setNetworkPolicy_self _ _, hisolates.rendered cidrs ?_⟩
        exact (hsets _ _).spec.trans hpatch
    | deleteNetworkPolicy ns name => exact hinstalls.elim
    | _ => cases hwritten
  · rw [Cluster.Isolates, serve_networkPolicies applied choice call s key hwritten]
    exact h

/-- A pod that the NetworkPolicy of a policy isolates stays isolated by it in every interleaving of
the runs for that policy (as long as it is live and its spec, in all its editions, asks for the
isolation) with runs for other policies and with parties that keep the isolation: whatever the
endpoints answer and whichever calls fail, no moment lets through what nothing admits. -/
theorem isolation_persists {τ η : Type} [DecidableEq τ] (hsets : Apply.Sets applied)
    (runs : τ → Run)
    (hruns : ∀ t, (runs t).policy.metadata.ns = some key.1 →
      (runs t).policy.managedNetworkPolicyName = key.2 →
        (runs t).Live ∧ (runs t).policy.spec.Isolates pod direction key.1)
    (act : η → Cluster → Cluster)
    (hact : ∀ a s, s.Isolates K pod direction key → (act a s).Isolates K pod direction key)
    (s : Cluster) (h : s.Isolates K pod direction key) (moves : List (Move τ Choice η)) :
    (Pool.exec (api applied) act (.start s fun t => (runs t).task K) moves).state.Isolates K pod
      direction key := by
  let G (call : Call) : Prop := ∃ t, call.Within (runs t).policy ∧
    ((runs t).policy.metadata.ns = some key.1 →
      (runs t).policy.managedNetworkPolicyName = key.2 → call.Installs (runs t).policy)
  have hthread (t : τ) : ((runs t).task K).Reliant (fun _ _ => True) G fun _ => True := by
    have hwithin := (runs t).task_within K
    by_cases hkey : (runs t).policy.metadata.ns = some key.1 ∧
        (runs t).policy.managedNetworkPolicyName = key.2
    · have hinstalls := (hruns t hkey.1 hkey.2).1.installs (K := K)
      exact ((hinstalls.reliant (Program.yields_true _)).and_makes hwithin).mono
        fun call h => ⟨t, h.1, fun _ _ => h.2⟩
    · exact (hwithin.reliant (Program.yields_true _)).mono fun call h =>
        ⟨t, h, fun hns hname => absurd ⟨hns, hname⟩ hkey⟩
  have hstart : (Pool.start s fun t => (runs t).task K).Sound (fun _ _ => True) G
      (Cluster.Isolates K pod direction key) := ⟨h, hthread⟩
  have hserve : ∀ choice (call : Call) s, True → G call → s.Isolates K pod direction key →
      True ∧ (serve applied choice call s).2.Isolates K pod direction key := by
    rintro choice call s - ⟨t, hwithin, hinstalls⟩ hs
    refine ⟨trivial, hs.serve hsets hwithin (fun hns hname => ?_) choice⟩
    exact ⟨hinstalls hns hname, (hruns t hns hname).2⟩
  exact (hstart.exec hserve hact (Pool.along_of_choices fun _ _ _ _ => trivial)).state

end Clusters

namespace Sample

/-- A pod that the sample policy applies to. -/
def apiPod : String × StringMap := ("payments", Finmap.insert "app" "api" ∅)

theorem policy_isolates : policy.spec.Isolates apiPod .ingress "payments" := by
  refine ⟨rfl, ⟨?_, by simp [policy, policyWith, labelled]⟩, rule, List.mem_singleton_self _, ?_⟩
  · rintro required hrequired key value hvalue
    obtain rfl := Option.some.inj hrequired
    exact hvalue
  · rintro directions hdirections
    obtain rfl := Option.some.inj hdirections
    exact List.mem_singleton_self _

/-- The endpoint is down, and the API server acts on calls without saying so. -/
def brownout : Choice where
  http := .response 503 (.ok [])
  now := 0
  delivery := .unacknowledged (.api 504 "timeout")

end Sample

open Sample in
theorem isolation_persists_brownout :
    (Pool.exec (api replace) noOther
      (.start (cluster policy (some (policy.rendered "payments" [cidr])))
        fun t => (tenants t).task crates)
      [.serve false (choice 0), .serve true brownout, .serve false brownout]).state.Isolates crates
        apiPod .ingress ("payments", "office-allowlist-managed") := by
  refine isolation_persists (fun _ patch => .refl patch) tenants (fun t hns hname => ?_) noOther
    (fun a => a.elim) _ ?_ _
  · cases t with
    | false => exact ⟨rfl, policy_isolates⟩
    | true => exact absurd hname (by decide)
  · exact ⟨_, rfl, policy_isolates.rendered [cidr] rfl⟩

end Ipmaze
