import Ipmaze.Calls
import Mathlib.Logic.Function.Basic

/-! The API server and the other parties a call meets. What they are free to do is a choice
made for each call: the answer of a remote endpoint, the clock, and whether an API call is
delivered. A call that fails may have taken effect. -/
namespace Ipmaze
open Effects

abbrev Key := String × String

structure Cluster where
  networkPolicies : Key → Option NetworkPolicy
  policies : Key → Option CIDRPolicy
  events : List (Event × ObjectReference)

inductive Delivery
  | delivered
  | lost (error : KubeError)
  | unacknowledged (error : KubeError)
  deriving DecidableEq, Repr

namespace Delivery

/-- The answer the caller receives in place of the answer of the server. -/
def receive {α : Type} (answer : Except KubeError α) : Delivery → Except KubeError α
  | delivered => answer
  | lost error => .error error
  | unacknowledged error => .error error

/-- Whether the server gets to act on the call. -/
def arrives : Delivery → Bool
  | delivered => true
  | lost _ => false
  | unacknowledged _ => true

theorem arrives_of_receive {delivery : Delivery} {α : Type} {answer : Except KubeError α} {a : α}
    (h : delivery.receive answer = .ok a) : delivery.arrives := by
  cases delivery with
  | delivered => rfl
  | lost error => cases h
  | unacknowledged error => rfl

theorem receive_ok_iff {delivery : Delivery} {α : Type} {answer : Except KubeError α} {a : α} :
    delivery.receive answer = .ok a ↔ delivery = .delivered ∧ answer = .ok a := by
  cases delivery <;> simp [receive]

end Delivery

structure Choice where
  http : HttpAnswer
  now : Instant
  delivery : Delivery

/-- What the server stores for a forced apply, given the object stored so far. -/
abbrev Apply := Option NetworkPolicy → NetworkPolicy → NetworkPolicy

def notFound : KubeError := .api 404 "not found"

namespace Cluster

def setNetworkPolicy (s : Cluster) (key : Key) (stored : Option NetworkPolicy) : Cluster :=
  { s with networkPolicies := Function.update s.networkPolicies key stored }

def setPolicy (s : Cluster) (key : Key) (stored : Option CIDRPolicy) : Cluster :=
  { s with policies := Function.update s.policies key stored }

@[simp] theorem setNetworkPolicy_self (s : Cluster) (key : Key) (x : Option NetworkPolicy) :
    (s.setNetworkPolicy key x).networkPolicies key = x := by simp [setNetworkPolicy]

theorem setNetworkPolicy_of_ne (s : Cluster) {key key' : Key} (x : Option NetworkPolicy)
    (h : key' ≠ key) : (s.setNetworkPolicy key x).networkPolicies key' = s.networkPolicies key' := by
  simp [setNetworkPolicy, h]

@[simp] theorem setNetworkPolicy_policies (s : Cluster) (key : Key) (x : Option NetworkPolicy) :
    (s.setNetworkPolicy key x).policies = s.policies := rfl

@[simp] theorem setPolicy_self (s : Cluster) (key : Key) (x : Option CIDRPolicy) :
    (s.setPolicy key x).policies key = x := by simp [setPolicy]

theorem setPolicy_of_ne (s : Cluster) {key key' : Key} (x : Option CIDRPolicy)
    (h : key' ≠ key) : (s.setPolicy key x).policies key' = s.policies key' := by
  simp [setPolicy, h]

@[simp] theorem setPolicy_networkPolicies (s : Cluster) (key : Key) (x : Option CIDRPolicy) :
    (s.setPolicy key x).networkPolicies = s.networkPolicies := rfl

/-- The NetworkPolicy stored under the managed name of a CIDRPolicy. -/
def managed (s : Cluster) (policy : CIDRPolicy) : Option NetworkPolicy :=
  policy.metadata.ns.bind fun ns => s.networkPolicies (ns, policy.managedNetworkPolicyName)

/-- The stored copy of a CIDRPolicy. -/
def stored (s : Cluster) (policy : CIDRPolicy) : Option CIDRPolicy :=
  policy.metadata.ns.bind fun ns => s.policies (ns, policy.nameAny)

variable {policy : CIDRPolicy} {ns : String}

theorem managed_eq (hns : policy.metadata.ns = some ns) (s : Cluster) :
    s.managed policy = s.networkPolicies (ns, policy.managedNetworkPolicyName) := by
  rw [managed, hns]
  rfl

theorem stored_eq (hns : policy.metadata.ns = some ns) (s : Cluster) :
    s.stored policy = s.policies (ns, policy.nameAny) := by
  rw [stored, hns]
  rfl

end Cluster

/-- The server acts on a write that arrives, and the caller may or may not hear of it. -/
def Delivery.write (delivery : Delivery) (before after : Cluster) :
    Except KubeError Unit × Cluster :=
  (delivery.receive (.ok ()), if delivery.arrives then after else before)

/-- A merge patch replaces the three fields of the status. -/
def CIDRPolicy.withStatus (policy : CIDRPolicy) (status : CIDRPolicyStatus) : CIDRPolicy :=
  { policy with status := some status }

def serve (applied : Apply) (choice : Choice) :
    (call : Call) → Cluster → call.Answer × Cluster
  | .httpGet _, s => (choice.http, s)
  | .utcNow, s => (choice.now, s)
  | .getNetworkPolicy ns name, s =>
    (choice.delivery.receive (.ok (s.networkPolicies (ns, name))), s)
  | .patchNetworkPolicy ns name _ patch, s =>
    choice.delivery.write s
      (s.setNetworkPolicy (ns, name) (some (applied (s.networkPolicies (ns, name)) patch)))
  | .deleteNetworkPolicy ns name, s =>
    match s.networkPolicies (ns, name) with
    | some _ => choice.delivery.write s (s.setNetworkPolicy (ns, name) none)
    | none => (choice.delivery.receive (.error notFound), s)
  | .getPolicy ns name, s =>
    (choice.delivery.receive
      (match s.policies (ns, name) with
        | some policy => .ok policy
        | none => .error notFound), s)
  | .patchStatus ns name _ patch, s =>
    match s.policies (ns, name) with
    | some policy =>
      choice.delivery.write s (s.setPolicy (ns, name) (some (policy.withStatus patch)))
    | none => (choice.delivery.receive (.error notFound), s)
  | .publishEvent event reference, s =>
    choice.delivery.write s { s with events := s.events ++ [(event, reference)] }

/-- The service the controller's programs run against. -/
def api (applied : Apply) : Service Calls Choice Cluster := serve applied

namespace Call

/-- The key of the NetworkPolicy a call writes. -/
def writtenNetworkPolicy : Call → Option Key
  | patchNetworkPolicy ns name _ _ => some (ns, name)
  | deleteNetworkPolicy ns name => some (ns, name)
  | _ => none

/-- The key of the CIDRPolicy whose status a call writes. -/
def writtenStatus : Call → Option Key
  | patchStatus ns name _ _ => some (ns, name)
  | _ => none

end Call

variable (applied : Apply)

/-- A NetworkPolicy changes only through a call that writes its key. -/
theorem serve_networkPolicies (choice : Choice) (call : Call) (s : Cluster) (key : Key)
    (h : call.writtenNetworkPolicy ≠ some key) :
    (serve applied choice call s).2.networkPolicies key = s.networkPolicies key := by
  cases call with
  | httpGet url => rfl
  | utcNow => rfl
  | getNetworkPolicy ns name => rfl
  | patchNetworkPolicy ns name params patch =>
    have hkey : key ≠ (ns, name) := fun he => h (by rw [he]; rfl)
    simp only [serve, Delivery.write]
    split
    · exact s.setNetworkPolicy_of_ne _ hkey
    · rfl
  | deleteNetworkPolicy ns name =>
    have hkey : key ≠ (ns, name) := fun he => h (by rw [he]; rfl)
    simp only [serve]
    split
    · simp only [Delivery.write]
      split
      · exact s.setNetworkPolicy_of_ne _ hkey
      · rfl
    · rfl
  | getPolicy ns name => rfl
  | patchStatus ns name params patch =>
    simp only [serve]
    split
    · simp only [Delivery.write]
      split <;> rfl
    · rfl
  | publishEvent event reference =>
    simp only [serve, Delivery.write]
    split <;> rfl

/-- A CIDRPolicy changes only through a call that writes its status. -/
theorem serve_policies (choice : Choice) (call : Call) (s : Cluster) (key : Key)
    (h : call.writtenStatus ≠ some key) :
    (serve applied choice call s).2.policies key = s.policies key := by
  cases call with
  | httpGet url => rfl
  | utcNow => rfl
  | getNetworkPolicy ns name => rfl
  | patchNetworkPolicy ns name params patch =>
    simp only [serve, Delivery.write]
    split <;> rfl
  | deleteNetworkPolicy ns name =>
    simp only [serve]
    split
    · simp only [Delivery.write]
      split <;> rfl
    · rfl
  | getPolicy ns name => rfl
  | patchStatus ns name params patch =>
    have hkey : key ≠ (ns, name) := fun he => h (by rw [he]; rfl)
    simp only [serve]
    split
    · simp only [Delivery.write]
      split
      · exact s.setPolicy_of_ne _ hkey
      · rfl
    · rfl
  | publishEvent event reference =>
    simp only [serve, Delivery.write]
    split <;> rfl

end Ipmaze
