import Ipmaze.Cluster
import Ipmaze.Reconcile.Footprint

/-! The runs the controller makes for one CIDRPolicy. -/
namespace Ipmaze
open Effects

/-- An attempt is a reconcile with, if it fails, the task that its error spawns. -/
inductive Run
  | reconcile (policy : CIDRPolicy)
  | cleanup (policy : CIDRPolicy)
  | failure (policy : CIDRPolicy) (stage : ReconcileStage) (message : String)
  | attempt (context : ControllerContext) (policy : CIDRPolicy)

variable (K : Crates)

def attempt (context : ControllerContext) (policy : CIDRPolicy) : Task KubeError Action :=
  (reconcile K policy).rescue fun error => do
    (errorPolicy K context policy error).1
    return (errorPolicy K context policy error).2

namespace Run

def policy : Run → CIDRPolicy
  | reconcile policy | cleanup policy | failure policy _ _ | attempt _ policy => policy

def task : Run → Task PUnit PUnit
  | reconcile policy => (Ipmaze.reconcile K policy).discard
  | cleanup policy => (Ipmaze.cleanup policy).discard
  | failure policy stage message => (handleReconcileFailure K policy stage message).discard
  | attempt context policy => (Ipmaze.attempt K context policy).discard

theorem task_within (r : Run) : (r.task K).Makes (Call.Within r.policy) := by
  cases r with
  | reconcile policy => exact (reconcile_within K policy).discard
  | cleanup policy => exact (cleanup_within policy).discard
  | failure policy stage message =>
    exact (handleReconcileFailure_within K policy stage message).discard
  | attempt context policy =>
    refine Program.Makes.discard ((reconcile_within K policy).rescue fun error => ?_)
    exact (handleReconcileFailure_within K policy _ _).bind fun _ => trivial

end Run

/-- What tells one CIDRPolicy from another. -/
abbrev Identity := Option String × String

def CIDRPolicy.identity (policy : CIDRPolicy) : Identity := (policy.metadata.ns, policy.nameAny)

def Run.owner (r : Run) : Identity := r.policy.identity

/-- Two snapshots of one object: whatever was edited, its names, namespace and uid were not. -/
structure CIDRPolicy.SameObject (p q : CIDRPolicy) : Prop where
  name : p.metadata.name = q.metadata.name
  generateName : p.metadata.generateName = q.metadata.generateName
  ns : p.metadata.ns = q.metadata.ns
  uid : p.metadata.uid = q.metadata.uid

namespace CIDRPolicy.SameObject
variable {p q : CIDRPolicy} (h : p.SameObject q)
include h

theorem nameAny : p.nameAny = q.nameAny := by
  simp only [CIDRPolicy.nameAny, h.name, h.generateName]

theorem managedNetworkPolicyName : p.managedNetworkPolicyName = q.managedNetworkPolicyName := by
  simp only [CIDRPolicy.managedNetworkPolicyName, h.name]

theorem controllerOwnerRef : p.controllerOwnerRef = q.controllerOwnerRef := by
  simp only [CIDRPolicy.controllerOwnerRef, h.name, h.uid]

theorem isManaged (np : NetworkPolicy) :
    isManagedNetworkPolicyFor p np = isManagedNetworkPolicyFor q np := by
  simp only [isManagedNetworkPolicyFor, h.nameAny, h.controllerOwnerRef]

theorem renderedMetadata (ns : String) : p.renderedMetadata ns = q.renderedMetadata ns := by
  simp only [CIDRPolicy.renderedMetadata, managedAnnotations, h.managedNetworkPolicyName,
    h.nameAny, h.controllerOwnerRef]

theorem within {call : Call} (hcall : call.Within p) : call.Within q := by
  cases call with
  | httpGet url => trivial
  | utcNow => trivial
  | publishEvent event reference => trivial
  | getNetworkPolicy ns name | deleteNetworkPolicy ns name =>
    exact ⟨h.ns.symm.trans hcall.1, hcall.2.trans h.managedNetworkPolicyName⟩
  | patchNetworkPolicy ns name params patch =>
    exact ⟨h.ns.symm.trans hcall.1, hcall.2.1.trans h.managedNetworkPolicyName,
      hcall.2.2.trans (h.renderedMetadata ns)⟩
  | getPolicy ns name | patchStatus ns name params patch =>
    exact ⟨h.ns.symm.trans hcall.1, hcall.2.trans h.nameAny⟩

end CIDRPolicy.SameObject
end Ipmaze
