import Ipmaze.Netpol
import Ipmaze.Status
import Ipmaze.Validation

/-! Reconciliation of one CIDRPolicy, its cleanup, and the publication of failures. -/
namespace Ipmaze
open Effects

/-- Nanoseconds. -/
abbrev Duration := ℕ

inductive Action
  | awaitChange
  | requeue (after : Duration)
  deriving DecidableEq, Repr

structure ControllerContext where
  requeueAfter : Duration

inductive ReconcileError
  | validation (error : ValidationError)
  | managedPolicyCollision (name : String)
  | fetch (error : FetchError)
  | extract (error : ExtractionError)
  | render (error : RenderError)
  | scheduling (error : String)
  | kubernetesApi (error : KubeError)
  deriving DecidableEq, Repr

namespace ReconcileError

def message : ReconcileError → String
  | validation error => error.message
  | managedPolicyCollision name => "managed NetworkPolicy collision for " ++ name
  | fetch error => error.message
  | extract error => error.message
  | render error => error.message
  | scheduling error => "unable to calculate next resync: " ++ error
  | kubernetesApi error => error.message

def stage : ReconcileError → ReconcileStage
  | validation (.invalidJmesPath _) => .jmesPathCompile
  | validation _ => .validation
  | managedPolicyCollision _ => .managedPolicyCollision
  | fetch (.pointerRetrieval _) => .pointerRetrieval
  | fetch .pointerExtractionNoMatch | fetch .pointerExtractionEmptyCapture
  | fetch (.pointerResolvedAddress _) => .pointerExtraction
  | fetch (.finalRetrieval _) => .transport
  | fetch (.invalidJson _) => .jsonDecode
  | extract (.evaluate _) => .jmesPathEvaluate
  | extract .resultNotArray | extract .resultElementNotString => .resultShape
  | extract (.invalidCidr _) => .cidrValidation
  | extract _ => .jmesPathEvaluate
  | render _ => .selectorTranslation
  | scheduling _ => .scheduling
  | kubernetesApi _ => .kubernetesApi

end ReconcileError

def publishPolicyEvent (policy : CIDRPolicy) (eventType : EventType) (reason action : String)
    (note : Option String) (secondary : Option NetworkPolicy) : Task KubeError Unit :=
  Task.publishEvent
    { eventType, reason, note, action, secondary := secondary.map NetworkPolicy.objectRef }
    policy.objectRef

def reportManagedPolicyCollision (policy : CIDRPolicy) (networkPolicy : NetworkPolicy)
    (action : String) : Task KubeError Unit :=
  publishPolicyEvent policy .warning "ManagedPolicyCollision" action
    (some ("Refusing to " ++ Text.toLowercase action ++ " NetworkPolicy " ++
      policy.managedNetworkPolicyName ++
      " because an existing resource with that name is not owned by this CIDRPolicy"))
    (some networkPolicy)

def getManagedNetworkPolicy (ns : String) (policy : CIDRPolicy) (action : String) :
    Task ReconcileError (Option NetworkPolicy) := do
  let found ← (Task.getNetworkPolicy ns policy.managedNetworkPolicyName).mapError .kubernetesApi
  match found with
  | some networkPolicy =>
    if isManagedNetworkPolicyFor policy networkPolicy then return some networkPolicy
    else do
      (reportManagedPolicyCollision policy networkPolicy action).mapError .kubernetesApi
      .fail (.managedPolicyCollision policy.managedNetworkPolicyName)
  | none => return none

/-- A NetworkPolicy that is already gone is not an error. -/
def deleteManagedNetworkPolicy (ns : String) (policy : CIDRPolicy) (exists_ : Bool) :
    Task ReconcileError Bool :=
  if exists_ then do
    let answer ←
      (Task.deleteNetworkPolicy ns policy.managedNetworkPolicyName).mapError .kubernetesApi
    match answer with
    | .ok _ => return true
    | .error (.api 404 _) => return false
    | .error error => .fail (.kubernetesApi error)
  else return false

def managedPolicyMatches (current desired : NetworkPolicy) : Bool :=
  current.spec == desired.spec &&
    current.metadata.labels == desired.metadata.labels &&
    current.metadata.annotations == desired.metadata.annotations &&
    current.metadata.ownerReferences == desired.metadata.ownerReferences

def classifyOutcome (existing : Option NetworkPolicy) (desired : NetworkPolicy)
    (observedCidrs : List String) : ReconcileOutcome :=
  match existing with
  | some current =>
    if managedPolicyMatches current desired then .noChange observedCidrs
    else .reconciled observedCidrs
  | none => .reconciled observedCidrs

def publishOutcomeEvent (policy : CIDRPolicy) (managedPolicy : Option NetworkPolicy) :
    ReconcileOutcome → Task KubeError Unit
  | .reconciled observedCidrs =>
    publishPolicyEvent policy .normal "Reconciled" "Reconcile"
      (some ("Reconciled managed NetworkPolicy with " ++ toString observedCidrs.length ++
        " CIDR entries"))
      managedPolicy
  | .noChange _ | .failed _ _ => return ()

def cleanup (policy : CIDRPolicy) : Task ReconcileError Unit := do
  let ns ← .ofExcept (policy.metadata.ns.elim (.error (.render .missingNamespace)) .ok)
  let existing ← getManagedNetworkPolicy ns policy "Cleanup"
  let deleted ← deleteManagedNetworkPolicy ns policy existing.isSome
  let note :=
    if deleted then
      "Deleted managed NetworkPolicy " ++ policy.managedNetworkPolicyName ++
        " during CIDRPolicy cleanup"
    else
      "Managed NetworkPolicy " ++ policy.managedNetworkPolicyName ++
        " was already absent during CIDRPolicy cleanup"
  (publishPolicyEvent policy .normal "CleanupManagedPolicy" "Cleanup" (some note) none).mapError
    .kubernetesApi

variable (K : Crates)

def nextResyncAfter (schedule : K.Schedule) (now : Instant) : Except String Duration :=
  match K.nextAfter schedule now with
  | none => .error "schedule did not produce a future execution"
  | some next =>
    if next < now then .error "Source duration value is out of range for the target type"
    else if next = now then .ok 1000000000
    else .ok (next - now).toNat

def scheduleRequeueAfter (schedule : K.Schedule) : Task ReconcileError Duration := do
  let now ← Task.utcNow
  .ofExcept ((nextResyncAfter K schedule now).mapError .scheduling)

def reconcile (policy : CIDRPolicy) : Task ReconcileError Action :=
  if policy.metadata.deletionTimestamp.isSome then do
    cleanup policy
    return .awaitChange
  else do
    let validated ← .ofExcept ((validatePolicy K policy).mapError .validation)
    let resolvedSource ←
      (resolveFinalSource K validated.sourceAddress validated.pointerRegex).mapError .fetch
    let payload ← (fetchJson K resolvedSource.finalAddress).mapError .fetch
    let query ← .ofExcept ((compileQuery K policy.spec.source.jmesPath).mapError
      fun error => .validation (.invalidJmesPath error))
    let cidrs ← .ofExcept ((extractCidrs K query payload).mapError .extract)
    let rendered ← .ofExcept ((buildManagedNetworkPolicy policy cidrs).mapError .render)
    let observedCidrs := cidrs.map NormalizedCidr.rendered
    let ns ← .ofExcept (policy.metadata.ns.elim (.error (.render .missingNamespace)) .ok)
    let existing ← getManagedNetworkPolicy ns policy "Reconcile"
    let outcome := classifyOutcome existing rendered observedCidrs
    (if outcome.isReconciled then
      (applyManagedNetworkPolicy ns rendered).mapError .kubernetesApi else .ret ())
    (patchStatusForOutcome K ns policy outcome).mapError .kubernetesApi
    (publishOutcomeEvent policy (some rendered) outcome).mapError .kubernetesApi
    let after ← scheduleRequeueAfter K validated.resyncSchedule
    return .requeue after

def handleReconcileFailure (policy : CIDRPolicy) (stage : ReconcileStage) (message : String) :
    Task KubeError Unit :=
  match policy.metadata.ns with
  | none => return ()
  | some ns => do
    patchStatusForOutcome K ns policy (.failed stage message)
    publishPolicyEvent policy .warning "ReconcileFailed" "Reconcile"
      (some (failureText stage message)) none

/-- The task spawned for a failed reconcile, and when the policy is tried again. -/
def errorPolicy (context : ControllerContext) (policy : CIDRPolicy) (error : ReconcileError) :
    Task KubeError Unit × Action :=
  (handleReconcileFailure K policy error.stage error.message, .requeue context.requeueAfter)

end Ipmaze
