import Ipmaze.Crates

/-! The outcome of a reconcile and its publication in the status. -/
namespace Ipmaze
open Effects

def statusFieldManager : String := "ipmaze-controller-status"

inductive ReconcileStage
  | validation
  | managedPolicyCollision
  | pointerRetrieval
  | pointerExtraction
  | transport
  | jsonDecode
  | jmesPathCompile
  | jmesPathEvaluate
  | resultShape
  | cidrValidation
  | selectorTranslation
  | scheduling
  | kubernetesApi
  deriving DecidableEq, Repr

def ReconcileStage.asStr : ReconcileStage → String
  | validation => "validation"
  | managedPolicyCollision => "managed-policy-collision"
  | pointerRetrieval => "pointer-retrieval"
  | pointerExtraction => "pointer-extraction"
  | transport => "transport"
  | jsonDecode => "json-decode"
  | jmesPathCompile => "jmespath-compile"
  | jmesPathEvaluate => "jmespath-evaluate"
  | resultShape => "result-shape"
  | cidrValidation => "cidr-validation"
  | selectorTranslation => "selector-translation"
  | scheduling => "scheduling"
  | kubernetesApi => "kubernetes-api"

inductive ReconcileOutcome
  | reconciled (observedCidrs : List String)
  | noChange (observedCidrs : List String)
  | failed (stage : ReconcileStage) (message : String)
  deriving DecidableEq, Repr

def ReconcileOutcome.isReconciled : ReconcileOutcome → Bool
  | reconciled _ => true
  | _ => false

def failureText (stage : ReconcileStage) (message : String) : String :=
  stage.asStr ++ ": " ++ message

variable (K : Crates)

/-- A success is stamped with the clock and forgets the last error; a failure keeps the last
success. -/
def statusForOutcome (policy : CIDRPolicy) : ReconcileOutcome → Task KubeError CIDRPolicyStatus
  | .reconciled observedCidrs | .noChange observedCidrs => do
    let now ← Task.utcNow
    return {
      lastSuccessfulResolutionTime := some (K.rfc3339 now)
      lastObservedCidrs := observedCidrs
      lastReconciliationError := none }
  | .failed stage message =>
    let current := policy.status.getD {}
    return {
      lastSuccessfulResolutionTime := current.lastSuccessfulResolutionTime
      lastObservedCidrs := current.lastObservedCidrs
      lastReconciliationError := some (failureText stage message) }

/-- Only a failure reads the policy again before it writes the status. -/
def patchStatusForOutcome (ns : String) (policy : CIDRPolicy) (outcome : ReconcileOutcome) :
    Task KubeError Unit := do
  let name := policy.nameAny
  let statusSource ← match outcome with
    | .failed _ _ => Task.getPolicy ns name
    | .reconciled _ | .noChange _ => pure policy
  let status ← statusForOutcome K statusSource outcome
  Task.patchStatus ns name (PatchParams.apply statusFieldManager) status

end Ipmaze
