import Ipmaze.Kube
import Ipmaze.Extract

/-! Rendering of the managed NetworkPolicy and proof of its ownership. -/
namespace Ipmaze
open Effects

def managedByLabel : String := "app.kubernetes.io/managed-by"
def managedByValue : String := "ipmaze-controller"
def sourcePolicyAnnotation : String := "ipmaze.k8s.justin.directory/source-policy"
def fieldManager : String := "ipmaze-controller"

inductive RenderError
  | missingNamespace
  | missingSelectorValues (key operator : String)
  | unexpectedSelectorValues (key operator : String)
  deriving DecidableEq, Repr

namespace RenderError

def message : RenderError → String
  | missingNamespace => "CIDRPolicy must have a namespace before rendering a managed NetworkPolicy"
  | missingSelectorValues key operator =>
    "selector expression `" ++ key ++ "` is missing values for operator `" ++ operator ++ "`"
  | unexpectedSelectorValues key operator =>
    "selector expression `" ++ key ++ "` must not include values for operator `" ++
      operator ++ "`"

end RenderError

/-- An absent direction list stands for both directions. -/
def effectiveDirections (rule : RuleSpec) : BTreeSet Direction :=
  match rule.directions with
  | some directions => .ofList directions
  | none => .ofList [.ingress, .egress]

def renderOperator (requirement : LabelSelectorRequirement) : Except RenderError String :=
  let noValues := match requirement.values with
    | none => true
    | some values => values.isEmpty
  match requirement.operator with
  | .In => if noValues then .error (.missingSelectorValues requirement.key "In") else .ok "In"
  | .NotIn =>
    if noValues then .error (.missingSelectorValues requirement.key "NotIn") else .ok "NotIn"
  | .Exists =>
    if requirement.values.isSome then .error (.unexpectedSelectorValues requirement.key "Exists")
    else .ok "Exists"
  | .DoesNotExist =>
    if requirement.values.isSome then
      .error (.unexpectedSelectorValues requirement.key "DoesNotExist")
    else .ok "DoesNotExist"

def renderRequirement (requirement : LabelSelectorRequirement) :
    Except RenderError KubeLabelSelectorRequirement := do
  let operator ← renderOperator requirement
  return { key := requirement.key, operator, values := requirement.values }

/-- Render what is present, and report the error of rendering it. -/
def transposeMap {α β : Type} (f : α → Except RenderError β) :
    Option α → Except RenderError (Option β)
  | none => .ok none
  | some a => do
    let b ← f a
    return some b

def renderSelector (selector : LabelSelector) : Except RenderError KubeLabelSelector := do
  let matchExpressions ← transposeMap (List.mapM renderRequirement) selector.matchExpressions
  return { matchLabels := selector.matchLabels, matchExpressions }

def renderSubjectSelector (selector : LabelSelector) : Except RenderError KubeLabelSelector :=
  renderSelector selector

def renderPeerSelector (rule : RuleSpec) : Except RenderError NetworkPolicyPeer := do
  let namespaceSelector ← transposeMap renderSelector rule.namespaceSelector
  let podSelector ← transposeMap renderSelector rule.podSelector
  return { ipBlock := none, namespaceSelector, podSelector }

def blockPeer (cidr : NormalizedCidr) : NetworkPolicyPeer where
  ipBlock := some { cidr := cidr.rendered, except := none }

def buildPeers (rule : RuleSpec) (cidrs : List NormalizedCidr) :
    Except RenderError (List NetworkPolicyPeer) := do
  let peers ←
    if rule.namespaceSelector.isSome ∨ rule.podSelector.isSome then do
      let peer ← renderPeerSelector rule
      pure [peer]
    else pure []
  return peers ++ cidrs.map blockPeer

/-- The rules of one direction, in the order of the spec. -/
def buildDirectionRules {β : Type} (direction : Direction) (build : List NetworkPolicyPeer → β)
    (rules : List RuleSpec) (cidrs : List NormalizedCidr) : Except RenderError (List β) :=
  (rules.filter fun rule => direction ∈ effectiveDirections rule).mapM fun rule => do
    let peers ← buildPeers rule cidrs
    return build peers

def buildIngressRules (rules : List RuleSpec) (cidrs : List NormalizedCidr) :
    Except RenderError (List NetworkPolicyIngressRule) :=
  buildDirectionRules .ingress (fun peers => { fromPeers := some peers, ports := none }) rules cidrs

def buildEgressRules (rules : List RuleSpec) (cidrs : List NormalizedCidr) :
    Except RenderError (List NetworkPolicyEgressRule) :=
  buildDirectionRules .egress (fun peers => { ports := none, toPeers := some peers }) rules cidrs

def Direction.policyType : Direction → String
  | ingress => "Ingress"
  | egress => "Egress"

def buildPolicyTypes (rules : List RuleSpec) : List String :=
  (BTreeSet.ofList (rules.flatMap fun rule =>
    (effectiveDirections rule).toList.map Direction.policyType)).toList

def managedLabels : StringMap := Finmap.insert managedByLabel managedByValue ∅

def managedAnnotations (policy : CIDRPolicy) : StringMap :=
  Finmap.insert sourcePolicyAnnotation policy.nameAny ∅

def buildManagedNetworkPolicy (policy : CIDRPolicy) (cidrs : List NormalizedCidr) :
    Except RenderError NetworkPolicy := do
  let ns ← policy.metadata.ns.elim (.error .missingNamespace) .ok
  let name := policy.managedNetworkPolicyName
  let subjectSelector ← renderSubjectSelector policy.spec.target.podSelector
  let ingress ← buildIngressRules policy.spec.rules cidrs
  let egress ← buildEgressRules policy.spec.rules cidrs
  let policyTypes := buildPolicyTypes policy.spec.rules
  return {
    metadata := {
      name := some name
      ns := some ns
      labels := some managedLabels
      annotations := some (managedAnnotations policy)
      ownerReferences := policy.controllerOwnerRef.map fun owner => [owner] }
    spec := some {
      egress := some egress
      ingress := some ingress
      podSelector := subjectSelector
      policyTypes := some policyTypes } }

/-- The label, the annotation and one of the owner references all have to match. -/
def isManagedNetworkPolicyFor (policy : CIDRPolicy) (networkPolicy : NetworkPolicy) : Bool :=
  let labelsMatch :=
    (networkPolicy.metadata.labels.bind fun labels => labels.lookup managedByLabel) ==
      some managedByValue
  let annotationMatches :=
    (networkPolicy.metadata.annotations.bind fun annotations =>
      annotations.lookup sourcePolicyAnnotation) == some policy.nameAny
  let ownerMatches := policy.controllerOwnerRef.any fun owner =>
    networkPolicy.metadata.ownerReferences.any fun owners =>
      owners.any fun candidate => candidate == owner
  labelsMatch && annotationMatches && ownerMatches

def applyManagedNetworkPolicy (ns : String) (networkPolicy : NetworkPolicy) :
    Task KubeError Unit :=
  Task.patchNetworkPolicy ns (networkPolicy.metadata.name.getD "")
    (PatchParams.apply fieldManager).forced networkPolicy

end Ipmaze
