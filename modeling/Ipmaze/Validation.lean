import Ipmaze.Source
import Ipmaze.Extract

/-! Validation of a CIDRPolicy before anything is retrieved. -/
namespace Ipmaze

def defaultResyncSchedule : String := "0 0 * * *"

structure ValidatedPolicy (K : Crates) where
  sourceAddress : NormalizedRemoteAddress
  pointerRegex : Option K.Regex
  resyncSchedule : K.Schedule

inductive ValidationError
  | invalidSourceAddress (error : SourceAddressError)
  | invalidJmesPath (error : String)
  | invalidPointerRegex (error : String)
  | invalidResyncScheduleShape
  | invalidResyncSchedule (error : String)
  | emptyRules
  | ruleMissingSelector
  | emptyDirections
  | missingSelectorKey (operator : String)
  | selectorValuesRequired (key operator : String)
  | selectorValuesForbidden (key operator : String)
  deriving DecidableEq, Repr

namespace ValidationError

def message : ValidationError → String
  | invalidSourceAddress error => error.message
  | invalidJmesPath error => error
  | invalidPointerRegex error => "pointer regex is invalid: " ++ error
  | invalidResyncScheduleShape => "resync schedule must use standard 5-field cron syntax"
  | invalidResyncSchedule error => "resync schedule is invalid: " ++ error
  | emptyRules => "rules must not be empty"
  | ruleMissingSelector => "each rule must declare at least one selector"
  | emptyDirections => "direction list, when present, must not be empty"
  | missingSelectorKey operator =>
    "selector requirement `" ++ operator ++ "` is missing a key"
  | selectorValuesRequired key operator =>
    "selector requirement `" ++ key ++ "` with operator `" ++ operator ++
      "` requires non-empty values"
  | selectorValuesForbidden key operator =>
    "selector requirement `" ++ key ++ "` with operator `" ++ operator ++
      "` must not include values"

end ValidationError

def LabelSelectorOperator.asStr : LabelSelectorOperator → String
  | In => "In"
  | NotIn => "NotIn"
  | Exists => "Exists"
  | DoesNotExist => "DoesNotExist"

def validateSelectorRequirement (requirement : LabelSelectorRequirement) :
    Except ValidationError Unit :=
  if Text.trim requirement.key = "" then
    .error (.missingSelectorKey requirement.operator.asStr)
  else match requirement.operator with
    | .In | .NotIn =>
      match requirement.values.filter (· ≠ []) with
      | some _ => .ok ()
      | none => .error (.selectorValuesRequired requirement.key requirement.operator.asStr)
    | .Exists | .DoesNotExist =>
      if requirement.values.isSome then
        .error (.selectorValuesForbidden requirement.key requirement.operator.asStr)
      else .ok ()

def validateSelector (selector : LabelSelector) : Except ValidationError Unit :=
  match selector.matchExpressions with
  | some requirements => requirements.forM validateSelectorRequirement
  | none => .ok ()

/-- A selector that is absent is not validated. -/
def validateOptionalSelector : Option LabelSelector → Except ValidationError Unit
  | some selector => validateSelector selector
  | none => .ok ()

def validateRule (rule : RuleSpec) : Except ValidationError Unit :=
  if rule.podSelector.isNone ∧ rule.namespaceSelector.isNone then .error .ruleMissingSelector
  else if rule.directions = some [] then .error .emptyDirections
  else do
    validateOptionalSelector rule.podSelector
    validateOptionalSelector rule.namespaceSelector

variable (K : Crates)

def validatePointerRegex : Option String → Except ValidationError (Option K.Regex)
  | none => .ok none
  | some regex => do
    let compiled ← (K.compileRegex regex).mapError .invalidPointerRegex
    return some compiled

/-- The five fields of the schedule are prefixed with second 0. -/
def validateResyncSchedule (schedule : Option String) : Except ValidationError K.Schedule :=
  let schedule := schedule.getD defaultResyncSchedule
  if (Text.splitWhitespace schedule).length ≠ 5 then .error .invalidResyncScheduleShape
  else (K.parseSchedule ("0 " ++ schedule)).mapError .invalidResyncSchedule

def validateSpec (spec : CIDRPolicySpec) : Except ValidationError (ValidatedPolicy K) :=
  if spec.rules = [] then .error .emptyRules
  else do
    let sourceAddress ←
      (normalizeSourceAddress K spec.source.address).mapError .invalidSourceAddress
    let pointerRegex ← validatePointerRegex K (spec.source.pointer.map PointerSpec.regex)
    let _ ← (compileQuery K spec.source.jmesPath).mapError .invalidJmesPath
    let resyncSchedule ← validateResyncSchedule K spec.resyncSchedule
    validateSelector spec.target.podSelector
    spec.rules.forM validateRule
    return { sourceAddress, pointerRegex, resyncSchedule }

def validatePolicy (policy : CIDRPolicy) : Except ValidationError (ValidatedPolicy K) :=
  validateSpec K policy.spec

end Ipmaze
