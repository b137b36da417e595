import Ipmaze.Data.JsonSchema
import Ipmaze.Validation
import Mathlib.Data.Finset.Sort

/-! The schema contract of the repository, `policy.schema.json`, and the documents that specs and
statuses serialize to. -/
namespace Ipmaze

section Documents
open Json

/-- The entries in the order of their keys. -/
def StringMap.toJson (entries : StringMap) : Json :=
  object ((entries.keys.sort (· ≤ ·)).map fun key =>
    (key, string ((entries.lookup key).getD "")))

def texts (values : List String) : Json := array (values.map string)

def Direction.toJson : Direction → Json
  | ingress => string "ingress"
  | egress => string "egress"

/-- A variant is written as its name. -/
def LabelSelectorOperator.toJson (operator : LabelSelectorOperator) : Json :=
  string operator.asStr

def LabelSelectorRequirement.toJson (requirement : LabelSelectorRequirement) : Json :=
  record [
    ("key", some (string requirement.key)),
    ("operator", some requirement.operator.toJson),
    ("values", requirement.values.map texts)]

def LabelSelector.toJson (selector : LabelSelector) : Json :=
  record [
    ("matchLabels", selector.matchLabels.map StringMap.toJson),
    ("matchExpressions", selector.matchExpressions.map fun requirements =>
      array (requirements.map LabelSelectorRequirement.toJson))]

def RuleSpec.toJson (rule : RuleSpec) : Json :=
  record [
    ("directions", rule.directions.map fun directions => array (directions.map Direction.toJson)),
    ("podSelector", rule.podSelector.map LabelSelector.toJson),
    ("namespaceSelector", rule.namespaceSelector.map LabelSelector.toJson)]

def TargetSpec.toJson (target : TargetSpec) : Json :=
  record [("podSelector", some target.podSelector.toJson)]

def PointerSpec.toJson (pointer : PointerSpec) : Json :=
  record [("regex", some (string pointer.regex))]

def SourceSpec.toJson (source : SourceSpec) : Json :=
  record [
    ("address", some (string source.address)),
    ("pointer", source.pointer.map PointerSpec.toJson),
    ("jmesPath", some (string source.jmesPath))]

def CIDRPolicySpec.toJson (spec : CIDRPolicySpec) : Json :=
  record [
    ("source", some spec.source.toJson),
    ("resyncSchedule", spec.resyncSchedule.map string),
    ("target", some spec.target.toJson),
    ("rules", some (array (spec.rules.map RuleSpec.toJson)))]

end Documents

namespace PolicySchema
open Schema

section Patterns
open Regex

def range (low high : Char) : Regex Char := set fun c => low ≤ c && c ≤ high
def digit : Regex Char := range '0' '9'
def text (characters : String) : Regex Char := word characters.toList

/-- White space of ECMAScript, which the patterns of JSON Schema are written in. -/
def isSpace (c : Char) : Bool :=
  let n := c.toNat
  (9 ≤ n && n ≤ 13) || n == 0x20 || n == 0xA0 || n == 0x1680 || (0x2000 ≤ n && n ≤ 0x200A) ||
    n == 0x2028 || n == 0x2029 || n == 0x202F || n == 0x205F || n == 0x3000 || n == 0xFEFF

def space : Regex Char := set isSpace
def nonSpace : Regex Char := set fun c => !isSpace c

/-- `^\S+(?:\s+\S+){4}$` -/
def schedulePattern : Regex Char :=
  seq (plus nonSpace) (times (seq (plus space) (plus nonSpace)) 4)

/-- `^https?://` -/
def urlPattern : Regex Char :=
  seq (text "http") (seq (opt (text "s")) (seq (text "://") (star (set fun _ => true))))

/-- `25[0-5]|2[0-4][0-9]|1?[0-9]{1,2}` -/
def octet : Regex Char :=
  alt (seq (text "25") (range '0' '5'))
    (alt (seq (text "2") (seq (range '0' '4') digit))
      (seq (opt (text "1")) (seq digit (opt digit))))

/-- `3[0-2]|[12]?[0-9]` -/
def prefixV4 : Regex Char :=
  alt (seq (text "3") (range '0' '2')) (seq (opt (range '1' '2')) digit)

/-- `12[0-8]|1[01][0-9]|[1-9]?[0-9]` -/
def prefixV6 : Regex Char :=
  alt (seq (text "12") (range '0' '8'))
    (alt (seq (text "1") (seq (range '0' '1') digit)) (seq (opt (range '1' '9')) digit))

/-- An octet and three more behind dots, and a prefix length. -/
def cidrV4Pattern : Regex Char :=
  seq octet (seq (times (seq (text ".") octet) 3) (seq (text "/") prefixV4))

/-- `[0-9A-Fa-f:.]` -/
def isAddressChar (c : Char) : Bool :=
  ('0' ≤ c && c ≤ '9') || ('A' ≤ c && c ≤ 'F') || ('a' ≤ c && c ≤ 'f') || c == ':' || c == '.'

def cidrV6Pattern : Regex Char := seq (plus (set isAddressChar)) (seq (text "/") prefixV6)

end Patterns

def stringMap : Schema := allOf [type .object, properties [] (type .string)]

def direction : Schema := allOf [type .string, enum ["ingress", "egress"]]

def labelSelectorRequirement : Schema := allOf [
  type .object,
  required ["key", "operator"],
  properties [
    ("key", allOf [type .string, minLength 1]),
    ("operator", allOf [type .string, enum ["In", "NotIn", "Exists", "DoesNotExist"]]),
    ("values", allOf [type .array, items (type .string)])] nothing,
  allOf [
    ifThen
      (allOf [properties [("operator", enum ["In", "NotIn"])] anything, required ["operator"]])
      (allOf [required ["values"], properties [("values", minItems 1)] anything]),
    ifThen
      (allOf [properties [("operator", enum ["Exists", "DoesNotExist"])] anything,
        required ["operator"]])
      (Schema.not (required ["values"]))]]

def labelSelector : Schema := allOf [
  type .object,
  properties [
    ("matchLabels", stringMap),
    ("matchExpressions", allOf [type .array, items labelSelectorRequirement])] nothing]

def rule : Schema := allOf [
  type .object,
  properties [
    ("directions", allOf [type .array, items direction, minItems 1, uniqueItems]),
    ("podSelector", labelSelector),
    ("namespaceSelector", labelSelector)] nothing,
  anyOf [required ["podSelector"], required ["namespaceSelector"]]]

def target : Schema := allOf [
  type .object,
  required ["podSelector"],
  properties [("podSelector", labelSelector)] nothing]

def pointer : Schema := allOf [
  type .object,
  required ["regex"],
  properties [("regex", allOf [type .string, minLength 1])] nothing]

def cidr : Schema := allOf [type .string, oneOf [pattern cidrV4Pattern, pattern cidrV6Pattern]]

/-- The `lastObservedCidrs` of a status. -/
def lastObservedCidrs : Schema := allOf [type .array, items cidr, uniqueItems]

section Formats
variable (formats : String → String → Bool)

/-- Formats are asserted by a check that the validator brings along. -/
def address : Schema := allOf [
  type .string,
  minLength 1,
  oneOf [
    format (formats "hostname"),
    format (formats "ipv4"),
    format (formats "ipv6"),
    allOf [type .string, pattern urlPattern]]]

def source : Schema := allOf [
  type .object,
  required ["address", "jmesPath"],
  properties [
    ("address", address formats),
    ("pointer", pointer),
    ("jmesPath", allOf [type .string, minLength 1])] nothing]

def spec : Schema := allOf [
  type .object,
  required ["source", "target", "rules"],
  properties [
    ("source", source formats),
    ("resyncSchedule", allOf [type .string, minLength 1, pattern schedulePattern]),
    ("target", target),
    ("rules", allOf [type .array, minItems 1, items rule])] nothing]

end Formats
end PolicySchema
end Ipmaze
