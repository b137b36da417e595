import Ipmaze.Controller
import Ipmaze.Cluster
import Ipmaze.Data.Calendar

/-! A policy as an operator writes it, and the third-party crates as far as that policy
exercises them. -/
namespace Ipmaze.Sample
open Effects Calendar

inductive Json
  | null
  | string (text : String)
  | array (elements : List Json)
  | object (fields : List (String × Json))

mutual

/-- The text of a value, as far as nothing in it has to be escaped. -/
def Json.text : Json → String
  | .null => "null"
  | .string text => "\"" ++ text ++ "\""
  | .array elements => "[" ++ elementsText elements ++ "]"
  | .object fields => "\x7b" ++ fieldsText fields ++ "\x7d"

def Json.elementsText : List Json → String
  | [] => ""
  | [element] => element.text
  | element :: elements => element.text ++ "," ++ elementsText elements

def Json.fieldsText : List (String × Json) → String
  | [] => ""
  | [(key, value)] => "\"" ++ key ++ "\":" ++ value.text
  | (key, value) :: fields => "\"" ++ key ++ "\":" ++ value.text ++ "," ++ fieldsText fields

end

inductive Schedule
  | daily
  | never

def Schedule.parse : String → Except String Schedule
  | "0 0 0 * * *" => .ok .daily
  | "0 0 0 30 2 *" => .ok .never
  | text => .error ("Invalid cron expression: " ++ text)

def day : ℤ := 86400000000000

/-- Midnight comes every day, the thirtieth of February never. -/
def Schedule.nextAfter : Schedule → Instant → Option Instant
  | daily, now => some (day*(now / day + 1))
  | never, _ => none

def address : String := "https://lists.example/prefixes.json"

def url : Url where
  scheme := "https"
  username := ""
  password := none
  host := some (.domain "lists.example")
  port := none
  path := "/prefixes.json"
  query := none
  fragment := none

def payload : Json := .object [("prefixes", .array [.string "10.0.0.0/24"])]
def payloadText : String := "\x7b\"prefixes\":[\"10.0.0.0/24\"]\x7d"
def body : List UInt8 := payloadText.toList.map fun c => UInt8.ofNat c.toNat

def digits (count : ℕ) (n : ℤ) : String :=
  String.ofList ((List.range count).reverse.map fun i => Nat.digitChar (n.toNat / 10 ^ i % 10))

/-- The fraction of a second: none, milliseconds, microseconds or nanoseconds. -/
def fraction (nanos : ℤ) : String :=
  if nanos = 0 then ""
  else if nanos % 1000000 = 0 then "." ++ digits 3 (nanos / 1000000)
  else if nanos % 1000 = 0 then "." ++ digits 6 (nanos / 1000)
  else "." ++ digits 9 nanos

def rfc3339 (now : Instant) : String :=
  let date := dateOf (dayOf now)
  digits 4 date.year ++ "-" ++ digits 2 date.month ++ "-" ++ digits 2 date.day ++ "T" ++
    digits 2 (hourOf now) ++ ":" ++ digits 2 (minuteOf now) ++ ":" ++ digits 2 (secondOf now) ++
    fraction (now % 1000000000) ++ "+00:00"

example : rfc3339 951782400123456789 = "2000-02-29T00:00:00.123456789+00:00" := by decide

def network : IpNet := .v4 0x0A000000#32 24

def crates : Crates where
  Regex := String
  Expression := String
  Value := Json
  Variable := Json
  Schedule := Schedule
  parseUrl text := if text = address then .ok url else .error "relative URL without a base"
  compileRegex pattern := .ok pattern
  captures _ _ := none
  compileExpression text := .ok text
  search field
    | .object fields => .ok ((fields.lookup field).getD .null)
    | _ => .ok .null
  variableFromJson text :=
    if text = payloadText then .ok payload else .error "expected value at line 1 column 1"
  asArray
    | .array elements => some elements
    | _ => none
  asString
    | .string text => some text
    | _ => none
  parseJson bytes :=
    if bytes = body then .ok payload else .error "expected value at line 1 column 1"
  jsonText value := .ok value.text
  parseSchedule := Schedule.parse
  nextAfter := Schedule.nextAfter
  parseNet text := if text = "10.0.0.0/24" then some network else none
  printNet _ := "10.0.0.0/24"
  rfc3339 := rfc3339
  decodeText bytes := String.ofList (bytes.map fun b => Char.ofNat b.toNat)

def labelled (key value : String) : LabelSelector where
  matchLabels := some (Finmap.insert key value ∅)

def rule : RuleSpec where
  directions := some [.ingress]
  podSelector := some (labelled "access-tier" "trusted")
  namespaceSelector := none

def policyWith (rules : List RuleSpec) (status : Option CIDRPolicyStatus) : CIDRPolicy where
  metadata := { name := some "office-allowlist", ns := some "payments", uid := some "12345" }
  spec := {
    source := { address, pointer := none, jmesPath := "prefixes" }
    resyncSchedule := none
    target := { podSelector := labelled "app" "api" }
    rules }
  status

def policy : CIDRPolicy := policyWith [rule] none

def cidr : NormalizedCidr := ⟨"10.0.0.0/24", .v4⟩

/-- The endpoint answers with the payload and every API call is delivered. -/
def choice (now : Instant) : Choice where
  http := .response 200 (.ok body)
  now := now
  delivery := .delivered

/-- A cluster that holds one CIDRPolicy and at most one NetworkPolicy, under its managed name. -/
def cluster (policy : CIDRPolicy) (managed : Option NetworkPolicy) : Cluster where
  networkPolicies key :=
    if key = (policy.metadata.ns.getD "", policy.managedNetworkPolicyName) then managed else none
  policies key :=
    if key = (policy.metadata.ns.getD "", policy.nameAny) then some policy else none
  events := []

/-- A server without other field managers stores what it is sent. -/
def replace : Apply := fun _ patch => patch

def worldAt (s : Cluster) (now : Instant) : World Calls Choice Cluster where
  state := s
  choices _ := choice now
  log := []

example : ((reconcile crates policy).run (api replace) (worldAt (cluster policy none) 0)).1 =
    .ok (.requeue 86400000000000) := by decide

end Ipmaze.Sample
