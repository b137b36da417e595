import Ipmaze.Contract.PolicySchema
import Ipmaze.Data.JsonMembers

/-! How the derived deserializers read specs and statuses, and that they read back what was
written. -/
namespace Ipmaze

section Readers
open Json
variable {α : Type}

/-- The members a struct is read from. An object names each field at most once, and a sequence
lists the fields in order and may leave out those at its end that have a default. -/
def structMembers (fields : List (String × Bool)) : Json → Option (List (String × Json))
  | object members =>
    if fields.all fun field => members.countP (fun member => member.1 == field.1) ≤ 1 then
      some members
    else none
  | array elements =>
    if elements.length ≤ fields.length ∧ (fields.drop elements.length).all Prod.snd then
      some ((fields.map Prod.fst).zip elements)
    else none
  | _ => none

def mandatory (read : Json → Option α) (value : Option Json) : Option α := value.bind read

/-- An `Option` that is missing is `None`, and so is one that is null. -/
def optional (read : Json → Option α) : Option Json → Option (Option α)
  | none | some null => some none
  | some document => (read document).map some

def defaulted (read : Json → Option α) (default : α) : Option Json → Option α
  | none => some default
  | some document => read document

def readText : Json → Option String
  | string text => some text
  | _ => none

def readVec (read : Json → Option α) : Json → Option (List α)
  | array elements => elements.mapM read
  | _ => none

/-- A variant without data is written as its name, or as an object with null under its name. -/
def readVariant (variants : List (String × α)) : Json → Option α
  | string name => variants.lookup name
  | object [(name, null)] => variants.lookup name
  | _ => none

/-- The last of several entries under one key is kept. -/
def readEntries : List (String × Json) → StringMap → Option StringMap
  | [], entries => some entries
  | (key, value) :: rest, entries => do
    let text ← readText value
    readEntries rest (entries.insert key text)

end Readers

def StringMap.ofJson : Json → Option StringMap
  | .object members => readEntries members ∅
  | _ => none

def Direction.ofJson : Json → Option Direction :=
  readVariant [("ingress", .ingress), ("egress", .egress)]

def LabelSelectorOperator.ofJson : Json → Option LabelSelectorOperator :=
  readVariant [("In", .In), ("NotIn", .NotIn), ("Exists", .Exists), ("DoesNotExist", .DoesNotExist)]

def LabelSelectorRequirement.ofJson (document : Json) : Option LabelSelectorRequirement := do
  let members ← structMembers [("key", false), ("operator", false), ("values", true)] document
  let key ← mandatory readText (members.lookup "key")
  let operator ← mandatory LabelSelectorOperator.ofJson (members.lookup "operator")
  let values ← optional (readVec readText) (members.lookup "values")
  return { key, operator, values }

def LabelSelector.ofJson (document : Json) : Option LabelSelector := do
  let members ← structMembers [("matchLabels", true), ("matchExpressions", true)] document
  let matchLabels ← optional StringMap.ofJson (members.lookup "matchLabels")
  let matchExpressions ←
    optional (readVec LabelSelectorRequirement.ofJson) (members.lookup "matchExpressions")
  return { matchLabels, matchExpressions }

def RuleSpec.ofJson (document : Json) : Option RuleSpec := do
  let members ← structMembers
    [("directions", true), ("podSelector", true), ("namespaceSelector", true)] document
  let directions ← optional (readVec Direction.ofJson) (members.lookup "directions")
  let podSelector ← optional LabelSelector.ofJson (members.lookup "podSelector")
  let namespaceSelector ← optional LabelSelector.ofJson (members.lookup "namespaceSelector")
  return { directions, podSelector, namespaceSelector }

def TargetSpec.ofJson (document : Json) : Option TargetSpec := do
  let members ← structMembers [("podSelector", false)] document
  let podSelector ← mandatory LabelSelector.ofJson (members.lookup "podSelector")
  return { podSelector }

def PointerSpec.ofJson (document : Json) : Option PointerSpec := do
  let members ← structMembers [("regex", false)] document
  let regex ← mandatory readText (members.lookup "regex")
  return { regex }

def SourceSpec.ofJson (document : Json) : Option SourceSpec := do
  let members ← structMembers [("address", false), ("pointer", true), ("jmesPath", false)] document
  let address ← mandatory readText (members.lookup "address")
  let pointer ← optional PointerSpec.ofJson (members.lookup "pointer")
  let jmesPath ← mandatory readText (members.lookup "jmesPath")
  return { address, pointer, jmesPath }

def CIDRPolicySpec.ofJson (document : Json) : Option CIDRPolicySpec := do
  let members ← structMembers
    [("source", false), ("resyncSchedule", true), ("target", false), ("rules", false)] document
  let source ← mandatory SourceSpec.ofJson (members.lookup "source")
  let resyncSchedule ← optional readText (members.lookup "resyncSchedule")
  let target ← mandatory TargetSpec.ofJson (members.lookup "target")
  let rules ← mandatory (readVec RuleSpec.ofJson) (members.lookup "rules")
  return { source, resyncSchedule, target, rules }

/-- An absent text is written as null. -/
def nullable (text : Option String) : Json := text.elim .null .string

def CIDRPolicyStatus.toJson (status : CIDRPolicyStatus) : Json :=
  .object [
    ("lastSuccessfulResolutionTime", nullable status.lastSuccessfulResolutionTime),
    ("lastObservedCidrs", texts status.lastObservedCidrs),
    ("lastReconciliationError", nullable status.lastReconciliationError)]

def CIDRPolicyStatus.ofJson (document : Json) : Option CIDRPolicyStatus := do
  let members ← structMembers [("lastSuccessfulResolutionTime", false),
    ("lastObservedCidrs", true), ("lastReconciliationError", false)] document
  let lastSuccessfulResolutionTime ←
    optional readText (members.lookup "lastSuccessfulResolutionTime")
  let lastObservedCidrs ← defaulted (readVec readText) [] (members.lookup "lastObservedCidrs")
  let lastReconciliationError ← optional readText (members.lookup "lastReconciliationError")
  return { lastSuccessfulResolutionTime, lastObservedCidrs, lastReconciliationError }

section Records
open Json
variable {α : Type} {fields : List (String × Bool)} {members : List (String × Option Json)}

theorem structMembers_object {members : List (String × Json)}
    (h : (members.map Prod.fst).Nodup) : structMembers fields (object members) = some members := by
  apply if_pos
  rw [List.all_eq_true]
  intro field _
  have hcount := List.nodup_iff_count_le_one.mp h field.1
  rw [List.count_eq_countP, List.countP_map] at hcount
  exact decide_eq_true hcount

theorem structMembers_record (h : (members.map Prod.fst).Nodup) :
    structMembers fields (record members) = some (record members).members :=
  structMembers_object (names_record_nodup h)

theorem readVec_array {read : Json → Option α} {write : α → Json} (h : ∀ a, read (write a) = some a)
    (values : List α) : readVec read (array (values.map write)) = some values := by
  change (values.map write).mapM read = _
  induction values with
  | nil => rfl
  | cons a values ih => simp [h, ih]

theorem optional_some {read : Json → Option α} {document : Json} (h : document ≠ null) :
    optional read (some document) = (read document).map some := by
  cases document with
  | null => exact (h rfl).elim
  | _ => rfl

theorem optional_map {read : Json → Option α} {write : α → Json} (h : ∀ a, read (write a) = some a)
    (hnull : ∀ a, write a ≠ null) (value : Option α) :
    optional read (value.map write) = some value := by
  cases value with
  | none => rfl
  | some a =>
    rw [Option.map_some, optional_some (hnull a), h]
    rfl

end Records

section RoundTrips
open Json

@[simp] theorem readText_string (text : String) : readText (string text) = some text := rfl

theorem readVec_texts (values : List String) : readVec readText (texts values) = some values :=
  readVec_array readText_string values

theorem Direction.ofJson_toJson (direction : Direction) :
    Direction.ofJson direction.toJson = some direction := by cases direction <;> rfl

theorem LabelSelectorOperator.ofJson_toJson (operator : LabelSelectorOperator) :
    LabelSelectorOperator.ofJson operator.toJson = some operator := by cases operator <;> rfl

/-- Entries with distinct keys are all kept, whatever their order. -/
theorem readEntries_texts (keys : List String) (text : String → String) (entries : StringMap) :
    ∃ read, readEntries (keys.map fun key => (key, string (text key))) entries = some read ∧
      ∀ key, read.lookup key = if key ∈ keys then some (text key) else entries.lookup key := by
  induction keys generalizing entries with
  | nil => exact ⟨entries, rfl, by simp⟩
  | cons first keys ih =>
    obtain ⟨read, hread, hlookup⟩ := ih (entries.insert first (text first))
    refine ⟨read, hread, fun key => ?_⟩
    rw [hlookup]
    by_cases hkey : key ∈ keys
    · simp [hkey]
    · by_cases hfirst : key = first
      · subst hfirst
        simp [hkey]
      · simp [hkey, hfirst, Finmap.lookup_insert_of_ne _ hfirst]

theorem StringMap.ofJson_toJson (entries : StringMap) :
    StringMap.ofJson entries.toJson = some entries := by
  obtain ⟨read, hread, hlookup⟩ := readEntries_texts (entries.keys.sort (· ≤ ·))
    (fun key => (entries.lookup key).getD "") ∅
  have heq : read = entries := by
    apply Finmap.ext_lookup
    intro key
    rw [hlookup]
    cases h : entries.lookup key with
    | none => simp [Finmap.mem_keys, ← Finmap.lookup_isSome, h]
    | some text => simp [Finmap.mem_keys, ← Finmap.lookup_isSome, h]
  rw [← heq] at hread ⊢
  exact hread

theorem LabelSelectorRequirement.ofJson_toJson (requirement : LabelSelectorRequirement) :
    LabelSelectorRequirement.ofJson requirement.toJson = some requirement := by
  have hvalues := optional_map readVec_texts (fun _ h => nomatch h) requirement.values
  simp [LabelSelectorRequirement.ofJson, LabelSelectorRequirement.toJson, structMembers_record,
    lookup_record, List.lookup_cons, mandatory, hvalues, LabelSelectorOperator.ofJson_toJson]

theorem LabelSelector.ofJson_toJson (selector : LabelSelector) :
    LabelSelector.ofJson selector.toJson = some selector := by
  have hlabels := optional_map StringMap.ofJson_toJson (fun _ h => nomatch h) selector.matchLabels
  have hexpressions := optional_map (readVec_array LabelSelectorRequirement.ofJson_toJson)
    (fun _ h => nomatch h) selector.matchExpressions
  simp [LabelSelector.ofJson, LabelSelector.toJson, structMembers_record, lookup_record,
    List.lookup_cons, hlabels, hexpressions]

theorem RuleSpec.ofJson_toJson (rule : RuleSpec) : RuleSpec.ofJson rule.toJson = some rule := by
  have hdirections := optional_map (readVec_array Direction.ofJson_toJson)
    (fun _ h => nomatch h) rule.directions
  have hselector := optional_map LabelSelector.ofJson_toJson (fun _ h => nomatch h)
  simp [RuleSpec.ofJson, RuleSpec.toJson, structMembers_record, lookup_record, List.lookup_cons,
    hdirections, hselector]

theorem TargetSpec.ofJson_toJson (target : TargetSpec) :
    TargetSpec.ofJson target.toJson = some target := by
  simp [TargetSpec.ofJson, TargetSpec.toJson, structMembers_record, lookup_record, mandatory,
    LabelSelector.ofJson_toJson]

theorem PointerSpec.ofJson_toJson (pointer : PointerSpec) :
    PointerSpec.ofJson pointer.toJson = some pointer := by
  simp [PointerSpec.ofJson, PointerSpec.toJson, structMembers_record, lookup_record, mandatory]

theorem SourceSpec.ofJson_toJson (source : SourceSpec) :
    SourceSpec.ofJson source.toJson = some source := by
  have hpointer := optional_map PointerSpec.ofJson_toJson (fun _ h => nomatch h) source.pointer
  simp [SourceSpec.ofJson, SourceSpec.toJson, structMembers_record, lookup_record,
    List.lookup_cons, mandatory, hpointer]

/-- A spec is read back as it was written. -/
theorem CIDRPolicySpec.ofJson_toJson (spec : CIDRPolicySpec) :
    CIDRPolicySpec.ofJson spec.toJson = some spec := by
  have hschedule := optional_map readText_string (fun _ h => nomatch h) spec.resyncSchedule
  have hrules := readVec_array RuleSpec.ofJson_toJson spec.rules
  simp [CIDRPolicySpec.ofJson, CIDRPolicySpec.toJson, structMembers_record, lookup_record,
    List.lookup_cons, mandatory, hschedule, hrules, SourceSpec.ofJson_toJson,
    TargetSpec.ofJson_toJson]

theorem optional_nullable (text : Option String) :
    optional readText (some (nullable text)) = some text := by cases text <;> rfl

theorem CIDRPolicyStatus.ofJson_toJson (status : CIDRPolicyStatus) :
    CIDRPolicyStatus.ofJson status.toJson = some status := by
  simp [CIDRPolicyStatus.ofJson, CIDRPolicyStatus.toJson, structMembers_object, List.lookup_cons,
    optional_nullable, defaulted, readVec_texts]

/-- What the controller and its users write is read back as it was meant. -/
theorem spec_and_status_are_read_back (spec : CIDRPolicySpec) (status : CIDRPolicyStatus) :
    CIDRPolicySpec.ofJson spec.toJson = some spec ∧
      CIDRPolicyStatus.ofJson status.toJson = some status :=
  ⟨CIDRPolicySpec.ofJson_toJson spec, CIDRPolicyStatus.ofJson_toJson status⟩

end RoundTrips
end Ipmaze
