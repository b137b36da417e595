import Ipmaze.Contract.Lossless
import Ipmaze.Data.Structural

/-! The definition of the custom resource, and that the controller reads every spec and every status
that a server admits under it. -/
namespace Ipmaze
open Json

namespace CustomResource
open Structural

def string : Structural := .text false none

def labelSelectorRequirement : Structural := .object false ["key", "operator"] [] [
  ("key", string),
  ("operator", .text false (some ["In", "NotIn", "Exists", "DoesNotExist"])),
  ("values", .list true string)]

def labelSelector (nullable : Bool) : Structural := .object nullable [] [] [
  ("matchExpressions", .list true labelSelectorRequirement),
  ("matchLabels", .map true string)]

def rule : Structural := .object false [] [] [
  ("directions", .list true (.text false (some ["ingress", "egress"]))),
  ("namespaceSelector", labelSelector true),
  ("podSelector", labelSelector true)]

def pointer : Structural := .object true ["regex"] [] [("regex", string)]

def source : Structural := .object false ["address", "jmesPath"] [] [
  ("address", string),
  ("jmesPath", string),
  ("pointer", pointer)]

def target : Structural := .object false ["podSelector"] [] [("podSelector", labelSelector false)]

def spec : Structural := .object false ["rules", "source", "target"] [] [
  ("resyncSchedule", .text true none),
  ("rules", .list false rule),
  ("source", source),
  ("target", target)]

def status : Structural := .object true [] [("lastObservedCidrs", .array [])] [
  ("lastObservedCidrs", .list false string),
  ("lastReconciliationError", .text true none),
  ("lastSuccessfulResolutionTime", .text true none)]

/-- The `openAPIV3Schema` of the custom resource. The server itself looks after the first three
members, which every object has. -/
def policy : Structural := .object false ["spec"] [] [
  ("apiVersion", .anything),
  ("kind", .anything),
  ("metadata", .anything),
  ("spec", spec),
  ("status", status)]

theorem requirement_sound : labelSelectorRequirement.Sound := by
  simp [labelSelectorRequirement, string, Sound, SoundProperties]

theorem labelSelector_sound (nullable : Bool) : (labelSelector nullable).Sound :=
  ⟨List.nodup_nil, List.forall_mem_nil _, requirement_sound, trivial, trivial⟩

theorem rule_sound : rule.Sound :=
  ⟨List.nodup_nil, List.forall_mem_nil _, trivial, labelSelector_sound true,
    labelSelector_sound true, trivial⟩

theorem pointer_sound : pointer.Sound := by simp [pointer, string, Sound, SoundProperties]

theorem source_sound : source.Sound :=
  ⟨List.nodup_nil, List.forall_mem_nil _, trivial, trivial, pointer_sound, trivial⟩

theorem target_sound : target.Sound :=
  ⟨List.nodup_nil, List.forall_mem_nil _, labelSelector_sound false, trivial⟩

theorem spec_sound : spec.Sound :=
  ⟨List.nodup_nil, List.forall_mem_nil _, trivial, rule_sound, source_sound, target_sound, trivial⟩

theorem status_sound : status.Sound :=
  ⟨List.nodup_singleton _, List.forall_mem_singleton.mpr ⟨rfl, rfl⟩, trivial, trivial, trivial,
    trivial⟩

theorem policy_sound : policy.Sound :=
  ⟨List.nodup_nil, List.forall_mem_nil _, trivial, trivial, trivial, spec_sound, status_sound,
    trivial⟩

end CustomResource

/-- Documents that are admitted are read, and as what they were read as before. -/
def Understood {α : Type} (schema : Structural) (read : Json → Option α) : Prop :=
  ∀ document stored, document.uniqueNames → schema.accept document = some stored →
    document ≠ null → ∃ a, read stored = some a ∧ ∀ b, read document = some b → b = a

section Members
variable {α : Type} {schema : Structural} {read : Json → Option α} {given stored : Option Json}

theorem null_of_isNull {value : Json} (h : value.isNull) : value = null := by
  cases value with
  | null => rfl
  | _ => cases h

theorem isNull_eq_false {value : Json} (h : value ≠ null) : value.isNull = false := by
  cases value with
  | null => exact (h rfl).elim
  | _ => rfl

theorem ne_null_of_accept {value admitted : Json} (h : schema.accept value = some admitted)
    (hvalue : value ≠ null) : admitted ≠ null := by
  rintro rfl
  have hnull := Structural.isNull_accept h
  rw [isNull_eq_false hvalue] at hnull
  cases hnull

theorem ne_null_of_not_nullable {value admitted : Json} (h : schema.accept value = some admitted)
    (hschema : schema.nullable = false) : value ≠ null := by
  rintro rfl
  rw [Structural.accept_null, hschema] at h
  cases h

theorem Understood.mandatory (h : Understood schema read) (hschema : schema.nullable = false)
    (hfield : schema.Field none given stored) (hunique : ∀ value ∈ given, value.uniqueNames)
    (hrequired : ∃ value, stored = some value) :
    ∃ a, Ipmaze.mandatory read stored = some a ∧
      ∀ b, Ipmaze.mandatory read given = some b → b = a := by
  rcases hfield with ⟨rfl, -⟩ | ⟨value, admitted, rfl, haccept, rfl⟩
  · obtain ⟨value, hvalue⟩ := hrequired
    cases hvalue
  · exact h value admitted (hunique value rfl) haccept (ne_null_of_not_nullable haccept hschema)

theorem Understood.optional (h : Understood schema read) (hschema : schema.nullable)
    (hfield : schema.Field none given stored) (hunique : ∀ value ∈ given, value.uniqueNames) :
    ∃ a, Ipmaze.optional read stored = some a ∧
      ∀ b, Ipmaze.optional read given = some b → b = a := by
  rcases hfield with ⟨rfl, hgiven⟩ | ⟨value, admitted, rfl, haccept, rfl⟩
  · cases given with
    | none => exact ⟨none, rfl, fun b hb => (Option.some.inj hb).symm⟩
    | some value =>
      rw [(hgiven value rfl).2] at hschema
      cases hschema
  · by_cases hvalue : value = null
    · subst hvalue
      rw [Structural.accept_null, if_pos hschema] at haccept
      obtain rfl := Option.some.inj haccept
      exact ⟨none, rfl, fun b hb => (Option.some.inj hb).symm⟩
    · obtain ⟨a, ha, hsame⟩ := h value admitted (hunique value rfl) haccept hvalue
      refine ⟨some a, ?_, fun b hb => ?_⟩
      · rw [optional_some (ne_null_of_accept haccept hvalue), ha]
        rfl
      · rw [optional_some hvalue, Option.map_eq_some_iff] at hb
        obtain ⟨b', hb', rfl⟩ := hb
        rw [hsame b' hb']

theorem Understood.defaulted (h : Understood schema read) (hschema : schema.nullable = false)
    {default : α} {document : Json} (hread : read document = some default)
    (hnull : read null = none)
    (hfield : schema.Field (some document) given stored)
    (hunique : ∀ value ∈ given, value.uniqueNames) :
    ∃ a, Ipmaze.defaulted read default stored = some a ∧
      ∀ b, Ipmaze.defaulted read default given = some b → b = a := by
  rcases hfield with ⟨rfl, hgiven⟩ | ⟨value, admitted, rfl, haccept, rfl⟩
  · refine ⟨default, hread, fun b hb => ?_⟩
    cases given with
    | none => exact (Option.some.inj hb).symm
    | some value =>
      obtain rfl := null_of_isNull (hgiven value rfl).1
      rw [Ipmaze.defaulted, hnull] at hb
      cases hb
  · exact h value admitted (hunique value rfl) haccept (ne_null_of_not_nullable haccept hschema)

/-- The members of an object, as they were given and as they are stored. -/
structure Admitted (required : List String) (defaults : List (String × Json))
    (properties : List (String × Structural)) (members stored : List (String × Json)) : Prop where
  distinct : (members.map Prod.fst).Nodup
  unique : ∀ name, ∀ value ∈ members.lookup name, value.uniqueNames
  storedDistinct : (stored.map Prod.fst).Nodup
  required : ∀ name ∈ required, ∃ value, stored.lookup name = some value
  field : ∀ name schema, properties.lookup name = some schema →
    schema.Field (defaults.lookup name) (members.lookup name) (stored.lookup name)

theorem admitted_object {nullable : Bool} {required : List String} {defaults : List (String × Json)}
    {properties : List (String × Structural)} {document stored : Json}
    (hsound : (Structural.object nullable required defaults properties).Sound)
    (hunique : document.uniqueNames) (hnull : document ≠ null)
    (haccept : (Structural.object nullable required defaults properties).accept document =
      some stored) :
    ∃ members members', document = object members ∧ stored = object members' ∧
      Admitted required defaults properties members members' := by
  have hsettled := Structural.settles _ hsound hunique haccept
  cases document with
  | null => exact (hnull rfl).elim
  | object members =>
    obtain ⟨known, hknown, hrequired, rfl⟩ := Structural.accept_properties.mp haccept
    rw [Structural.uniqueNames_object] at hunique
    have hdistinct := (Structural.uniqueNames_object.mp hsettled.unique).1
    refine ⟨members, _, rfl, rfl, hunique.1, ?_, hdistinct, ?_, ?_⟩
    · exact fun name value hvalue => hunique.2 _ (mem_of_lookup hvalue)
    · intro name hname
      obtain ⟨value, hvalue⟩ := hrequired name hname
      exact ⟨value, lookup_of_mem hdistinct hvalue⟩
    · exact fun name schema hname => Structural.field_admitted hunique.1 hknown hname
  | _ => simp [Structural.accept] at haccept

end Members

section Selectors

theorem understood_text (nullable : Bool) : Understood (.text nullable none) readText := by
  intro document stored _ haccept hnull
  cases document with
  | null => exact (hnull rfl).elim
  | string text =>
    obtain rfl := Option.some.inj haccept
    exact ⟨text, rfl, fun b hb => (Option.some.inj hb).symm⟩
  | _ => simp [Structural.accept] at haccept

theorem understood_variant {α : Type} (nullable : Bool) (variants : List (String × α)) :
    Understood (.text nullable (some (variants.map Prod.fst))) (readVariant variants) := by
  intro document stored _ haccept hnull
  cases document with
  | null => exact (hnull rfl).elim
  | string text =>
    simp only [Structural.accept, Option.all_some, List.contains_eq_mem, decide_eq_true_eq,
      Option.ite_none_right_eq_some, Option.some.injEq] at haccept
    obtain ⟨htext, rfl⟩ := haccept
    change ∃ a, variants.lookup text = some a ∧ ∀ b, variants.lookup text = some b → b = a
    cases hlookup : variants.lookup text with
    | none =>
      obtain ⟨variant, hvariant, heq⟩ := List.mem_map.mp htext
      have hne := List.lookup_eq_none_iff.mp hlookup variant hvariant
      simp [heq] at hne
    | some a => exact ⟨a, rfl, fun b hb => (Option.some.inj hb).symm⟩
  | _ => simp [Structural.accept] at haccept

theorem Understood.list {α : Type} {schema : Structural} {read : Json → Option α} (nullable : Bool)
    (h : Understood schema read) (hschema : schema.nullable = false) :
    Understood (.list nullable schema) (readVec read) := by
  intro document stored hunique haccept hnull
  cases document with
  | null => exact (hnull rfl).elim
  | array elements =>
    obtain ⟨admitted, helements, rfl⟩ := Structural.accept_array.mp haccept
    rw [Structural.uniqueNames_array] at hunique
    change ∃ values, admitted.mapM read = some values ∧
      ∀ values', elements.mapM read = some values' → values' = values
    clear haccept hnull
    induction helements with
    | nil => exact ⟨[], rfl, fun b hb => (Option.some.inj hb).symm⟩
    | cons hhead _ ih =>
      rw [List.forall_mem_cons] at hunique
      obtain ⟨a, ha, hsame⟩ := h _ _ hunique.1 hhead (ne_null_of_not_nullable hhead hschema)
      obtain ⟨values, hvalues, hvaluesSame⟩ := ih hunique.2
      refine ⟨a :: values, by simp [ha, hvalues], fun values' hvalues' => ?_⟩
      rw [mapM_eq_some_iff] at hvalues'
      cases hvalues' with
      | cons ha' hrest => rw [hsame _ ha', hvaluesSame _ (mapM_eq_some_iff.mpr hrest)]
  | _ => simp [Structural.accept] at haccept

/-- The entries that are read do not depend on their order. -/
theorem lookup_readEntries {members : List (String × Json)} {entries read : StringMap}
    (hdistinct : (members.map Prod.fst).Nodup) (h : readEntries members entries = some read)
    (key : String) : (read.lookup key).map string =
      (members.lookup key).or ((entries.lookup key).map string) := by
  have htexts : ∀ member ∈ members, ∃ text, member.2 = string text := by
    clear hdistinct
    induction members generalizing entries with
    | nil => simp
    | cons member members ih =>
      obtain ⟨name, value⟩ := member
      rw [readEntries, Option.bind_eq_bind, Option.bind_eq_some_iff] at h
      obtain ⟨text, htext, hrest⟩ := h
      refine List.forall_mem_cons.mpr ⟨⟨text, ?_⟩, ih hrest⟩
      cases value with
      | string value =>
        obtain rfl := Option.some.inj htext
        rfl
      | _ => cases htext
  obtain ⟨read', hread', hlookup⟩ := readEntries_unique hdistinct htexts entries
  rw [h] at hread'
  obtain rfl := Option.some.inj hread'
  exact hlookup key

theorem understood_stringMap (nullable : Bool) :
    Understood (.map nullable CustomResource.string) StringMap.ofJson := by
  intro document stored hunique haccept hnull
  cases document with
  | null => exact (hnull rfl).elim
  | object members =>
    obtain ⟨known, hknown, rfl⟩ := Structural.accept_members.mp haccept
    rw [Structural.uniqueNames_object] at hunique
    have hdistinct := hunique.1.sublist (names_keepMembers hknown)
    have htexts : ∀ member ∈ known, ∃ text, member.2 = string text := by
      rintro ⟨name, value⟩ hmem
      obtain ⟨given, -, hkept⟩ := (mem_keepMembers hknown).mp hmem
      have hvalue := (Structural.kept_eq_some_some.mp hkept).2
      cases given with
      | string text =>
        obtain rfl := Option.some.inj hvalue
        exact ⟨text, rfl⟩
      | _ => cases hvalue
    obtain ⟨read, hread, hlookup⟩ := readEntries_unique hdistinct htexts ∅
    refine ⟨read, hread, fun read' hread' => Finmap.ext_lookup fun key => ?_⟩
    have hgiven := lookup_readEntries hunique.1 hread' key
    have hlookups : known.lookup key = members.lookup key := by
      rw [lookup_keepMembers hunique.1 hknown]
      cases hmember : members.lookup key with
      | none => rfl
      | some value =>
        rw [hmember] at hgiven
        cases hvalue : read'.lookup key with
        | none =>
          rw [hvalue] at hgiven
          cases hgiven
        | some text =>
          rw [hvalue] at hgiven
          obtain rfl := Option.some.inj hgiven
          rfl
    have hstored := hlookup key
    rw [hlookups, ← hgiven] at hstored
    exact Option.map_injective (fun _ _ h => Json.string.inj h) hstored.symm
  | _ => simp [Structural.accept] at haccept

theorem understood_operator : Understood
    (.text false (some ["In", "NotIn", "Exists", "DoesNotExist"])) LabelSelectorOperator.ofJson :=
  understood_variant false [("In", LabelSelectorOperator.In), ("NotIn", .NotIn),
    ("Exists", .Exists), ("DoesNotExist", .DoesNotExist)]

theorem understood_direction :
    Understood (.text false (some ["ingress", "egress"])) Direction.ofJson :=
  understood_variant false [("ingress", Direction.ingress), ("egress", .egress)]

theorem understood_requirement :
    Understood CustomResource.labelSelectorRequirement LabelSelectorRequirement.ofJson := by
  intro document stored hunique haccept hnull
  obtain ⟨members, members', rfl, rfl, h⟩ :=
    admitted_object CustomResource.requirement_sound hunique hnull haccept
  obtain ⟨key, hkey, hkeySame⟩ := (understood_text false).mandatory rfl
    (h.field "key" _ rfl) (h.unique "key") (h.required "key" (by simp))
  obtain ⟨operator, hoperator, hoperatorSame⟩ := understood_operator.mandatory rfl
    (h.field "operator" _ rfl) (h.unique "operator") (h.required "operator" (by simp))
  obtain ⟨values, hvalues, hvaluesSame⟩ := ((understood_text false).list true rfl).optional rfl
    (h.field "values" _ rfl) (h.unique "values")
  refine ⟨⟨key, operator, values⟩, ?_, fun b hb => ?_⟩
  · simp [LabelSelectorRequirement.ofJson, structMembers_object h.storedDistinct, hkey, hoperator,
      hvalues]
  · simp only [LabelSelectorRequirement.ofJson, structMembers_object h.distinct,
      Option.bind_eq_bind, Option.bind_some, Option.bind_eq_some_iff] at hb
    obtain ⟨key', hkey', operator', hoperator', values', hvalues', heq⟩ := hb
    rw [← Option.some.inj heq, hkeySame _ hkey', hoperatorSame _ hoperator',
      hvaluesSame _ hvalues']

theorem understood_labelSelector (nullable : Bool) :
    Understood (CustomResource.labelSelector nullable) LabelSelector.ofJson := by
  intro document stored hunique haccept hnull
  obtain ⟨members, members', rfl, rfl, h⟩ :=
    admitted_object (CustomResource.labelSelector_sound nullable) hunique hnull haccept
  obtain ⟨labels, hlabels, hlabelsSame⟩ := (understood_stringMap true).optional rfl
    (h.field "matchLabels" _ rfl) (h.unique "matchLabels")
  obtain ⟨expressions, hexpressions, hexpressionsSame⟩ :=
    (understood_requirement.list true rfl).optional rfl
      (h.field "matchExpressions" _ rfl) (h.unique "matchExpressions")
  refine ⟨⟨labels, expressions⟩, ?_, fun b hb => ?_⟩
  · simp [LabelSelector.ofJson, structMembers_object h.storedDistinct, hlabels, hexpressions]
  · simp only [LabelSelector.ofJson, structMembers_object h.distinct,
      Option.bind_eq_bind, Option.bind_some, Option.bind_eq_some_iff] at hb
    obtain ⟨labels', hlabels', expressions', hexpressions', heq⟩ := hb
    rw [← Option.some.inj heq, hlabelsSame _ hlabels', hexpressionsSame _ hexpressions']

theorem understood_rule : Understood CustomResource.rule RuleSpec.ofJson := by
  intro document stored hunique haccept hnull
  obtain ⟨members, members', rfl, rfl, h⟩ :=
    admitted_object CustomResource.rule_sound hunique hnull haccept
  obtain ⟨directions, hdirections, hdirectionsSame⟩ :=
    (understood_direction.list true rfl).optional rfl
      (h.field "directions" _ rfl) (h.unique "directions")
  obtain ⟨pods, hpods, hpodsSame⟩ := (understood_labelSelector true).optional rfl
    (h.field "podSelector" _ rfl) (h.unique "podSelector")
  obtain ⟨namespaces, hnamespaces, hnamespacesSame⟩ := (understood_labelSelector true).optional rfl
    (h.field "namespaceSelector" _ rfl) (h.unique "namespaceSelector")
  refine ⟨⟨directions, pods, namespaces⟩, ?_, fun b hb => ?_⟩
  · simp [RuleSpec.ofJson, structMembers_object h.storedDistinct, hdirections, hpods, hnamespaces]
  · simp only [RuleSpec.ofJson, structMembers_object h.distinct,
      Option.bind_eq_bind, Option.bind_some, Option.bind_eq_some_iff] at hb
    obtain ⟨directions', hdirections', pods', hpods', namespaces', hnamespaces', heq⟩ := hb
    rw [← Option.some.inj heq, hdirectionsSame _ hdirections', hpodsSame _ hpods',
      hnamespacesSame _ hnamespaces']

theorem understood_target : Understood CustomResource.target TargetSpec.ofJson := by
  intro document stored hunique haccept hnull
  obtain ⟨members, members', rfl, rfl, h⟩ :=
    admitted_object CustomResource.target_sound hunique hnull haccept
  obtain ⟨pods, hpods, hpodsSame⟩ := (understood_labelSelector false).mandatory rfl
    (h.field "podSelector" _ rfl) (h.unique "podSelector") (h.required "podSelector" (by simp))
  refine ⟨⟨pods⟩, ?_, fun b hb => ?_⟩
  · simp [TargetSpec.ofJson, structMembers_object h.storedDistinct, hpods]
  · simp only [TargetSpec.ofJson, structMembers_object h.distinct,
      Option.bind_eq_bind, Option.bind_some, Option.bind_eq_some_iff] at hb
    obtain ⟨pods', hpods', heq⟩ := hb
    rw [← Option.some.inj heq, hpodsSame _ hpods']

end Selectors

section Specs

theorem understood_pointer : Understood CustomResource.pointer PointerSpec.ofJson := by
  intro document stored hunique haccept hnull
  obtain ⟨members, members', rfl, rfl, h⟩ :=
    admitted_object CustomResource.pointer_sound hunique hnull haccept
  obtain ⟨regex, hregex, hregexSame⟩ := (understood_text false).mandatory rfl
    (h.field "regex" _ rfl) (h.unique "regex") (h.required "regex" (by simp))
  refine ⟨⟨regex⟩, ?_, fun b hb => ?_⟩
  · simp [PointerSpec.ofJson, structMembers_object h.storedDistinct, hregex]
  · simp only [PointerSpec.ofJson, structMembers_object h.distinct,
      Option.bind_eq_bind, Option.bind_some, Option.bind_eq_some_iff] at hb
    obtain ⟨regex', hregex', heq⟩ := hb
    rw [← Option.some.inj heq, hregexSame _ hregex']

theorem understood_source : Understood CustomResource.source SourceSpec.ofJson := by
  intro document stored hunique haccept hnull
  obtain ⟨members, members', rfl, rfl, h⟩ :=
    admitted_object CustomResource.source_sound hunique hnull haccept
  obtain ⟨address, haddress, haddressSame⟩ := (understood_text false).mandatory rfl
    (h.field "address" _ rfl) (h.unique "address") (h.required "address" (by simp))
  obtain ⟨pointer, hpointer, hpointerSame⟩ := understood_pointer.optional rfl
    (h.field "pointer" _ rfl) (h.unique "pointer")
  obtain ⟨jmesPath, hjmesPath, hjmesPathSame⟩ := (understood_text false).mandatory rfl
    (h.field "jmesPath" _ rfl) (h.unique "jmesPath") (h.required "jmesPath" (by simp))
  refine ⟨⟨address, pointer, jmesPath⟩, ?_, fun b hb => ?_⟩
  · simp [SourceSpec.ofJson, structMembers_object h.storedDistinct, haddress, hpointer, hjmesPath]
  · simp only [SourceSpec.ofJson, structMembers_object h.distinct,
      Option.bind_eq_bind, Option.bind_some, Option.bind_eq_some_iff] at hb
    obtain ⟨address', haddress', pointer', hpointer', jmesPath', hjmesPath', heq⟩ := hb
    rw [← Option.some.inj heq, haddressSame _ haddress', hpointerSame _ hpointer',
      hjmesPathSame _ hjmesPath']

theorem understood_spec : Understood CustomResource.spec CIDRPolicySpec.ofJson := by
  intro document stored hunique haccept hnull
  obtain ⟨members, members', rfl, rfl, h⟩ :=
    admitted_object CustomResource.spec_sound hunique hnull haccept
  obtain ⟨source, hsource, hsourceSame⟩ := understood_source.mandatory rfl
    (h.field "source" _ rfl) (h.unique "source") (h.required "source" (by simp))
  obtain ⟨schedule, hschedule, hscheduleSame⟩ := (understood_text true).optional rfl
    (h.field "resyncSchedule" _ rfl) (h.unique "resyncSchedule")
  obtain ⟨target, htarget, htargetSame⟩ := understood_target.mandatory rfl
    (h.field "target" _ rfl) (h.unique "target") (h.required "target" (by simp))
  obtain ⟨rules, hrules, hrulesSame⟩ := (understood_rule.list false rfl).mandatory rfl
    (h.field "rules" _ rfl) (h.unique "rules") (h.required "rules" (by simp))
  refine ⟨⟨source, schedule, target, rules⟩, ?_, fun b hb => ?_⟩
  · simp [CIDRPolicySpec.ofJson, structMembers_object h.storedDistinct, hsource, hschedule, htarget,
      hrules]
  · simp only [CIDRPolicySpec.ofJson, structMembers_object h.distinct,
      Option.bind_eq_bind, Option.bind_some, Option.bind_eq_some_iff] at hb
    obtain ⟨source', hsource', schedule', hschedule', target', htarget', rules', hrules', heq⟩ := hb
    rw [← Option.some.inj heq, hsourceSame _ hsource', hscheduleSame _ hschedule',
      htargetSame _ htarget', hrulesSame _ hrules']

theorem understood_status : Understood CustomResource.status CIDRPolicyStatus.ofJson := by
  intro document stored hunique haccept hnull
  obtain ⟨members, members', rfl, rfl, h⟩ :=
    admitted_object CustomResource.status_sound hunique hnull haccept
  obtain ⟨time, htime, htimeSame⟩ := (understood_text true).optional rfl
    (h.field "lastSuccessfulResolutionTime" _ rfl) (h.unique "lastSuccessfulResolutionTime")
  obtain ⟨cidrs, hcidrs, hcidrsSame⟩ := ((understood_text false).list false rfl).defaulted rfl
    (show readVec readText (array []) = some [] from rfl) rfl
    (h.field "lastObservedCidrs" _ rfl) (h.unique "lastObservedCidrs")
  obtain ⟨error, herror, herrorSame⟩ := (understood_text true).optional rfl
    (h.field "lastReconciliationError" _ rfl) (h.unique "lastReconciliationError")
  refine ⟨⟨time, cidrs, error⟩, ?_, fun b hb => ?_⟩
  · simp [CIDRPolicyStatus.ofJson, structMembers_object h.storedDistinct, htime, hcidrs, herror]
  · simp only [CIDRPolicyStatus.ofJson, structMembers_object h.distinct,
      Option.bind_eq_bind, Option.bind_some, Option.bind_eq_some_iff] at hb
    obtain ⟨time', htime', cidrs', hcidrs', error', herror', heq⟩ := hb
    rw [← Option.some.inj heq, htimeSame _ htime', hcidrsSame _ hcidrs', herrorSame _ herror']

/-- What the server stores of an admitted spec is a spec that the controller reads, and the same one
that the manifest says. -/
theorem admitted_specs_are_read (document stored : Json) (hunique : document.uniqueNames)
    (haccept : CustomResource.spec.accept document = some stored) :
    ∃ spec, CIDRPolicySpec.ofJson stored = some spec ∧
      ∀ spec', CIDRPolicySpec.ofJson document = some spec' → spec' = spec :=
  understood_spec document stored hunique haccept (ne_null_of_not_nullable haccept rfl)

/-- A manifest with nulls, with a member that is unknown and with the others in any order. -/
def looseSpec : Json := object [
  ("rules", array [object [("podSelector", object [("matchLabels", null)]), ("directions", null)]]),
  ("paused", bool true),
  ("target", object [("podSelector", object [])]),
  ("source", object [("jmesPath", string "prefixes"), ("pointer", null),
    ("address", string "lists.example"), ("comment", string "weekly")])]

theorem looseSpec_is_read : ∃ spec, CIDRPolicySpec.ofJson (object [
    ("rules", array [object [
      ("podSelector", object [("matchLabels", null)]),
      ("directions", null)]]),
    ("target", object [("podSelector", object [])]),
    ("source", object [("jmesPath", string "prefixes"), ("pointer", null),
      ("address", string "lists.example")])]) = some spec ∧
    ∀ spec', CIDRPolicySpec.ofJson looseSpec = some spec' → spec' = spec :=
  admitted_specs_are_read looseSpec _ (by decide) rfl

end Specs
end Ipmaze
