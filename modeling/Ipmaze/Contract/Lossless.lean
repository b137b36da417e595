import Ipmaze.Contract.Decoding

/-! Specs that pass the published schema are read without loss: the document that a spec read from
them is written to is the one they were, but for the order of its members. -/
namespace Ipmaze
open Json Schema

/-- Documents that the schema accepts are read, and written back alike. -/
def Lossless {α : Type} (schema : Schema) (read : Json → Option α) (write : α → Json) : Prop :=
  ∀ document, schema document → document.uniqueNames →
    ∃ a, read document = some a ∧ document.Alike (write a)

section Rules
variable {α : Type} {schema : Schema} {read : Json → Option α} {write : α → Json}
variable {members : List (String × Json)} {fields : List (String × Schema)}

theorem object_of_type {document : Json} (h : type .object document) :
    ∃ members, document = object members := by
  cases document with
  | object members => exact ⟨members, rfl⟩
  | _ => cases h

theorem array_of_type {document : Json} (h : type .array document) :
    ∃ elements, document = array elements := by
  cases document with
  | array elements => exact ⟨elements, rfl⟩
  | _ => cases h

/-- A member of a closed object is one of the properties and passes its schema. -/
theorem lookup_properties {name : String} {value : Json}
    (h : properties fields nothing (object members)) (hvalue : members.lookup name = some value) :
    ∃ schema, fields.lookup name = some schema ∧ schema value := by
  have hmember := List.all_eq_true.mp h (name, value) (mem_of_lookup hvalue)
  cases hfield : fields.lookup name with
  | none =>
    rw [hfield] at hmember
    cases hmember
  | some schema =>
    rw [hfield] at hmember
    exact ⟨schema, rfl, hmember⟩

theorem lookup_isSome_of_required {names : List String} (h : required names (object members))
    (name : String) (hname : name ∈ names) : ∃ value, members.lookup name = some value := by
  obtain ⟨⟨name', value⟩, hmem, heq⟩ := List.any_eq_true.mp (List.all_eq_true.mp h name hname)
  obtain rfl := eq_of_beq heq
  cases hlookup : members.lookup name' with
  | none => simpa using List.lookup_eq_none_iff.mp hlookup _ hmem
  | some value => exact ⟨value, rfl⟩

theorem mem_names_of_lookup {name : String} {value : Json}
    (h : properties fields nothing (object members)) (hvalue : members.lookup name = some value) :
    name ∈ fields.map Prod.fst := by
  obtain ⟨schema, hfield, -⟩ := lookup_properties h hvalue
  exact List.mem_map.mpr ⟨_, mem_of_lookup hfield, rfl⟩

/-- What is under a property of a closed object passes the schema of that property. -/
theorem lookup_valid (h : properties fields nothing (object members))
    (hunique : (object members).uniqueNames) (name : String)
    (hname : fields.lookup name = some schema) :
    ∀ value ∈ members.lookup name, schema value ∧ value.uniqueNames := by
  intro value hvalue
  obtain ⟨schema', hfield, hschema⟩ := lookup_properties h hvalue
  rw [uniqueNames, Bool.and_eq_true] at hunique
  obtain rfl := Option.some.inj (hname.symm.trans hfield)
  exact ⟨hschema, uniqueNames_of_mem hunique.2 (mem_of_lookup hvalue)⟩

theorem structMembers_unique {names : List (String × Bool)} (h : (object members).uniqueNames) :
    structMembers names (object members) = some members := by
  rw [uniqueNames, Bool.and_eq_true, decide_eq_true_eq] at h
  exact structMembers_object h.1

/-- What a required member is read as. -/
theorem Lossless.mandatory (h : Lossless schema read write) {value : Option Json}
    (hvalue : ∀ document ∈ value, schema document ∧ document.uniqueNames)
    (hsome : ∃ document, value = some document) :
    ∃ a, Ipmaze.mandatory read value = some a ∧ Option.Rel Alike value (some (write a)) := by
  obtain ⟨document, rfl⟩ := hsome
  obtain ⟨hschema, hunique⟩ := hvalue document rfl
  obtain ⟨a, hread, halike⟩ := h document hschema hunique
  exact ⟨a, hread, .some halike⟩

/-- What an optional member is read as. -/
theorem Lossless.optional (h : Lossless schema read write) (hnull : schema null = false)
    {value : Option Json} (hvalue : ∀ document ∈ value, schema document ∧ document.uniqueNames) :
    ∃ a, Ipmaze.optional read value = some a ∧ Option.Rel Alike value (a.map write) := by
  cases value with
  | none => exact ⟨none, rfl, .none⟩
  | some document =>
    obtain ⟨hschema, hunique⟩ := hvalue document rfl
    obtain ⟨a, hread, halike⟩ := h document hschema hunique
    refine ⟨some a, ?_, .some halike⟩
    rw [Ipmaze.optional, hread]
    · rfl
    · rintro rfl
      rw [hnull] at hschema
      cases hschema

theorem Lossless.items (h : Lossless schema read write) :
    Lossless (allOf [type .array, items schema]) (readVec read) fun values =>
      array (values.map write) := by
  intro document hschema hunique
  rw [allOf_iff, List.forall_mem_cons, List.forall_mem_singleton] at hschema
  obtain ⟨elements, rfl⟩ := array_of_type hschema.1
  rw [uniqueNames] at hunique
  have hitems := items_array.mp hschema.2
  have hread : ∃ values, elements.mapM read = some values ∧
      List.Forall₂ Alike elements (values.map write) := by
    clear hschema
    induction elements with
    | nil => exact ⟨[], rfl, .nil⟩
    | cons element elements ih =>
      rw [uniqueNamesElements, Bool.and_eq_true] at hunique
      rw [List.forall_mem_cons] at hitems
      obtain ⟨a, ha, halike⟩ := h element hitems.1 hunique.1
      obtain ⟨values, hvalues, hall⟩ := ih hunique.2 hitems.2
      exact ⟨a :: values, by simp [ha, hvalues], .cons halike hall⟩
  obtain ⟨values, hvalues, hall⟩ := hread
  exact ⟨values, hvalues, .array hall⟩

theorem lossless_text : Lossless (type .string) readText string := by
  intro document hschema _
  cases document with
  | string text => exact ⟨text, rfl, .refl _⟩
  | _ => cases hschema

/-- More keywords only rule out documents. -/
theorem Lossless.mono {schema' : Schema} (h : Lossless schema read write)
    (himp : ∀ document, schema' document → schema document) : Lossless schema' read write :=
  fun document hschema hunique => h document (himp document hschema) hunique

/-- An object is like a record that has what it has under the fields of the record, and has nothing
else. -/
theorem alike_record {entries : List (String × Option Json)}
    (hentries : (entries.map Prod.fst).Nodup)
    (hclosed : ∀ name value, members.lookup name = some value → name ∈ entries.map Prod.fst)
    (hfields : ∀ entry ∈ entries, Option.Rel Alike (members.lookup entry.1) entry.2) :
    (object members).Alike (record entries) := by
  refine .object fun name => ?_
  change Option.Rel Alike _ ((record entries).members.lookup name)
  rw [lookup_record hentries]
  by_cases hname : name ∈ entries.map Prod.fst
  · obtain ⟨⟨name', value⟩, hmem, rfl⟩ := List.mem_map.mp hname
    rw [lookup_of_mem hentries hmem]
    exact hfields _ hmem
  · have hnone : entries.lookup name = none := by
      cases hlookup : entries.lookup name with
      | none => rfl
      | some value => exact (hname (List.mem_map.mpr ⟨_, mem_of_lookup hlookup, rfl⟩)).elim
    have hmissing : members.lookup name = none := by
      cases hlookup : members.lookup name with
      | none => rfl
      | some value => exact (hname (hclosed name value hlookup)).elim
    rw [hnone, hmissing]
    exact .none

end Rules

section Selectors
open PolicySchema

theorem lossless_operator : Lossless
    (allOf [type .string, enum ["In", "NotIn", "Exists", "DoesNotExist"]])
    LabelSelectorOperator.ofJson LabelSelectorOperator.toJson := by
  intro document hschema _
  rw [allOf_iff, List.forall_mem_cons, List.forall_mem_singleton] at hschema
  cases document with
  | string text =>
    have htext := enum_string.mp hschema.2
    simp only [List.mem_cons, List.not_mem_nil, or_false] at htext
    rcases htext with rfl | rfl | rfl | rfl
    · exact ⟨.In, rfl, .refl _⟩
    · exact ⟨.NotIn, rfl, .refl _⟩
    · exact ⟨.Exists, rfl, .refl _⟩
    · exact ⟨.DoesNotExist, rfl, .refl _⟩
  | _ => cases hschema.1

theorem lossless_direction : Lossless direction Direction.ofJson Direction.toJson := by
  intro document hschema _
  rw [direction, allOf_iff, List.forall_mem_cons, List.forall_mem_singleton] at hschema
  cases document with
  | string text =>
    have htext := enum_string.mp hschema.2
    simp only [List.mem_cons, List.not_mem_nil, or_false] at htext
    rcases htext with rfl | rfl
    · exact ⟨.ingress, rfl, .refl _⟩
    · exact ⟨.egress, rfl, .refl _⟩
  | _ => cases hschema.1

section
variable {members : List (String × Json)}

/-- Entries under distinct keys are all read. -/
theorem readEntries_unique (hunique : (members.map Prod.fst).Nodup)
    (htexts : ∀ member ∈ members, ∃ text, member.2 = string text) (entries : StringMap) :
    ∃ read, readEntries members entries = some read ∧ ∀ key,
      (read.lookup key).map string = (members.lookup key).or ((entries.lookup key).map string) := by
  induction members generalizing entries with
  | nil => exact ⟨entries, rfl, fun key => rfl⟩
  | cons member members ih =>
    obtain ⟨name, value⟩ := member
    rw [List.map_cons, List.nodup_cons] at hunique
    rw [List.forall_mem_cons] at htexts
    obtain ⟨text, rfl⟩ := htexts.1
    obtain ⟨read, hread, hlookup⟩ := ih hunique.2 htexts.2 (entries.insert name text)
    refine ⟨read, hread, fun key => ?_⟩
    rw [hlookup, List.lookup_cons]
    cases hkey : key == name with
    | true =>
      obtain rfl := eq_of_beq hkey
      have hnone : members.lookup key = none :=
        lookup_eq_none_of_forall fun found hmem => hunique.1 (List.mem_map.mpr ⟨_, hmem, rfl⟩)
      simp [hnone]
    | false => rw [Finmap.lookup_insert_of_ne _ (ne_of_beq_false hkey)]

theorem lookup_map_key {β : Type} (keys : List String) (f : String → β) (key : String) :
    (keys.map fun key => (key, f key)).lookup key = if key ∈ keys then some (f key) else none := by
  induction keys with
  | nil => rfl
  | cons first keys ih =>
    rw [List.map_cons, List.lookup_cons, ih]
    cases hkey : key == first with
    | true => simp [eq_of_beq hkey]
    | false => simp [ne_of_beq_false hkey]

theorem lookup_toJson (entries : StringMap) (key : String) :
    entries.toJson.members.lookup key = (entries.lookup key).map string := by
  rw [StringMap.toJson, members_object, lookup_map_key]
  cases h : entries.lookup key with
  | none => simp [Finmap.mem_keys, ← Finmap.lookup_isSome, h]
  | some text => simp [Finmap.mem_keys, ← Finmap.lookup_isSome, h]

end

theorem lossless_stringMap : Lossless stringMap StringMap.ofJson StringMap.toJson := by
  intro document hschema hunique
  simp only [stringMap, allOf_iff, List.forall_mem_cons] at hschema
  obtain ⟨htype, hproperties, -⟩ := hschema
  obtain ⟨members, rfl⟩ := object_of_type htype
  have htexts : ∀ member ∈ members, ∃ text, member.2 = string text := by
    rintro ⟨name, value⟩ hmem
    have hstring := List.all_eq_true.mp hproperties _ hmem
    cases value with
    | string text => exact ⟨text, rfl⟩
    | _ => cases hstring
  rw [uniqueNames, Bool.and_eq_true, decide_eq_true_eq] at hunique
  obtain ⟨read, hread, hlookup⟩ := readEntries_unique hunique.1 htexts ∅
  refine ⟨read, hread, .object fun name => ?_⟩
  change Option.Rel Alike _ (read.toJson.members.lookup name)
  rw [lookup_toJson, hlookup]
  cases members.lookup name with
  | none => exact .none
  | some value => exact .some (.refl _)

theorem lossless_requirement : Lossless labelSelectorRequirement LabelSelectorRequirement.ofJson
    LabelSelectorRequirement.toJson := by
  intro document hschema hunique
  simp only [labelSelectorRequirement, allOf_iff, List.forall_mem_cons] at hschema
  obtain ⟨htype, hrequired, hproperties, -⟩ := hschema
  obtain ⟨members, rfl⟩ := object_of_type htype
  have htext : Lossless (allOf [type .string, minLength 1]) readText string :=
    lossless_text.mono fun _ h => allOf_iff.mp h _ (List.mem_cons_self ..)
  obtain ⟨key, hkey, hkeyAlike⟩ := htext.mandatory (lookup_valid hproperties hunique "key" rfl)
    (lookup_isSome_of_required hrequired "key" (by simp))
  obtain ⟨operator, hoperator, hoperatorAlike⟩ := lossless_operator.mandatory
    (lookup_valid hproperties hunique "operator" rfl)
    (lookup_isSome_of_required hrequired "operator" (by simp))
  obtain ⟨values, hvalues, hvaluesAlike⟩ := lossless_text.items.optional rfl
    (lookup_valid hproperties hunique "values" rfl)
  refine ⟨⟨key, operator, values⟩, ?_, alike_record (by simp) ?_ ?_⟩
  · simp [LabelSelectorRequirement.ofJson, structMembers_unique hunique, hkey, hoperator, hvalues]
  · exact fun name value hvalue => mem_names_of_lookup hproperties hvalue
  · simp only [List.forall_mem_cons, List.not_mem_nil, false_implies, implies_true, and_true]
    exact ⟨hkeyAlike, hoperatorAlike, hvaluesAlike⟩

theorem lossless_labelSelector :
    Lossless labelSelector LabelSelector.ofJson LabelSelector.toJson := by
  intro document hschema hunique
  simp only [labelSelector, allOf_iff, List.forall_mem_cons] at hschema
  obtain ⟨htype, hproperties, -⟩ := hschema
  obtain ⟨members, rfl⟩ := object_of_type htype
  obtain ⟨labels, hlabels, hlabelsAlike⟩ := lossless_stringMap.optional rfl
    (lookup_valid hproperties hunique "matchLabels" rfl)
  obtain ⟨expressions, hexpressions, hexpressionsAlike⟩ := lossless_requirement.items.optional rfl
    (lookup_valid hproperties hunique "matchExpressions" rfl)
  refine ⟨⟨labels, expressions⟩, ?_, alike_record (by simp) ?_ ?_⟩
  · simp [LabelSelector.ofJson, structMembers_unique hunique, hlabels, hexpressions]
  · exact fun name value hvalue => mem_names_of_lookup hproperties hvalue
  · simp only [List.forall_mem_cons, List.not_mem_nil, false_implies, implies_true, and_true]
    exact ⟨hlabelsAlike, hexpressionsAlike⟩

theorem lossless_rule : Lossless rule RuleSpec.ofJson RuleSpec.toJson := by
  intro document hschema hunique
  simp only [rule, allOf_iff, List.forall_mem_cons] at hschema
  obtain ⟨htype, hproperties, -⟩ := hschema
  obtain ⟨members, rfl⟩ := object_of_type htype
  have hlist : Lossless (allOf [type .array, items direction, minItems 1, uniqueItems])
      (readVec Direction.ofJson) fun directions => array (directions.map Direction.toJson) := by
    refine lossless_direction.items.mono fun document h => ?_
    simp only [allOf_iff, List.forall_mem_cons] at h ⊢
    exact ⟨h.1, h.2.1, by simp⟩
  obtain ⟨directions, hdirections, hdirectionsAlike⟩ := hlist.optional rfl
    (lookup_valid hproperties hunique "directions" rfl)
  obtain ⟨pods, hpods, hpodsAlike⟩ := lossless_labelSelector.optional rfl
    (lookup_valid hproperties hunique "podSelector" rfl)
  obtain ⟨namespaces, hnamespaces, hnamespacesAlike⟩ := lossless_labelSelector.optional rfl
    (lookup_valid hproperties hunique "namespaceSelector" rfl)
  refine ⟨⟨directions, pods, namespaces⟩, ?_, alike_record (by simp) ?_ ?_⟩
  · simp [RuleSpec.ofJson, structMembers_unique hunique, hdirections, hpods, hnamespaces]
  · exact fun name value hvalue => mem_names_of_lookup hproperties hvalue
  · simp only [List.forall_mem_cons, List.not_mem_nil, false_implies, implies_true, and_true]
    exact ⟨hdirectionsAlike, hpodsAlike, hnamespacesAlike⟩

theorem lossless_target : Lossless target TargetSpec.ofJson TargetSpec.toJson := by
  intro document hschema hunique
  simp only [target, allOf_iff, List.forall_mem_cons] at hschema
  obtain ⟨htype, hrequired, hproperties, -⟩ := hschema
  obtain ⟨members, rfl⟩ := object_of_type htype
  obtain ⟨pods, hpods, hpodsAlike⟩ := lossless_labelSelector.mandatory
    (lookup_valid hproperties hunique "podSelector" rfl)
    (lookup_isSome_of_required hrequired "podSelector" (by simp))
  refine ⟨⟨pods⟩, ?_, alike_record (by simp) ?_ ?_⟩
  · simp [TargetSpec.ofJson, structMembers_unique hunique, hpods]
  · exact fun name value hvalue => mem_names_of_lookup hproperties hvalue
  · exact List.forall_mem_singleton.mpr hpodsAlike

end Selectors

section Specs
open PolicySchema

/-- A text that has to be more than a text. -/
theorem lossless_allOf_text (schemas : List Schema) :
    Lossless (allOf (type .string :: schemas)) readText string :=
  lossless_text.mono fun _ h => allOf_iff.mp h _ (List.mem_cons_self ..)

theorem lossless_pointer : Lossless pointer PointerSpec.ofJson PointerSpec.toJson := by
  intro document hschema hunique
  simp only [pointer, allOf_iff, List.forall_mem_cons] at hschema
  obtain ⟨htype, hrequired, hproperties, -⟩ := hschema
  obtain ⟨members, rfl⟩ := object_of_type htype
  obtain ⟨regex, hregex, hregexAlike⟩ := (lossless_allOf_text _).mandatory
    (lookup_valid hproperties hunique "regex" rfl)
    (lookup_isSome_of_required hrequired "regex" (by simp))
  refine ⟨⟨regex⟩, ?_, alike_record (by simp) ?_ ?_⟩
  · simp [PointerSpec.ofJson, structMembers_unique hunique, hregex]
  · exact fun name value hvalue => mem_names_of_lookup hproperties hvalue
  · exact List.forall_mem_singleton.mpr hregexAlike

variable (formats : String → String → Bool)

theorem lossless_source : Lossless (source formats) SourceSpec.ofJson SourceSpec.toJson := by
  intro document hschema hunique
  simp only [source, allOf_iff, List.forall_mem_cons] at hschema
  obtain ⟨htype, hrequired, hproperties, -⟩ := hschema
  obtain ⟨members, rfl⟩ := object_of_type htype
  obtain ⟨address, haddress, haddressAlike⟩ := (lossless_allOf_text _).mandatory
    (lookup_valid hproperties hunique "address" rfl)
    (lookup_isSome_of_required hrequired "address" (by simp))
  obtain ⟨pointer, hpointer, hpointerAlike⟩ := lossless_pointer.optional rfl
    (lookup_valid hproperties hunique "pointer" rfl)
  obtain ⟨jmesPath, hjmesPath, hjmesPathAlike⟩ := (lossless_allOf_text _).mandatory
    (lookup_valid hproperties hunique "jmesPath" rfl)
    (lookup_isSome_of_required hrequired "jmesPath" (by simp))
  refine ⟨⟨address, pointer, jmesPath⟩, ?_, alike_record (by simp) ?_ ?_⟩
  · simp [SourceSpec.ofJson, structMembers_unique hunique, haddress, hpointer, hjmesPath]
  · exact fun name value hvalue => mem_names_of_lookup hproperties hvalue
  · simp only [List.forall_mem_cons, List.not_mem_nil, false_implies, implies_true, and_true]
    exact ⟨haddressAlike, hpointerAlike, hjmesPathAlike⟩

theorem lossless_spec :
    Lossless (PolicySchema.spec formats) CIDRPolicySpec.ofJson CIDRPolicySpec.toJson := by
  intro document hschema hunique
  simp only [PolicySchema.spec, allOf_iff, List.forall_mem_cons] at hschema
  obtain ⟨htype, hrequired, hproperties, -⟩ := hschema
  obtain ⟨members, rfl⟩ := object_of_type htype
  have hlist : Lossless (allOf [type .array, minItems 1, items rule]) (readVec RuleSpec.ofJson)
      fun rules => array (rules.map RuleSpec.toJson) := by
    refine lossless_rule.items.mono fun document h => ?_
    simp only [allOf_iff, List.forall_mem_cons] at h ⊢
    exact ⟨h.1, h.2.2.1, by simp⟩
  obtain ⟨source, hsource, hsourceAlike⟩ := (lossless_source formats).mandatory
    (lookup_valid hproperties hunique "source" rfl)
    (lookup_isSome_of_required hrequired "source" (by simp))
  obtain ⟨schedule, hschedule, hscheduleAlike⟩ := (lossless_allOf_text _).optional rfl
    (lookup_valid hproperties hunique "resyncSchedule" rfl)
  obtain ⟨target, htarget, htargetAlike⟩ := lossless_target.mandatory
    (lookup_valid hproperties hunique "target" rfl)
    (lookup_isSome_of_required hrequired "target" (by simp))
  obtain ⟨rules, hrules, hrulesAlike⟩ := hlist.mandatory
    (lookup_valid hproperties hunique "rules" rfl)
    (lookup_isSome_of_required hrequired "rules" (by simp))
  refine ⟨⟨source, schedule, target, rules⟩, ?_, alike_record (by simp) ?_ ?_⟩
  · simp [CIDRPolicySpec.ofJson, structMembers_unique hunique, hsource, hschedule, htarget, hrules]
  · exact fun name value hvalue => mem_names_of_lookup hproperties hvalue
  · simp only [List.forall_mem_cons, List.not_mem_nil, false_implies, implies_true, and_true]
    exact ⟨hsourceAlike, hscheduleAlike, htargetAlike, hrulesAlike⟩

/-- A spec that the published schema accepts is one the controller reads, and nothing that it says
is lost on the way. -/
theorem accepted_specs_are_read_alike (document : Json) (hschema : PolicySchema.spec formats document)
    (hunique : document.uniqueNames) :
    ∃ spec, CIDRPolicySpec.ofJson document = some spec ∧ document.Alike spec.toJson :=
  lossless_spec formats document hschema hunique

/-- The members in another order than the controller writes them. -/
def reorderedSpec : Json := object [
  ("rules", array [object [
    ("namespaceSelector", object []),
    ("directions", array [string "egress"])]]),
  ("target", object [("podSelector", object [])]),
  ("source", object [("jmesPath", string "prefixes"), ("address", string "lists.example")])]

theorem reorderedSpec_is_read_alike :
    ∃ spec, CIDRPolicySpec.ofJson reorderedSpec = some spec ∧ reorderedSpec.Alike spec.toJson :=
  accepted_specs_are_read_alike (fun format text => format == "hostname" && text == "lists.example")
    reorderedSpec (by decide) (by decide)

end Specs
end Ipmaze
