import Ipmaze.Contract.PolicySchema
import Ipmaze.Data.Runs
import Ipmaze.Schedules
import Ipmaze.Rendering.WellFormed

/-! The two definitions of a valid spec, in the code and in the schema, and what tells them
apart. -/
namespace Ipmaze
open Cron Checked

/-- What the controller relies on of the `cron` crate behind the second 0: the only white space is
blanks, tabs, line feeds and carriage returns, how much of it there is makes no difference, and
midnight is a schedule. -/
structure Crates.SplitsAtMultispace (K : Crates) : Prop where
  spaces {text : String} {schedule : K.Schedule} (h : K.parseSchedule text = .ok schedule) :
    ∀ c ∈ text.toList, Text.isWhitespace c → isMultispace c
  spacing {text text' : String} {schedule : K.Schedule}
    (hfields : spacedTexts text.toList = spacedTexts text'.toList)
    (h : K.parseSchedule ("0 " ++ text) = .ok schedule) :
    ∃ schedule', K.parseSchedule ("0 " ++ text') = .ok schedule'
  midnight : ∃ schedule, K.parseSchedule ("0 " ++ defaultResyncSchedule) = .ok schedule

/-- If the text has five fields, they are accepted once the white space of the crate sets them
apart. -/
def FieldsValid (K : Crates) (text : String) : Prop :=
  (Text.splitWhitespace text).length = 5 → ∃ respaced schedule,
    spacedTexts respaced.toList = (Text.splitWhitespace text).map String.toList ∧
      K.parseSchedule ("0 " ++ respaced) = .ok schedule

/-- Five fields with no other white space around them than the crate takes. -/
def Multispaced (text : String) : Prop :=
  (Text.splitWhitespace text).length = 5 ∧ ∀ c ∈ text.toList, Text.isWhitespace c → isMultispace c

/-- Five fields, the first of which begins the text and the last of which ends it. -/
def Flush (text : String) : Prop :=
  (Runs.runs PolicySchema.isSpace text.toList).length = 5 ∧
    (∀ c ∈ text.toList.head?, PolicySchema.isSpace c = false) ∧
      ∀ c ∈ text.toList.getLast?, PolicySchema.isSpace c = false

section Code
variable {K : Crates} {text : String}

theorem spacedTexts_of_multispaced (h : Multispaced text) :
    spacedTexts text.toList = (Text.splitWhitespace text).map String.toList := by
  have hspace : ∀ c ∈ text.toList, Text.isWhitespace c = isMultispace c := by
    intro c hc
    cases hm : isMultispace c with
    | true => exact isWhitespace_of_isMultispace hm
    | false =>
      rw [← Bool.not_eq_true] at hm ⊢
      exact fun hw => hm (h.2 c hc hw)
  simp [spacedTexts, Text.splitWhitespace, Text.splitOnP_congr hspace]

theorem validateResyncSchedule_some {schedule : K.Schedule} :
    validateResyncSchedule K (some text) = .ok schedule ↔
      (Text.splitWhitespace text).length = 5 ∧ K.parseSchedule ("0 " ++ text) = .ok schedule := by
  change (if (Text.splitWhitespace text).length ≠ 5 then _ else _) = _ ↔ _
  split_ifs with hlength
  · simp [hlength]
  · exact mapError_ok_iff.trans (and_iff_right (not_not.mp hlength)).symm

/-- A schedule whose fields are valid is accepted if they are set apart as the crate has it. -/
theorem accepts_schedule_iff (hcron : K.SplitsAtMultispace) (hvalid : FieldsValid K text) :
    (∃ schedule, validateResyncSchedule K (some text) = .ok schedule) ↔ Multispaced text := by
  simp only [validateResyncSchedule_some]
  constructor
  · rintro ⟨schedule, hlength, hparse⟩
    exact ⟨hlength, fun c hc => hcron.spaces hparse c (by simp [hc])⟩
  · intro h
    obtain ⟨respaced, schedule, hfields, hschedule⟩ := hvalid h.1
    rw [← spacedTexts_of_multispaced h] at hfields
    obtain ⟨schedule', hschedule'⟩ := hcron.spacing hfields hschedule
    exact ⟨schedule', h.1, hschedule'⟩

theorem validateResyncSchedule_none (hcron : K.SplitsAtMultispace) :
    ∃ schedule, validateResyncSchedule K none = .ok schedule := by
  obtain ⟨schedule, hschedule⟩ := hcron.midnight
  have hlength : (Text.splitWhitespace defaultResyncSchedule).length = 5 := by decide
  exact ⟨schedule, validateResyncSchedule_some.mpr ⟨hlength, hschedule⟩⟩

/-- The values of a spec that both definitions leave to other parsers are valid by themselves. -/
structure CIDRPolicySpec.ValuesValid (K : Crates) (formats : String → String → Bool)
    (spec : CIDRPolicySpec) : Prop where
  address : ∃ address, normalizeSourceAddress K spec.source.address = .ok address
  addressFormat : PolicySchema.address formats (.string spec.source.address)
  jmesPath : ∃ query, compileQuery K spec.source.jmesPath = .ok query
  jmesPath_ne : spec.source.jmesPath ≠ ""
  pointer : ∀ pointer ∈ spec.source.pointer, ∃ regex, K.compileRegex pointer.regex = .ok regex
  pointer_ne : ∀ pointer ∈ spec.source.pointer, pointer.regex ≠ ""
  schedule : ∀ text ∈ spec.resyncSchedule, FieldsValid K text

/-- The code accepts a spec for its rules, its keys and its schedule. -/
theorem accepts_spec_iff (hcron : K.SplitsAtMultispace) {formats : String → String → Bool}
    {spec : CIDRPolicySpec} (hvalues : spec.ValuesValid K formats) :
    (∃ validated, validateSpec K spec = .ok validated) ↔
      spec.WellFormed ∧ (∀ r ∈ spec.requirements, ¬ r.IsBlank) ∧
        ∀ text ∈ spec.resyncSchedule, Multispaced text := by
  have hschedule : (∃ schedule, validateResyncSchedule K spec.resyncSchedule = .ok schedule) ↔
      ∀ text ∈ spec.resyncSchedule, Multispaced text := by
    cases hsome : spec.resyncSchedule with
    | none => exact iff_of_true (validateResyncSchedule_none hcron) (by simp)
    | some text =>
      rw [accepts_schedule_iff hcron (hvalues.schedule text hsome)]
      simp
  have hpointer : ∃ regex,
      validatePointerRegex K (spec.source.pointer.map PointerSpec.regex) = .ok regex := by
    cases hsome : spec.source.pointer with
    | none => exact ⟨none, rfl⟩
    | some pointer =>
      obtain ⟨regex, hregex⟩ := hvalues.pointer pointer hsome
      exact ⟨some regex, by rw [Option.map_some, validatePointerRegex, hregex]; rfl⟩
  rw [← hschedule, CIDRPolicySpec.forall_requirements]
  constructor
  · rintro ⟨validated, h⟩
    obtain ⟨hrules, -, -, -, hsched, htarget, hall⟩ := validateSpec_ok_iff.mp h
    have hrule (rule : RuleSpec) (hr : rule ∈ spec.rules) :=
      validateRule_ok_iff.mp (forM_ok_iff.mp hall rule hr)
    obtain ⟨htargetWell, htargetKeys⟩ := validateSelector_ok_iff.mp htarget
    exact ⟨⟨hrules, htargetWell, fun rule hr => (hrule rule hr).1⟩,
      ⟨htargetKeys, fun rule hr => (hrule rule hr).2⟩, _, hsched⟩
  · rintro ⟨⟨hrules, htarget, hwell⟩, ⟨htargetKeys, hkeys⟩, schedule, hsched⟩
    obtain ⟨address, haddress⟩ := hvalues.address
    obtain ⟨regex, hregex⟩ := hpointer
    refine ⟨⟨address, regex, schedule⟩, validateSpec_ok_iff.mpr ⟨hrules, haddress, hregex,
      hvalues.jmesPath, hsched, validateSelector_ok_iff.mpr ⟨htarget, htargetKeys⟩, ?_⟩⟩
    exact forM_ok_iff.mpr fun rule hr => validateRule_ok_iff.mpr ⟨hwell rule hr, hkeys rule hr⟩

end Code

section Contract
open Schema PolicySchema

theorem stringMap_toJson (entries : StringMap) : stringMap entries.toJson := by
  rw [stringMap, allOf_iff, List.forall_mem_cons]
  refine ⟨rfl, ?_⟩
  simp [StringMap.toJson, properties]

theorem labelSelectorRequirement_toJson {requirement : LabelSelectorRequirement} :
    labelSelectorRequirement requirement.toJson ↔
      requirement.WellFormed ∧ requirement.key ≠ "" := by
  obtain ⟨key, operator, values⟩ := requirement
  rw [and_comm]
  cases operator <;> cases values <;>
    simp [labelSelectorRequirement, LabelSelectorRequirement.toJson, LabelSelectorOperator.toJson,
      LabelSelectorOperator.asStr, LabelSelectorRequirement.WellFormed, texts, List.lookup_cons]

theorem labelSelector_toJson {selector : LabelSelector} : labelSelector selector.toJson ↔
    selector.WellFormed ∧ ∀ r ∈ selector.requirements, r.key ≠ "" := by
  have hboth : selector.WellFormed ∧ (∀ r ∈ selector.requirements, r.key ≠ "") ↔
      ∀ r ∈ selector.requirements, labelSelectorRequirement r.toJson := by
    simp only [labelSelectorRequirement_toJson]
    exact forall₂_and.symm
  rw [hboth]
  obtain ⟨labels, expressions⟩ := selector
  cases labels <;> cases expressions <;>
    simp [labelSelector, LabelSelector.toJson, LabelSelector.requirements, List.lookup_cons,
      stringMap_toJson]

/-- The directions of a rule are listed once each. -/
def RuleSpec.DistinctDirections (rule : RuleSpec) : Prop :=
  ∀ directions ∈ rule.directions, directions.Nodup

theorem directions_toJson {directions : List Direction} :
    allOf [type .array, items direction, minItems 1, uniqueItems]
      (.array (directions.map Direction.toJson)) ↔ directions ≠ [] ∧ directions.Nodup := by
  have htexts : directions.map Direction.toJson =
      (directions.map fun d => if d = .ingress then "ingress" else "egress").map Json.string := by
    rw [List.map_map]
    refine List.map_congr_left fun d _ => ?_
    cases d <;> rfl
  have hinjective : Function.Injective
      fun d : Direction => if d = .ingress then "ingress" else "egress" := by
    intro d d' h
    cases d <;> cases d' <;> simp_all
  have hdirection (d : Direction) : direction d.toJson := by
    cases d <;> simp [direction, Direction.toJson]
  have hitems : items direction (.array (directions.map Direction.toJson)) := by
    simp [hdirection]
  simp only [allOf_iff, List.forall_mem_cons, hitems]
  rw [htexts, uniqueItems_strings, List.nodup_map_iff hinjective]
  simp

/-- A selector that is absent is not checked. -/
theorem optionalSelector_toJson {selector : Option LabelSelector} :
    (∀ value, selector.map LabelSelector.toJson = some value → labelSelector value) ↔
      (∀ s ∈ selector, s.WellFormed) ∧ ∀ s ∈ selector, ∀ r ∈ s.requirements, r.key ≠ "" := by
  cases selector with
  | none => simp
  | some selector => simp [labelSelector_toJson]

theorem optionalDirections_toJson {directions : Option (List Direction)} :
    (∀ value, directions.map (fun directions => Json.array (directions.map Direction.toJson)) =
      some value → allOf [type .array, items direction, minItems 1, uniqueItems] value) ↔
      directions ≠ some [] ∧ ∀ ds ∈ directions, ds.Nodup := by
  cases directions with
  | none => simp
  | some directions =>
    simp only [Option.map_some, Option.some.injEq, forall_eq', directions_toJson, Option.mem_def,
      ne_eq]

theorem rule_toJson {r : RuleSpec} : rule r.toJson ↔
    r.WellFormed ∧ (∀ requirement ∈ r.requirements, requirement.key ≠ "") ∧
      r.DistinctDirections := by
  have hfields : rule r.toJson ↔
      (r.directions ≠ some [] ∧ ∀ ds ∈ r.directions, ds.Nodup) ∧
        ((∀ s ∈ r.podSelector, s.WellFormed) ∧
          ∀ s ∈ r.podSelector, ∀ q ∈ s.requirements, q.key ≠ "") ∧
        ((∀ s ∈ r.namespaceSelector, s.WellFormed) ∧
          ∀ s ∈ r.namespaceSelector, ∀ q ∈ s.requirements, q.key ≠ "") ∧
        (r.podSelector.isSome ∨ r.namespaceSelector.isSome) := by
    have hpod : required ["podSelector"] r.toJson ↔ r.podSelector.isSome := by
      simp [RuleSpec.toJson, Option.isSome_iff_exists]
    have hns : required ["namespaceSelector"] r.toJson ↔ r.namespaceSelector.isSome := by
      simp [RuleSpec.toJson, Option.isSome_iff_exists]
    have hproperties (d s s' : Schema) : properties
          [("directions", d), ("podSelector", s), ("namespaceSelector", s')] nothing r.toJson ↔
        (∀ value, r.directions.map (fun directions =>
          Json.array (directions.map Direction.toJson)) = some value → d value) ∧
        (∀ value, r.podSelector.map LabelSelector.toJson = some value → s value) ∧
        ∀ value, r.namespaceSelector.map LabelSelector.toJson = some value → s' value := by
      simp [RuleSpec.toJson, List.lookup_cons]
    rw [← optionalDirections_toJson, ← optionalSelector_toJson, ← optionalSelector_toJson,
      ← hpod, ← hns, rule, allOf_iff, List.forall_mem_cons, List.forall_mem_cons, hproperties]
    simp [RuleSpec.toJson, and_assoc]
  rw [hfields, RuleSpec.forall_requirements, RuleSpec.DistinctDirections]
  constructor
  · rintro ⟨⟨hdirections, hdistinct⟩, ⟨hpod, hpodKeys⟩, ⟨hns, hnsKeys⟩, hselector⟩
    exact ⟨⟨hselector, hdirections, hpod, hns⟩, ⟨hpodKeys, hnsKeys⟩, hdistinct⟩
  · rintro ⟨⟨hselector, hdirections, hpod, hns⟩, ⟨hpodKeys, hnsKeys⟩, hdistinct⟩
    exact ⟨⟨hdirections, hdistinct⟩, ⟨hpod, hpodKeys⟩, ⟨hns, hnsKeys⟩, hselector⟩

theorem target_toJson {t : TargetSpec} : target t.toJson ↔
    t.podSelector.WellFormed ∧ ∀ r ∈ t.podSelector.requirements, r.key ≠ "" := by
  simp [target, TargetSpec.toJson, List.lookup_cons, labelSelector_toJson]

theorem source_toJson {K : Crates} {formats : String → String → Bool} {spec : CIDRPolicySpec}
    (hvalues : spec.ValuesValid K formats) : source formats spec.source.toJson := by
  cases hsome : spec.source.pointer with
  | none =>
    simp [source, SourceSpec.toJson, hsome, List.lookup_cons, hvalues.addressFormat,
      hvalues.jmesPath_ne]
  | some configured =>
    simp [source, pointer, SourceSpec.toJson, PointerSpec.toJson, hsome, List.lookup_cons,
      hvalues.addressFormat, hvalues.jmesPath_ne, hvalues.pointer_ne configured hsome]

theorem schedule_toJson {text : String} :
    allOf [type .string, minLength 1, pattern schedulePattern] (.string text) ↔ Flush text := by
  have hpattern : pattern schedulePattern (.string text) ↔ Flush text := by
    rw [pattern_string]
    exact Runs.mem_separated
  have hlength (h : Flush text) : minLength 1 (.string text) := by
    rw [minLength_one_string]
    rintro rfl
    exact Runs.ne_nil_of_runs h.1 rfl
  rw [allOf_iff, List.forall_mem_cons, List.forall_mem_cons, List.forall_mem_cons, hpattern]
  exact ⟨fun h => h.2.2.1, fun h => ⟨rfl, hlength h, h, by simp⟩⟩

/-- The schema accepts a spec for its rules, its keys, its directions and its schedule. -/
theorem spec_toJson {K : Crates} {formats : String → String → Bool} {s : CIDRPolicySpec}
    (hvalues : s.ValuesValid K formats) : spec formats s.toJson ↔
      s.WellFormed ∧ (∀ r ∈ s.requirements, r.key ≠ "") ∧
        (∀ r ∈ s.rules, r.DistinctDirections) ∧ ∀ text ∈ s.resyncSchedule, Flush text := by
  have hschedule : (∀ value, s.resyncSchedule.map Json.string = some value →
      allOf [type .string, minLength 1, pattern schedulePattern] value) ↔
        ∀ text ∈ s.resyncSchedule, Flush text := by
    cases s.resyncSchedule with
    | none => simp
    | some text => simp only [Option.map_some, Option.some.injEq, forall_eq', schedule_toJson,
        Option.mem_def]
  have hrules : allOf [type .array, minItems 1, items rule]
        (.array (s.rules.map RuleSpec.toJson)) ↔
      s.rules ≠ [] ∧ ∀ r ∈ s.rules, r.WellFormed ∧
        (∀ requirement ∈ r.requirements, requirement.key ≠ "") ∧ r.DistinctDirections := by
    simp [rule_toJson]
  have hfields : spec formats s.toJson ↔
      (∀ value, s.resyncSchedule.map Json.string = some value →
        allOf [type .string, minLength 1, pattern schedulePattern] value) ∧
      target s.target.toJson ∧
      allOf [type .array, minItems 1, items rule] (.array (s.rules.map RuleSpec.toJson)) := by
    rw [spec, allOf_iff, List.forall_mem_cons, List.forall_mem_cons, List.forall_mem_cons]
    simp [CIDRPolicySpec.toJson, List.lookup_cons, source_toJson hvalues]
  rw [hfields, hschedule, hrules, target_toJson, CIDRPolicySpec.forall_requirements]
  constructor
  · rintro ⟨hflush, ⟨htarget, hkeys⟩, hne, hall⟩
    exact ⟨⟨hne, htarget, fun r hr => (hall r hr).1⟩, ⟨hkeys, fun r hr => (hall r hr).2.1⟩,
      fun r hr => (hall r hr).2.2, hflush⟩
  · rintro ⟨⟨hne, htarget, hwell⟩, ⟨hkeys, hruleKeys⟩, hdistinct, hflush⟩
    exact ⟨hflush, ⟨htarget, hkeys⟩, hne, fun r hr => ⟨hwell r hr, hruleKeys r hr, hdistinct r hr⟩⟩

end Contract

/-- The code and the schema agree on a spec exactly if it breaks a rule that they share, or is
faultless in what only the code looks at exactly if it is in what only the schema looks at. -/
theorem schema_agrees_iff {K : Crates} (hcron : K.SplitsAtMultispace)
    {formats : String → String → Bool} {spec : CIDRPolicySpec}
    (hvalues : spec.ValuesValid K formats) :
    ((∃ validated, validateSpec K spec = .ok validated) ↔
      PolicySchema.spec formats spec.toJson) ↔
    (spec.WellFormed → (∀ r ∈ spec.requirements, r.key ≠ "") →
      ((∀ r ∈ spec.requirements, ¬ r.IsBlank) ∧
          (∀ text ∈ spec.resyncSchedule, Multispaced text) ↔
        (∀ rule ∈ spec.rules, rule.DistinctDirections) ∧
          ∀ text ∈ spec.resyncSchedule, Flush text)) := by
  have hkey (h : ∀ r ∈ spec.requirements, ¬ r.IsBlank) : ∀ r ∈ spec.requirements, r.key ≠ "" := by
    intro r hr hempty
    apply h r hr
    rw [LabelSelectorRequirement.IsBlank, hempty]
    decide
  rw [accepts_spec_iff hcron hvalues, spec_toJson hvalues]
  constructor
  · intro h hwell hpresent
    exact ⟨fun hcode => (h.mp ⟨hwell, hcode⟩).2.2,
      fun hschema => (h.mpr ⟨hwell, hpresent, hschema⟩).2⟩
  · intro h
    refine ⟨fun ⟨hwell, hcode⟩ => ?_, fun ⟨hwell, hpresent, hschema⟩ => ?_⟩
    · have hpresent := hkey hcode.1
      exact ⟨hwell, hpresent, (h hwell hpresent).mp hcode⟩
    · exact ⟨hwell, (h hwell hpresent).mpr hschema⟩

namespace Sample

theorem spacedTexts_zero (text : String) :
    spacedTexts ("0 " ++ text).toList = ['0'] :: spacedTexts text.toList := by
  have hchars : ("0 " ++ text).toList = '0' :: ' ' :: text.toList := by simp
  have hzero : isMultispace '0' = false := by decide
  have hblank : isMultispace ' ' = true := by decide
  simp [hchars, spacedTexts, List.splitOnP_cons_eq_if_modifyHead, hzero, hblank]

/-- There is no white space in a field. -/
theorem isMultispace_of_fields {text : String} {fields : List Field}
    (h : (spacedTexts text.toList).mapM readField = some fields) :
    ∀ c ∈ text.toList, Text.isWhitespace c → isMultispace c := by
  refine Text.forall_mem_of_splitOnP (p := isMultispace) (fun c hc _ => hc) ?_
  intro piece hpiece c hc hwhitespace
  have hne : piece ≠ [] := List.ne_nil_of_mem hc
  have hfield : piece ∈ spacedTexts text.toList := List.mem_filter.mpr ⟨hpiece, by simpa using hne⟩
  obtain ⟨field, hread⟩ := exists_of_mapM h piece hfield
  have hnot := (isWhitespace_of_isFieldChar (readField_chars hread c hc)).1
  rw [hwhitespace] at hnot
  cases hnot

theorem splitsAtMultispace : cronCrates.SplitsAtMultispace where
  spaces {text schedule} h := by
    change parseCron text = .ok schedule at h
    unfold parseCron at h
    split at h
    next hfields => exact isMultispace_of_fields hfields
    next => cases h
  spacing {text text' schedule} hfields h := by
    refine ⟨schedule, ?_⟩
    change parseCron ("0 " ++ text') = .ok schedule
    rw [parseCron, spacedTexts_zero, ← hfields, ← spacedTexts_zero]
    exact h
  midnight := ⟨_, rfl⟩

/-- No URL is a host name or an address by itself. -/
def urlFormats : String → String → Bool := fun _ _ => false

theorem valuesValid (rules : List RuleSpec) {schedule : Option String}
    (h : ∀ text ∈ schedule, FieldsValid cronCrates text) :
    { (policyWith rules none).spec with resyncSchedule := schedule }.ValuesValid cronCrates
      urlFormats := by
  have haddress : normalizeSourceAddress cronCrates address = .ok ⟨address, .url url, url⟩ := by
    rfl
  have hformat : PolicySchema.address urlFormats (.string address) := by decide
  have hquery : "prefixes" ≠ "" := by decide
  exact ⟨⟨_, haddress⟩, hformat, ⟨_, rfl⟩, hquery, nofun, nofun, h⟩

theorem valuesValid_midnight (rules : List RuleSpec) :
    (policyWith rules none).spec.ValuesValid cronCrates urlFormats := by
  have hnone : ∀ text ∈ (none : Option String), FieldsValid cronCrates text := by simp
  exact valuesValid rules hnone

/-- The sample spec, with its schedule over several lines. -/
def linesSpec : CIDRPolicySpec :=
  { (policyWith [rule] none).spec with resyncSchedule := some "0\n0\t*\r\n* *" }

theorem linesSpec_fieldsValid : ∀ text ∈ linesSpec.resyncSchedule, FieldsValid cronCrates text := by
  rintro text htext -
  obtain rfl := Option.some.inj htext
  exact ⟨"0 0 * * *", _, by decide, rfl⟩

def repeatedDirection : RuleSpec := { rule with directions := some [.ingress, .ingress] }

def blankKey : RuleSpec where
  directions := none
  podSelector := some { matchExpressions := some [⟨" ", .Exists, none⟩] }
  namespaceSelector := none

end Sample

open Sample in
/-- Fields that line breaks set apart are accepted by both sides. -/
theorem schema_agrees_iff_lines :
    (∃ validated, validateSpec cronCrates linesSpec = .ok validated) ∧
      PolicySchema.spec urlFormats linesSpec.toJson := by
  have haccepted : ∃ validated, validateSpec cronCrates linesSpec = .ok validated := ⟨_, rfl⟩
  have hnone : linesSpec.requirements = [] := rfl
  refine ⟨haccepted, ((schema_agrees_iff splitsAtMultispace
    (valuesValid [rule] linesSpec_fieldsValid)).mpr fun _ _ => ?_).mp haccepted⟩
  refine iff_of_true ⟨?_, ?_⟩ ⟨?_, ?_⟩
  · exact fun r hr => absurd (hnone ▸ hr) (by simp)
  · intro text htext
    cases htext
    exact ⟨by decide, isMultispace_of_fields rfl⟩
  · intro r hr directions hdirections
    cases List.mem_singleton.mp hr
    cases hdirections
    decide
  · intro text htext
    cases htext
    refine ⟨by decide, fun c hc => ?_, fun c hc => ?_⟩
    · cases hc
      decide
    · cases hc
      decide

open Sample in
/-- The code accepts a direction given twice, and the schema a key that is blank. -/
theorem contract_drifts :
    ((∃ validated, validateSpec cronCrates (policyWith [repeatedDirection] none).spec =
        .ok validated) ∧
      ¬ PolicySchema.spec urlFormats (policyWith [repeatedDirection] none).spec.toJson) ∧
    (¬ (∃ validated, validateSpec cronCrates (policyWith [blankKey] none).spec = .ok validated) ∧
      PolicySchema.spec urlFormats (policyWith [blankKey] none).spec.toJson) := by
  rw [spec_toJson (valuesValid_midnight [repeatedDirection]),
    spec_toJson (valuesValid_midnight [blankKey])]
  refine ⟨⟨⟨_, rfl⟩, fun h => ?_⟩, ?_, ?_⟩
  · have hnodup := h.2.2.1 repeatedDirection (by simp [policyWith]) _ rfl
    exact absurd hnodup (by decide)
  · rintro ⟨validated, h⟩
    cases h
  · have hone : (policyWith [blankKey] none).spec.requirements = [⟨" ", .Exists, none⟩] := rfl
    rw [hone]
    refine ⟨⟨by decide, nofun, ?_⟩, by simp, ?_, nofun⟩
    · intro r hr
      cases List.mem_singleton.mp hr
      refine ⟨Or.inl rfl, by decide, ?_, nofun⟩
      rintro selector hselector requirement hrequirement
      cases hselector
      cases List.mem_singleton.mp hrequirement
      rfl
    · intro r hr
      cases List.mem_singleton.mp hr
      exact nofun

end Ipmaze
