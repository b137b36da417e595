import Ipmaze.Contract.CustomResource
import Ipmaze.Sample

/-! The published contract within the definition of the custom resource: a server stores as they
are the specs that the contract accepts, and the specs that are written. -/
namespace Ipmaze
open Json

/-- What a schema of the contract accepts is stored as it is. -/
def Included (schema : Schema) (structural : Structural) : Prop :=
  ∀ document, schema document → document ≠ null ∧ structural.accept document = some document

section Inclusion
open Schema
variable {schema : Schema} {structural : Structural}

theorem Included.mono {schema' : Schema} (h : Included schema structural)
    (himp : ∀ document, schema' document → schema document) : Included schema' structural :=
  fun document hschema => h document (himp document hschema)

theorem included_string (nullable : Bool) : Included (type .string) (.text nullable none) := by
  intro document h
  cases document with
  | string text => exact ⟨by simp, rfl⟩
  | _ => cases h

theorem included_text (nullable : Bool) (schemas : List Schema) :
    Included (allOf (type .string :: schemas)) (.text nullable none) :=
  (included_string nullable).mono fun _ h => allOf_iff.mp h _ (List.mem_cons_self ..)

theorem included_enum (nullable : Bool) (texts : List String) :
    Included (allOf [type .string, enum texts]) (.text nullable (some texts)) := by
  intro document h
  rw [allOf_iff, List.forall_mem_cons, List.forall_mem_singleton] at h
  cases document with
  | string text => exact ⟨by simp, if_pos h.2⟩
  | _ => cases h.1

theorem Included.list (h : Included schema structural) (nullable : Bool) :
    Included (allOf [type .array, items schema]) (.list nullable structural) := by
  intro document hschema
  rw [allOf_iff, List.forall_mem_cons, List.forall_mem_singleton] at hschema
  obtain ⟨elements, rfl⟩ := array_of_type hschema.1
  refine ⟨by simp, Structural.accept_array.mpr ⟨elements, ?_, rfl⟩⟩
  exact List.forall₂_same.mpr fun element hmem =>
    (h element (items_array.mp hschema.2 element hmem)).2

/-- A closed object is stored as it is if each of its properties is. -/
theorem included_closed {nullable : Bool} {names mandatory : List String}
    {fields : List (String × Schema)} {props : List (String × Structural)}
    (hschema : ∀ document, schema document → type .object document ∧
      required names document ∧ properties fields nothing document)
    (hmandatory : ∀ name ∈ mandatory, name ∈ names)
    (hfields : ∀ field ∈ fields, ∃ structural, props.lookup field.1 = some structural ∧
      Included field.2 structural) :
    Included schema (.object nullable mandatory [] props) := by
  intro document h
  obtain ⟨htype, hnames, hproperties⟩ := hschema document h
  obtain ⟨members, rfl⟩ := object_of_type htype
  have hmembers : ∀ member ∈ members,
      Structural.acceptProperty props member.1 member.2 = some (some member.2) := by
    rintro ⟨name, value⟩ hmem
    have hvalue := List.all_eq_true.mp hproperties _ hmem
    cases hfield : fields.lookup name with
    | none =>
      rw [hfield] at hvalue
      cases hvalue
    | some schema =>
      rw [hfield] at hvalue
      obtain ⟨structural, hlookup, hincluded⟩ := hfields _ (mem_of_lookup hfield)
      obtain ⟨hnull, haccept⟩ := hincluded value hvalue
      rw [Structural.acceptProperty_eq, hlookup]
      refine Structural.kept_eq_some_some.mpr ⟨fun h => ?_, haccept⟩
      rw [isNull_eq_false hnull] at h
      cases h
  refine ⟨by simp, Structural.accept_properties.mpr ⟨members, keepMembers_eq_self hmembers, ?_, ?_⟩⟩
  · intro name hname
    obtain ⟨value, hvalue⟩ := lookup_isSome_of_required hnames name (hmandatory name hname)
    exact ⟨value, List.mem_append_left _ (mem_of_lookup hvalue)⟩
  · rw [missing_eq_nil (List.forall_mem_nil _), List.append_nil]

theorem included_stringMap (nullable : Bool) :
    Included PolicySchema.stringMap (.map nullable CustomResource.string) := by
  intro document h
  simp only [PolicySchema.stringMap, allOf_iff, List.forall_mem_cons] at h
  obtain ⟨members, rfl⟩ := object_of_type h.1
  refine ⟨by simp, Structural.accept_members.mpr ⟨members, keepMembers_eq_self ?_, rfl⟩⟩
  rintro ⟨name, value⟩ hmem
  have hvalue := List.all_eq_true.mp h.2.1 _ hmem
  cases value with
  | string text => rfl
  | _ => cases hvalue

theorem included_object {nullable : Bool} {names : List String}
    {fields : List (String × Schema)} {others : List Schema} {props : List (String × Structural)}
    {mandatory : List String} (hmandatory : ∀ name ∈ mandatory, name ∈ names)
    (hfields : ∀ field ∈ fields, ∃ structural, props.lookup field.1 = some structural ∧
      Included field.2 structural) :
    Included (allOf (type .object :: required names :: properties fields nothing :: others))
      (.object nullable mandatory [] props) := by
  refine included_closed (fun document h => ?_) hmandatory hfields
  simp only [allOf_iff, List.forall_mem_cons] at h
  exact ⟨h.1, h.2.1, h.2.2.1⟩

theorem included_options {nullable : Bool} {fields : List (String × Schema)} {others : List Schema}
    {props : List (String × Structural)}
    (hfields : ∀ field ∈ fields, ∃ structural, props.lookup field.1 = some structural ∧
      Included field.2 structural) :
    Included (allOf (type .object :: properties fields nothing :: others))
      (.object nullable [] [] props) := by
  have hnone : ∀ name ∈ ([] : List String), name ∈ ([] : List String) := List.forall_mem_nil _
  refine included_closed (fun document h => ?_) hnone hfields
  simp only [allOf_iff, List.forall_mem_cons] at h
  obtain ⟨members, rfl⟩ := object_of_type h.1
  exact ⟨h.1, rfl, h.2.1⟩

theorem included_requirement : Included PolicySchema.labelSelectorRequirement
    CustomResource.labelSelectorRequirement := by
  refine included_object (fun name hname => hname) ?_
  simp only [List.forall_mem_cons]
  exact ⟨⟨_, rfl, included_text false _⟩, ⟨_, rfl, included_enum false _⟩,
    ⟨_, rfl, (included_string false).list true⟩, List.forall_mem_nil _⟩

theorem included_labelSelector (nullable : Bool) :
    Included PolicySchema.labelSelector (CustomResource.labelSelector nullable) := by
  refine included_options ?_
  simp only [List.forall_mem_cons]
  exact ⟨⟨_, rfl, included_stringMap true⟩, ⟨_, rfl, included_requirement.list true⟩,
    List.forall_mem_nil _⟩

theorem included_directions : Included
    (allOf [type .array, items PolicySchema.direction, minItems 1, uniqueItems])
    (.list true (.text false (some ["ingress", "egress"]))) := by
  refine ((included_enum false _).list true).mono fun document h => ?_
  simp only [allOf_iff, List.forall_mem_cons] at h ⊢
  exact ⟨h.1, h.2.1, by simp⟩

theorem included_rule : Included PolicySchema.rule CustomResource.rule := by
  refine included_options ?_
  simp only [List.forall_mem_cons]
  exact ⟨⟨_, rfl, included_directions⟩, ⟨_, rfl, included_labelSelector true⟩,
    ⟨_, rfl, included_labelSelector true⟩, List.forall_mem_nil _⟩

theorem included_target : Included PolicySchema.target CustomResource.target := by
  refine included_object (fun name hname => hname) ?_
  simp only [List.forall_mem_cons]
  exact ⟨⟨_, rfl, included_labelSelector false⟩, List.forall_mem_nil _⟩

theorem included_pointer : Included PolicySchema.pointer CustomResource.pointer := by
  refine included_object (fun name hname => hname) ?_
  simp only [List.forall_mem_cons]
  exact ⟨⟨_, rfl, included_text false _⟩, List.forall_mem_nil _⟩

theorem included_rules :
    Included (allOf [type .array, minItems 1, items PolicySchema.rule])
      (.list false CustomResource.rule) := by
  refine (included_rule.list false).mono fun document h => ?_
  simp only [allOf_iff, List.forall_mem_cons] at h ⊢
  exact ⟨h.1, h.2.2.1, by simp⟩

variable (formats : String → String → Bool)

theorem included_source : Included (PolicySchema.source formats) CustomResource.source := by
  refine included_object (fun name hname => hname) ?_
  simp only [List.forall_mem_cons]
  exact ⟨⟨_, rfl, included_text false _⟩, ⟨_, rfl, included_pointer⟩,
    ⟨_, rfl, included_text false _⟩, List.forall_mem_nil _⟩

theorem included_spec : Included (PolicySchema.spec formats) CustomResource.spec := by
  refine included_object (by simp) ?_
  simp only [List.forall_mem_cons]
  exact ⟨⟨_, rfl, included_source formats⟩, ⟨_, rfl, included_text true _⟩,
    ⟨_, rfl, included_target⟩, ⟨_, rfl, included_rules⟩, List.forall_mem_nil _⟩

end Inclusion

/-- What is written is stored as it is. -/
def Written {α : Type} (structural : Structural) (write : α → Json) : Prop :=
  ∀ a, write a ≠ null ∧ structural.accept (write a) = some (write a)

section Writers
variable {α : Type} {structural : Structural} {write : α → Json}

theorem Written.list (h : Written structural write) (nullable : Bool) :
    Written (.list nullable structural) fun values : List α => array (values.map write) := by
  intro values
  refine ⟨by simp, Structural.accept_array.mpr ⟨_, ?_, rfl⟩⟩
  rw [List.forall₂_same]
  intro document hmem
  obtain ⟨a, -, rfl⟩ := List.mem_map.mp hmem
  exact (h a).2

/-- A member that is always there, or only at times. -/
def Storable (props : List (String × Structural)) (entry : String × Option Json) : Prop :=
  ∃ structural, props.lookup entry.1 = some structural ∧
    ∀ value ∈ entry.2, value ≠ null ∧ structural.accept value = some value

theorem Written.always (h : Written structural write) {props : List (String × Structural)}
    {name : String} (hname : props.lookup name = some structural) (a : α) :
    Storable props (name, some (write a)) := by
  refine ⟨structural, hname, fun value hvalue => ?_⟩
  obtain rfl := Option.some.inj hvalue
  exact h a

theorem Written.sometimes (h : Written structural write) {props : List (String × Structural)}
    {name : String} (hname : props.lookup name = some structural) (a : Option α) :
    Storable props (name, a.map write) := by
  refine ⟨structural, hname, fun value hvalue => ?_⟩
  obtain ⟨a, -, rfl⟩ := Option.map_eq_some_iff.mp hvalue
  exact h a

theorem written_record {nullable : Bool} {mandatory : List String}
    {props : List (String × Structural)} {entries : List (String × Option Json)}
    (hentries : ∀ entry ∈ entries, Storable props entry)
    (hmandatory : ∀ name ∈ mandatory, ∃ value, (name, some value) ∈ entries) :
    record entries ≠ null ∧
      (Structural.object nullable mandatory [] props).accept (record entries) =
        some (record entries) := by
  have hmembers : ∀ member ∈ (record entries).members,
      Structural.acceptProperty props member.1 member.2 = some (some member.2) := by
    rintro ⟨name, value⟩ hmem
    obtain ⟨structural, hname, hvalue⟩ := hentries _ (Schema.mem_record.mp hmem)
    obtain ⟨hnull, haccept⟩ := hvalue value rfl
    rw [Structural.acceptProperty_eq, hname]
    refine Structural.kept_eq_some_some.mpr ⟨fun h => ?_, haccept⟩
    rw [isNull_eq_false hnull] at h
    cases h
  refine ⟨by simp [record], Structural.accept_properties.mpr
    ⟨_, keepMembers_eq_self hmembers, ?_, ?_⟩⟩
  · intro name hname
    obtain ⟨value, hvalue⟩ := hmandatory name hname
    exact ⟨value, List.mem_append_left _ (Schema.mem_record.mpr hvalue)⟩
  · rw [missing_eq_nil (List.forall_mem_nil _), List.append_nil]
    rfl

theorem written_string (nullable : Bool) : Written (.text nullable none) string :=
  fun text => ⟨by simp, rfl⟩

theorem written_texts (nullable : Bool) : Written (.list nullable CustomResource.string) texts :=
  (written_string false).list nullable

theorem written_stringMap (nullable : Bool) :
    Written (.map nullable CustomResource.string) StringMap.toJson := by
  intro entries
  refine ⟨by simp [StringMap.toJson],
    Structural.accept_members.mpr ⟨_, keepMembers_eq_self ?_, rfl⟩⟩
  intro member hmem
  obtain ⟨key, -, rfl⟩ := List.mem_map.mp hmem
  rfl

theorem written_operator :
    Written (.text false (some ["In", "NotIn", "Exists", "DoesNotExist"]))
      LabelSelectorOperator.toJson := by
  intro operator
  cases operator <;> exact ⟨by simp [LabelSelectorOperator.toJson], rfl⟩

theorem written_direction :
    Written (.text false (some ["ingress", "egress"])) Direction.toJson := by
  intro direction
  cases direction <;> exact ⟨by simp [Direction.toJson], rfl⟩

theorem written_requirement :
    Written CustomResource.labelSelectorRequirement LabelSelectorRequirement.toJson := by
  intro requirement
  refine written_record ?_ (by simp)
  simp only [List.forall_mem_cons]
  exact ⟨(written_string false).always rfl _, written_operator.always rfl _,
    (written_texts true).sometimes rfl _, List.forall_mem_nil _⟩

theorem written_labelSelector (nullable : Bool) :
    Written (CustomResource.labelSelector nullable) LabelSelector.toJson := by
  intro selector
  refine written_record ?_ (List.forall_mem_nil _)
  simp only [List.forall_mem_cons]
  exact ⟨(written_stringMap true).sometimes rfl _, (written_requirement.list true).sometimes rfl _,
    List.forall_mem_nil _⟩

theorem written_rule : Written CustomResource.rule RuleSpec.toJson := by
  intro rule
  refine written_record ?_ (List.forall_mem_nil _)
  simp only [List.forall_mem_cons]
  exact ⟨(written_direction.list true).sometimes rfl _,
    (written_labelSelector true).sometimes rfl _, (written_labelSelector true).sometimes rfl _,
    List.forall_mem_nil _⟩

theorem written_target : Written CustomResource.target TargetSpec.toJson := by
  intro target
  refine written_record ?_ (by simp)
  simp only [List.forall_mem_cons]
  exact ⟨(written_labelSelector false).always rfl _, List.forall_mem_nil _⟩

theorem written_pointer : Written CustomResource.pointer PointerSpec.toJson := by
  intro pointer
  refine written_record ?_ (by simp)
  simp only [List.forall_mem_cons]
  exact ⟨(written_string false).always rfl _, List.forall_mem_nil _⟩

theorem written_source : Written CustomResource.source SourceSpec.toJson := by
  intro source
  refine written_record ?_ (by simp)
  simp only [List.forall_mem_cons]
  exact ⟨(written_string false).always rfl _, written_pointer.sometimes rfl _,
    (written_string false).always rfl _, List.forall_mem_nil _⟩

theorem written_spec : Written CustomResource.spec CIDRPolicySpec.toJson := by
  intro spec
  refine written_record ?_ (by simp)
  simp only [List.forall_mem_cons]
  exact ⟨written_source.always rfl _, (written_string true).sometimes rfl _,
    written_target.always rfl _, (written_rule.list false).always rfl _, List.forall_mem_nil _⟩

/-- The server stores as it is every spec that can be written, and every document that the published
contract accepts. -/
theorem published_specs_are_admitted :
    (∀ spec : CIDRPolicySpec, CustomResource.spec.accept spec.toJson = some spec.toJson) ∧
      ∀ (formats : String → String → Bool) (document : Json), PolicySchema.spec formats document →
        CustomResource.spec.accept document = some document :=
  ⟨fun spec => (written_spec spec).2,
    fun formats document hschema => (included_spec formats document hschema).2⟩

theorem reorderedSpec_is_admitted :
    CustomResource.spec.accept Sample.policy.spec.toJson = some Sample.policy.spec.toJson ∧
      CustomResource.spec.accept reorderedSpec = some reorderedSpec :=
  ⟨published_specs_are_admitted.1 Sample.policy.spec, published_specs_are_admitted.2
    (fun format text => format == "hostname" && text == "lists.example") reorderedSpec (by decide)⟩

end Writers
end Ipmaze
