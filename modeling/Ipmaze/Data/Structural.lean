import Ipmaze.Data.MergePatch
import Mathlib.Data.List.Forall2

/-! Structural schemas, in which custom resources are defined, and the form in which a server stores
the documents that it admits: unknown members are dropped, a null counts as absent where it is not
allowed, and defaults stand in for what is absent. -/

inductive Structural
  | anything
  | text (nullable : Bool) (enum : Option (List String))
  | list (nullable : Bool) (items : Structural)
  | map (nullable : Bool) (values : Structural)
  | object (nullable : Bool) (required : List String) (defaults : List (String × Json))
    (properties : List (String × Structural))

namespace Json

/-- The members that are kept, each with the value that it is kept with. -/
def keepMembers (keep : String → Json → Option (Option Json)) :
    List (String × Json) → Option (List (String × Json))
  | [] => some []
  | (name, value) :: rest => do
    let kept ← keep name value
    let others ← keepMembers keep rest
    return (kept.map (name, ·)).toList ++ others

/-- The defaults of the members that are missing. -/
def missing (members defaults : List (String × Json)) : List (String × Json) :=
  defaults.filter fun default => !members.any fun member => member.1 == default.1

end Json

namespace Structural
open Json

def nullable : Structural → Bool
  | anything => true
  | text nullable _ => nullable
  | list nullable _ => nullable
  | map nullable _ => nullable
  | object nullable _ _ _ => nullable

/-- A null member counts as absent unless null is allowed. -/
def kept (nullable : Bool) (value : Json) (admitted : Option Json) : Option (Option Json) :=
  if value.isNull && !nullable then some none else admitted.map some

mutual

/-- The form in which a document is stored, if it is admitted. -/
def accept : Structural → Json → Option Json
  | anything, document => some document
  | text _ enum, .string value =>
    if enum.all fun texts => texts.contains value then some (.string value) else none
  | list _ items, .array elements => (elements.mapM (accept items)).map .array
  | map _ values, .object members =>
    (keepMembers (fun _ value => kept values.nullable value (accept values value)) members).map
      .object
  | object _ required defaults properties, .object members => do
    let known ← keepMembers (acceptProperty properties) members
    let members := known ++ missing known defaults
    if required.all fun name => members.any fun member => member.1 == name then
      some (.object members)
    else none
  | schema, .null => if schema.nullable then some .null else none
  | _, _ => none

/-- What becomes of a member of an object with these properties. -/
def acceptProperty : List (String × Structural) → String → Json → Option (Option Json)
  | [], _, _ => some none
  | (property, schema) :: rest, name, value =>
    if name == property then kept schema.nullable value (accept schema value)
    else acceptProperty rest name value

end
end Structural

example : (Structural.object false ["a"] [("c", .array [])]
      [("a", .text false none), ("b", .text true none),
        ("c", .list false (.text false none))]).accept
    (.object [("b", .null), ("c", .null), ("d", .null), ("a", .string "x")]) =
      some (.object [("b", .null), ("a", .string "x"), ("c", .array [])]) := rfl

namespace Json
section Kept
variable {α β : Type} {f : α → Option β}
variable {keep : String → Json → Option (Option Json)}
variable {members known defaults : List (String × Json)}
variable {name : String} {value : Json}

theorem mapM_eq_some_iff {as : List α} {bs : List β} :
    as.mapM f = some bs ↔ List.Forall₂ (fun a b => f a = some b) as bs := by
  induction as generalizing bs with
  | nil => cases bs <;> simp
  | cons a as ih =>
    rw [List.mapM_cons, Option.bind_eq_bind, Option.bind_eq_some_iff]
    constructor
    · rintro ⟨b, hb, h⟩
      rw [Option.bind_eq_bind, Option.bind_eq_some_iff] at h
      obtain ⟨bs', hbs, heq⟩ := h
      obtain rfl := Option.some.inj heq
      exact .cons hb (ih.mp hbs)
    · intro h
      cases h with
      | cons hb hbs => exact ⟨_, hb, by rw [ih.mpr hbs]; rfl⟩

theorem exists_of_forall₂ {R : α → β → Prop} {as : List α} {bs : List β}
    (h : List.Forall₂ R as bs) : ∀ b ∈ bs, ∃ a ∈ as, R a b := by
  induction h with
  | nil => simp
  | cons hab _ ih =>
    refine List.forall_mem_cons.mpr ⟨⟨_, List.mem_cons_self .., hab⟩, fun b hb => ?_⟩
    obtain ⟨a, ha, hab⟩ := ih b hb
    exact ⟨a, List.mem_cons_of_mem _ ha, hab⟩

theorem keepMembers_cons : keepMembers keep ((name, value) :: members) = some known ↔
    ∃ kept others, keep name value = some kept ∧ keepMembers keep members = some others ∧
      known = (kept.map (name, ·)).toList ++ others := by
  simp only [keepMembers, Option.bind_eq_bind, Option.bind_eq_some_iff, Option.pure_def,
    Option.some.injEq]
  constructor
  · rintro ⟨kept, hkept, others, hothers, rfl⟩
    exact ⟨kept, others, hkept, hothers, rfl⟩
  · rintro ⟨kept, others, hkept, hothers, rfl⟩
    exact ⟨kept, hkept, others, hothers, rfl⟩

theorem keepMembers_append {others : List (String × Json)}
    (h : keepMembers keep others = some others) :
    keepMembers keep (members ++ others) = some known ↔
      ∃ kept, keepMembers keep members = some kept ∧ known = kept ++ others := by
  induction members generalizing known with
  | nil => simp [keepMembers, h, eq_comm]
  | cons member members ih =>
    obtain ⟨name, value⟩ := member
    rw [List.cons_append, keepMembers_cons]
    constructor
    · rintro ⟨head, rest, hhead, hrest, rfl⟩
      obtain ⟨kept, hkept, rfl⟩ := ih.mp hrest
      exact ⟨_, keepMembers_cons.mpr ⟨head, kept, hhead, hkept, rfl⟩, by rw [List.append_assoc]⟩
    · rintro ⟨kept, hkept, rfl⟩
      obtain ⟨head, rest, hhead, hrest, rfl⟩ := keepMembers_cons.mp hkept
      exact ⟨head, _, hhead, ih.mpr ⟨rest, hrest, rfl⟩, by rw [List.append_assoc]⟩

theorem mem_keepMembers (h : keepMembers keep members = some known) :
    (name, value) ∈ known ↔
      ∃ given, (name, given) ∈ members ∧ keep name given = some (some value) := by
  induction members generalizing known with
  | nil =>
    obtain rfl := Option.some.inj h
    simp
  | cons member members ih =>
    obtain ⟨name', value'⟩ := member
    obtain ⟨kept, others, hkept, hothers, rfl⟩ := keepMembers_cons.mp h
    rw [List.mem_append, ih hothers]
    cases kept with
    | none =>
      constructor
      · rintro (hmem | ⟨given, hmem, hgiven⟩)
        · cases hmem
        · exact ⟨given, List.mem_cons_of_mem _ hmem, hgiven⟩
      · rintro ⟨given, hmem, hgiven⟩
        rcases List.mem_cons.mp hmem with heq | hmem
        · obtain ⟨rfl, rfl⟩ := Prod.mk.inj heq
          rw [hkept] at hgiven
          cases hgiven
        · exact Or.inr ⟨given, hmem, hgiven⟩
    | some kept =>
      rw [Option.map_some, Option.toList_some, List.mem_singleton, Prod.mk.injEq]
      constructor
      · rintro (⟨rfl, rfl⟩ | ⟨given, hmem, hgiven⟩)
        · exact ⟨value', List.mem_cons_self .., hkept⟩
        · exact ⟨given, List.mem_cons_of_mem _ hmem, hgiven⟩
      · rintro ⟨given, hmem, hgiven⟩
        rcases List.mem_cons.mp hmem with heq | hmem
        · obtain ⟨rfl, rfl⟩ := Prod.mk.inj heq
          rw [hkept] at hgiven
          exact Or.inl ⟨rfl, (Option.some.inj (Option.some.inj hgiven)).symm⟩
        · exact Or.inr ⟨given, hmem, hgiven⟩

theorem keep_of_keepMembers (h : keepMembers keep members = some known)
    (hmem : (name, value) ∈ members) : ∃ kept, keep name value = some kept := by
  induction members generalizing known with
  | nil => cases hmem
  | cons member members ih =>
    obtain ⟨name', value'⟩ := member
    obtain ⟨kept, others, hkept, hothers, -⟩ := keepMembers_cons.mp h
    rcases List.mem_cons.mp hmem with heq | hmem
    · obtain ⟨rfl, rfl⟩ := Prod.mk.inj heq
      exact ⟨kept, hkept⟩
    · exact ih hothers hmem

theorem names_keepMembers (h : keepMembers keep members = some known) :
    (known.map Prod.fst).Sublist (members.map Prod.fst) := by
  induction members generalizing known with
  | nil =>
    obtain rfl := Option.some.inj h
    exact .refl _
  | cons member members ih =>
    obtain ⟨name', value'⟩ := member
    obtain ⟨kept, others, -, hothers, rfl⟩ := keepMembers_cons.mp h
    cases kept with
    | none => exact (ih hothers).cons _
    | some kept => exact (ih hothers).cons_cons _

theorem keepMembers_eq_self
    (h : ∀ member ∈ members, keep member.1 member.2 = some (some member.2)) :
    keepMembers keep members = some members := by
  induction members with
  | nil => rfl
  | cons member members ih =>
    obtain ⟨name', value'⟩ := member
    rw [List.forall_mem_cons] at h
    exact keepMembers_cons.mpr ⟨_, members, h.1, ih h.2, rfl⟩

/-- Where names are unique, a member is kept as what was given under its name. -/
theorem lookup_keepMembers (hunique : (members.map Prod.fst).Nodup)
    (h : keepMembers keep members = some known) (name : String) :
    known.lookup name = (members.lookup name).bind fun value => (keep name value).join := by
  have hknown := hunique.sublist (names_keepMembers h)
  cases hlookup : members.lookup name with
  | none =>
    apply lookup_eq_none_of_forall
    intro value hmem
    obtain ⟨given, hgiven, -⟩ := (mem_keepMembers h).mp hmem
    rw [lookup_of_mem hunique hgiven] at hlookup
    cases hlookup
  | some given =>
    rw [Option.bind_some]
    cases hkept : (keep name given).join with
    | some value =>
      have hkeep : keep name given = some (some value) := Option.join_eq_some_iff.mp hkept
      exact lookup_of_mem hknown ((mem_keepMembers h).mpr ⟨given, mem_of_lookup hlookup, hkeep⟩)
    | none =>
      apply lookup_eq_none_of_forall
      intro value hmem
      obtain ⟨given', hgiven, hkeep⟩ := (mem_keepMembers h).mp hmem
      obtain rfl := Option.some.inj ((lookup_of_mem hunique hgiven).symm.trans hlookup)
      rw [hkeep] at hkept
      cases hkept

theorem mem_missing : (name, value) ∈ missing known defaults ↔
    (name, value) ∈ defaults ∧ ∀ found, (name, found) ∉ known := by
  simp only [missing, List.mem_filter, Bool.not_eq_true', List.any_eq_false, beq_iff_eq,
    Prod.forall, and_congr_right_iff]
  refine fun _ => ⟨fun h found hmem => h name found hmem rfl, fun h other found hmem heq => ?_⟩
  exact h found (heq ▸ hmem)

theorem exists_mem_append_missing (h : (name, value) ∈ defaults) :
    ∃ found, (name, found) ∈ known ++ missing known defaults := by
  by_cases hfound : ∃ found, (name, found) ∈ known
  · obtain ⟨found, hfound⟩ := hfound
    exact ⟨found, List.mem_append_left _ hfound⟩
  · exact ⟨value, List.mem_append_right _ (mem_missing.mpr
      ⟨h, fun found hmem => hfound ⟨found, hmem⟩⟩)⟩

theorem missing_eq_nil (h : ∀ default ∈ defaults, ∃ value, (default.1, value) ∈ known) :
    missing known defaults = [] := by
  rw [List.eq_nil_iff_forall_not_mem]
  intro default hmem
  obtain ⟨hdefault, hnone⟩ := mem_missing.mp hmem
  obtain ⟨value, hvalue⟩ := h _ hdefault
  exact hnone value hvalue

theorem lookup_missing (hnone : known.lookup name = none) :
    (missing known defaults).lookup name = defaults.lookup name := by
  rw [missing, ← List.filterMap_eq_filter]
  apply lookup_filterMap_congr
  · intro value
    have hnot (found : Json) : (name, found) ∉ known := fun hmem => by
      simpa using List.lookup_eq_none_iff.mp hnone _ hmem
    simpa [Option.guard] using hnot
  · rintro member member' hne hf
    simp only [Option.guard_eq_some_iff] at hf
    exact hf.1 ▸ hne

end Kept
end Json

namespace Structural
open Json

mutual

/-- Every default is for a property, which admits it as it is. -/
def Sound : Structural → Prop
  | anything => True
  | text _ _ => True
  | list _ items => items.Sound
  | map _ values => values.Sound
  | object _ _ defaults properties =>
    (defaults.map Prod.fst).Nodup ∧
      (∀ default ∈ defaults, default.2.uniqueNames ∧
        acceptProperty properties default.1 default.2 = some (some default.2)) ∧
      SoundProperties properties

def SoundProperties : List (String × Structural) → Prop
  | [] => True
  | (_, schema) :: rest => schema.Sound ∧ SoundProperties rest

end

/-- A document that is stored as it is. -/
structure Settled (schema : Structural) (document : Json) : Prop where
  unique : document.uniqueNames
  admitted : schema.accept document = some document

section Admission
variable {schema : Structural} {document stored value : Json}
variable {properties : List (String × Structural)}
variable {nullable : Bool} {required : List String} {members defaults : List (String × Json)}
variable {name : String}

theorem kept_eq_some_some {admitted : Option Json} :
    kept nullable value admitted = some (some stored) ↔
      (value.isNull → nullable) ∧ admitted = some stored := by
  unfold kept
  cases value.isNull <;> cases nullable <;> simp

theorem accept_null : schema.accept null = if schema.nullable then some null else none := by
  cases schema <;> simp [accept, Structural.nullable]

/-- Only null is stored as null. -/
theorem isNull_accept (h : schema.accept document = some stored) :
    stored.isNull = document.isNull := by
  cases document with
  | null =>
    rw [accept_null] at h
    split at h
    · obtain rfl := Option.some.inj h
      rfl
    · cases h
  | _ =>
    cases schema <;> simp only [accept, Option.map_eq_some_iff, Option.bind_eq_bind,
      Option.bind_eq_some_iff, Option.ite_none_right_eq_some, Option.some.injEq, reduceCtorEq] at h
    all_goals grind [isNull]

theorem accept_array {items : Structural} {elements : List Json} :
    (list nullable items).accept (array elements) = some stored ↔
      ∃ admitted, List.Forall₂ (fun a b => items.accept a = some b) elements admitted ∧
        stored = array admitted := by
  simp only [accept, Option.map_eq_some_iff, mapM_eq_some_iff]
  exact exists_congr fun admitted => and_congr_right fun _ => eq_comm

theorem accept_members {values : Structural} :
    (map nullable values).accept (.object members) = some stored ↔
      ∃ known, keepMembers (fun _ value => kept values.nullable value (values.accept value))
        members = some known ∧ stored = .object known := by
  simp only [accept, Option.map_eq_some_iff]
  exact exists_congr fun known => and_congr_right fun _ => eq_comm

theorem accept_properties :
    (object nullable required defaults properties).accept (.object members) = some stored ↔
      ∃ known, keepMembers (acceptProperty properties) members = some known ∧
        (∀ name ∈ required, ∃ value, (name, value) ∈ known ++ missing known defaults) ∧
        stored = .object (known ++ missing known defaults) := by
  simp only [accept, Option.bind_eq_bind, Option.bind_eq_some_iff, Option.ite_none_right_eq_some,
    Option.some.injEq, List.all_eq_true, List.any_eq_true, beq_iff_eq, Prod.exists]
  refine exists_congr fun known => and_congr_right fun _ => and_congr ?_ eq_comm
  refine forall₂_congr fun name _ => ⟨?_, ?_⟩
  · rintro ⟨name', value, hmem, rfl⟩
    exact ⟨value, hmem⟩
  · rintro ⟨value, hmem⟩
    exact ⟨name, value, hmem, rfl⟩

/-- Members that are stored as they are can be added to any others. -/
theorem accept_append {others : List (String × Json)}
    (hothers : keepMembers (acceptProperty properties) others = some others)
    (hrequired : ∀ name ∈ required, ∀ value, (name, value) ∉ others) :
    (object nullable required [] properties).accept (.object (members ++ others)) = some stored ↔
      ∃ known, (object nullable required [] properties).accept (.object members) =
          some (.object known) ∧ stored = .object (known ++ others) := by
  simp only [accept_properties, keepMembers_append hothers, missing, List.filter_nil,
    List.append_nil, Json.object.injEq]
  constructor
  · rintro ⟨all, ⟨known, hknown, rfl⟩, hneeded, rfl⟩
    refine ⟨known, ⟨known, hknown, fun name hname => ?_, rfl⟩, rfl⟩
    obtain ⟨value, hvalue⟩ := hneeded name hname
    exact ⟨value, (List.mem_append.mp hvalue).resolve_right (hrequired name hname value)⟩
  · rintro ⟨known, ⟨known', hknown, hneeded, rfl⟩, rfl⟩
    refine ⟨_, ⟨known, hknown, rfl⟩, fun name hname => ?_, rfl⟩
    obtain ⟨value, hvalue⟩ := hneeded name hname
    exact ⟨value, List.mem_append_left _ hvalue⟩

theorem acceptProperty_eq (name : String) (value : Json) : acceptProperty properties name value =
    match properties.lookup name with
    | some schema => kept schema.nullable value (schema.accept value)
    | none => some none := by
  induction properties with
  | nil => rfl
  | cons property properties ih =>
    obtain ⟨name', schema⟩ := property
    rw [acceptProperty, List.lookup_cons]
    cases hname : name == name' with
    | true => rfl
    | false => exact ih

theorem uniqueNames_object : (Json.object members).uniqueNames ↔
    (members.map Prod.fst).Nodup ∧ ∀ member ∈ members, member.2.uniqueNames := by
  rw [uniqueNames, Bool.and_eq_true, decide_eq_true_eq]
  refine and_congr_right fun hnames => ⟨fun h member hmem => uniqueNames_of_mem h hmem, fun h => ?_⟩
  clear hnames
  induction members with
  | nil => rfl
  | cons member members ih =>
    obtain ⟨name, value⟩ := member
    rw [List.forall_mem_cons] at h
    rw [uniqueNamesMembers, Bool.and_eq_true]
    exact ⟨h.1, ih h.2⟩

theorem uniqueNames_array {elements : List Json} : (array elements).uniqueNames ↔
    ∀ element ∈ elements, element.uniqueNames := by
  rw [uniqueNames]
  refine ⟨fun h element hmem => uniqueNames_of_mem_elements h hmem, fun h => ?_⟩
  induction elements with
  | nil => rfl
  | cons element elements ih =>
    rw [List.forall_mem_cons] at h
    rw [uniqueNamesElements, Bool.and_eq_true]
    exact ⟨h.1, ih h.2⟩

theorem settled_properties (hunique : (Json.object members).uniqueNames)
    (hmembers : ∀ member ∈ members,
      acceptProperty properties member.1 member.2 = some (some member.2))
    (hdefaults : ∀ default ∈ defaults, ∃ value, (default.1, value) ∈ members)
    (hrequired : ∀ name ∈ required, ∃ value, (name, value) ∈ members) :
    (object nullable required defaults properties).Settled (.object members) := by
  refine ⟨hunique, accept_properties.mpr ⟨members, keepMembers_eq_self hmembers, ?_, ?_⟩⟩
  · rwa [missing_eq_nil hdefaults, List.append_nil]
  · rw [missing_eq_nil hdefaults, List.append_nil]

theorem settled_null (h : schema.accept null = some stored) : schema.Settled stored := by
  have hnull := h
  rw [accept_null] at hnull
  split at hnull
  · obtain rfl := Option.some.inj hnull
    exact ⟨rfl, h⟩
  · cases hnull

theorem settled_text {enum : Option (List String)}
    (h : (text nullable enum).accept document = some stored) :
    (text nullable enum).Settled stored := by
  cases document with
  | null => exact settled_null h
  | string value =>
    have hvalue := h
    rw [accept] at hvalue
    split at hvalue
    · obtain rfl := Option.some.inj hvalue
      exact ⟨rfl, h⟩
    · cases hvalue
  | _ => simp [accept] at h

mutual

/-- Stored documents are stored as they are. -/
theorem settles : (schema : Structural) → schema.Sound → ∀ {document stored : Json},
    document.uniqueNames → schema.accept document = some stored → schema.Settled stored
  | anything, _, document, stored, hunique, h => by
    obtain rfl := Option.some.inj h
    exact ⟨hunique, rfl⟩
  | text nullable enum, _, document, stored, _, h => settled_text h
  | list nullable items, hsound, document, stored, hunique, h => by
    cases document with
    | null => exact settled_null h
    | array elements =>
      obtain ⟨admitted, helements, rfl⟩ := accept_array.mp h
      rw [uniqueNames_array] at hunique
      have hsettled : ∀ element ∈ admitted, items.Settled element := by
        intro element hmem
        obtain ⟨given, hgiven, haccept⟩ := exists_of_forall₂ helements element hmem
        exact settles items hsound (hunique given hgiven) haccept
      refine ⟨uniqueNames_array.mpr fun element hmem => (hsettled element hmem).unique, ?_⟩
      refine accept_array.mpr ⟨admitted, ?_, rfl⟩
      exact List.forall₂_same.mpr fun element hmem => (hsettled element hmem).admitted
    | _ => simp [accept] at h
  | map nullable values, hsound, document, stored, hunique, h => by
    cases document with
    | null => exact settled_null h
    | object members =>
      obtain ⟨known, hknown, rfl⟩ := accept_members.mp h
      rw [uniqueNames_object] at hunique
      have hsettled : ∀ member ∈ known, member.2.uniqueNames ∧
          kept values.nullable member.2 (values.accept member.2) = some (some member.2) := by
        rintro ⟨name, value⟩ hmem
        obtain ⟨given, hgiven, hkept⟩ := (mem_keepMembers hknown).mp hmem
        rw [kept_eq_some_some] at hkept
        have hvalue := settles values hsound (hunique.2 _ hgiven) hkept.2
        refine ⟨hvalue.unique, kept_eq_some_some.mpr ⟨fun hnull => ?_, hvalue.admitted⟩⟩
        exact hkept.1 (isNull_accept hkept.2 ▸ hnull)
      refine ⟨uniqueNames_object.mpr ⟨?_, fun member hmem => (hsettled member hmem).1⟩, ?_⟩
      · exact hunique.1.sublist (names_keepMembers hknown)
      · exact accept_members.mpr ⟨known, keepMembers_eq_self fun member hmem =>
          (hsettled member hmem).2, rfl⟩
    | _ => simp [accept] at h
  | object nullable required defaults properties, hsound, document, stored, hunique, h => by
    cases document with
    | null => exact settled_null h
    | object members =>
      obtain ⟨known, hknown, hrequired, rfl⟩ := accept_properties.mp h
      obtain ⟨hdistinct, hdefaults, hproperties⟩ := hsound
      rw [uniqueNames_object] at hunique
      have hsettled : ∀ member ∈ known ++ missing known defaults, member.2.uniqueNames ∧
          acceptProperty properties member.1 member.2 = some (some member.2) := by
        rintro ⟨name, value⟩ hmem
        rcases List.mem_append.mp hmem with hmem | hmem
        · obtain ⟨given, hgiven, hkept⟩ := (mem_keepMembers hknown).mp hmem
          exact settles_property properties hproperties (hunique.2 _ hgiven) hkept
        · exact hdefaults _ (mem_missing.mp hmem).1
      refine settled_properties (uniqueNames_object.mpr
        ⟨?_, fun member hmem => (hsettled member hmem).1⟩) (fun member hmem =>
          (hsettled member hmem).2) ?_ hrequired
      · rw [List.map_append, List.nodup_append]
        refine ⟨hunique.1.sublist (names_keepMembers hknown),
          hdistinct.sublist (List.filter_sublist.map _), ?_⟩
        rintro name hname name' hname' rfl
        obtain ⟨⟨_, value⟩, hmem, rfl⟩ := List.mem_map.mp hname
        obtain ⟨⟨name, value'⟩, hmem', rfl⟩ := List.mem_map.mp hname'
        exact (mem_missing.mp hmem').2 value hmem
      · exact fun default hdefault => exists_mem_append_missing hdefault
    | _ => simp [accept] at h

theorem settles_property : (properties : List (String × Structural)) → SoundProperties properties →
    ∀ {name : String} {value stored : Json}, value.uniqueNames →
      acceptProperty properties name value = some (some stored) →
        stored.uniqueNames ∧ acceptProperty properties name stored = some (some stored)
  | [], _, name, value, stored, _, h => by cases h
  | (property, schema) :: rest, hsound, name, value, stored, hunique, h => by
    rw [acceptProperty] at h ⊢
    cases hname : name == property with
    | true =>
      rw [hname, if_pos rfl, kept_eq_some_some] at h
      have hsettled := settles schema hsound.1 hunique h.2
      refine ⟨hsettled.unique, ?_⟩
      rw [if_pos rfl, kept_eq_some_some]
      exact ⟨fun hnull => h.1 (isNull_accept h.2 ▸ hnull), hsettled.admitted⟩
    | false =>
      rw [hname] at h
      exact settles_property rest hsound.2 hunique h

end

/-- What a member is stored as: what it was given as, or else its default. -/
def Field (schema : Structural) (default given stored : Option Json) : Prop :=
  (stored = default ∧ ∀ value ∈ given, value.isNull ∧ schema.nullable = false) ∨
    ∃ value admitted, given = some value ∧ schema.accept value = some admitted ∧
      stored = some admitted

theorem field_admitted {known : List (String × Json)} (hunique : (members.map Prod.fst).Nodup)
    (hknown : keepMembers (acceptProperty properties) members = some known)
    (hname : properties.lookup name = some schema) :
    schema.Field (defaults.lookup name) (members.lookup name)
      ((known ++ missing known defaults).lookup name) := by
  have hlookup := lookup_keepMembers hunique hknown name
  rw [List.lookup_append]
  cases hgiven : members.lookup name with
  | none =>
    rw [hgiven, Option.bind_none] at hlookup
    rw [lookup_missing hlookup, hlookup, Option.none_or]
    exact Or.inl ⟨rfl, by simp⟩
  | some value =>
    obtain ⟨kept, hkept⟩ := keep_of_keepMembers hknown (mem_of_lookup hgiven)
    rw [hgiven, Option.bind_some, hkept, Option.join_some] at hlookup
    rw [acceptProperty_eq, hname] at hkept
    cases kept with
    | none =>
      rw [lookup_missing hlookup, hlookup, Option.none_or]
      refine Or.inl ⟨rfl, fun found hfound => ?_⟩
      obtain rfl := Option.some.inj hfound
      simpa [Structural.kept] using hkept
    | some admitted =>
      rw [hlookup, Option.some_or]
      exact Or.inr ⟨value, admitted, rfl, (kept_eq_some_some.mp hkept).2, rfl⟩

/-- The members of a stored object are stored as they are, and none that is needed is missing. -/
theorem settled_object_iff (hsound : (object nullable required defaults properties).Sound) :
    (object nullable required defaults properties).Settled (.object members) ↔
      (Json.object members).uniqueNames ∧
      (∀ member ∈ members, acceptProperty properties member.1 member.2 = some (some member.2)) ∧
      (∀ default ∈ defaults, ∃ value, (default.1, value) ∈ members) ∧
      ∀ name ∈ required, ∃ value, (name, value) ∈ members := by
  constructor
  · rintro ⟨hunique, haccept⟩
    obtain ⟨known, hknown, hrequired, heq⟩ := accept_properties.mp haccept
    have hmembers : members = known ++ missing known defaults := Json.object.inj heq
    have hdistinct := (uniqueNames_object.mp hunique).1
    refine ⟨hunique, ?_, ?_, fun name hname => hmembers ▸ hrequired name hname⟩
    · rintro ⟨name, value⟩ hmem
      rw [hmembers, List.mem_append] at hmem
      rcases hmem with hmem | hmem
      · obtain ⟨given, hgiven, hkept⟩ := (mem_keepMembers hknown).mp hmem
        have hvalue : (name, value) ∈ members := hmembers ▸ List.mem_append_left _ hmem
        have hsame := (lookup_of_mem hdistinct hgiven).symm.trans (lookup_of_mem hdistinct hvalue)
        rwa [Option.some.inj hsame] at hkept
      · exact (hsound.2.1 _ (mem_missing.mp hmem).1).2
    · exact fun default hdefault => hmembers ▸ exists_mem_append_missing hdefault
  · rintro ⟨hunique, hmembers, hdefaults, hrequired⟩
    exact settled_properties hunique hmembers hdefaults hrequired

/-- A merge patch leaves an object that is stored as it is, if what it makes of each member is, and
if it removes no member that is needed. -/
theorem settled_mergeMembers {patch : List (String × Json)}
    (hunique : (Json.object members).uniqueNames) (hpatch : (patch.map Prod.fst).Nodup)
    (hmembers : ∀ member ∈ members,
      acceptProperty properties member.1 member.2 = some (some member.2))
    (hpatched : ∀ name value, patch.lookup name = some value → value.isNull = false →
      (mergePatch ((members.lookup name).getD null) value).uniqueNames ∧
        acceptProperty properties name (mergePatch ((members.lookup name).getD null) value) =
          some (some (mergePatch ((members.lookup name).getD null) value)))
    (hneeded : ∀ name ∈ defaults.map Prod.fst ++ required,
      (∃ value, patch.lookup name = some value ∧ value.isNull = false) ∨
        patch.lookup name = none ∧ ∃ value, (name, value) ∈ members) :
    (object nullable required defaults properties).Settled
      (.object (mergeMembers members patch)) := by
  rw [uniqueNames_object] at hunique
  have hmerged : ∀ member ∈ mergeMembers members patch, member.2.uniqueNames ∧
      acceptProperty properties member.1 member.2 = some (some member.2) := by
    rintro ⟨name, found⟩ hmem
    cases hlookup : patch.lookup name with
    | none =>
      rw [mem_mergeMembers_of_none hlookup] at hmem
      exact ⟨hunique.2 _ hmem, hmembers _ hmem⟩
    | some value =>
      obtain ⟨hnull, rfl⟩ := (mem_mergeMembers_of_some hpatch hlookup).mp hmem
      exact hpatched name value hlookup hnull
  have hpresent : ∀ name ∈ defaults.map Prod.fst ++ required,
      ∃ value, (name, value) ∈ mergeMembers members patch := by
    intro name hname
    rcases hneeded name hname with ⟨value, hlookup, hnull⟩ | ⟨hlookup, value, hvalue⟩
    · exact ⟨_, (mem_mergeMembers_of_some hpatch hlookup).mpr ⟨hnull, rfl⟩⟩
    · exact ⟨value, (mem_mergeMembers_of_none hlookup).mpr hvalue⟩
  refine settled_properties
    (uniqueNames_object.mpr ⟨?_, fun member hmem => (hmerged member hmem).1⟩)
    (fun member hmem => (hmerged member hmem).2) ?_ ?_
  · rw [List.nodup_iff_count_le_one]
    intro name
    rw [List.count_eq_countP, List.countP_map]
    apply countP_mergeMembers_le
    have hcount := List.nodup_iff_count_le_one.mp hunique.1 name
    rwa [List.count_eq_countP, List.countP_map] at hcount
  · exact fun default hmem => hpresent _ (List.mem_append_left _ (List.mem_map_of_mem hmem))
  · exact fun name hname => hpresent name (List.mem_append_right _ hname)

end Admission
end Structural
