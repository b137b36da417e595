import Ipmaze.Data.JsonSchema
import Mathlib.Data.List.Nodup

/-! The members of JSON objects: how they are found, when their names are unique, and documents
that differ in the order of their members only. -/
namespace Json

def members : Json → List (String × Json)
  | object members => members
  | _ => []

@[simp] theorem members_object (entries : List (String × Json)) :
    (object entries).members = entries := rfl

/-- The first member of this name. -/
def get (document : Json) (name : String) : Option Json := document.members.lookup name

mutual

/-- No object within the document names a member twice. -/
def uniqueNames : Json → Bool
  | object members => (members.map Prod.fst).Nodup && uniqueNamesMembers members
  | array elements => uniqueNamesElements elements
  | _ => true

def uniqueNamesElements : List Json → Bool
  | [] => true
  | element :: rest => uniqueNames element && uniqueNamesElements rest

def uniqueNamesMembers : List (String × Json) → Bool
  | [] => true
  | (_, value) :: rest => uniqueNames value && uniqueNamesMembers rest

end

section Members
variable {members : List (String × Json)} {name : String} {value : Json}

theorem mem_of_lookup {β : Type} {members : List (String × β)} {value : β}
    (h : members.lookup name = some value) : (name, value) ∈ members := by
  induction members with
  | nil => cases h
  | cons member members ih =>
    obtain ⟨name', value'⟩ := member
    rw [List.lookup_cons] at h
    cases hname : name == name' with
    | true =>
      rw [hname] at h
      obtain rfl := eq_of_beq hname
      obtain rfl := Option.some.inj h
      exact List.mem_cons_self ..
    | false =>
      rw [hname] at h
      exact List.mem_cons_of_mem _ (ih h)

theorem lookup_of_mem {β : Type} {members : List (String × β)} {value : β}
    (hunique : (members.map Prod.fst).Nodup) (h : (name, value) ∈ members) :
    members.lookup name = some value := by
  induction members with
  | nil => cases h
  | cons member members ih =>
    obtain ⟨name', value'⟩ := member
    rw [List.map_cons, List.nodup_cons] at hunique
    rw [List.lookup_cons]
    rcases List.mem_cons.mp h with hhead | htail
    · obtain ⟨rfl, rfl⟩ := Prod.mk.inj hhead
      simp
    · have hne : (name == name') = false := by
        apply beq_false_of_ne
        rintro rfl
        exact hunique.1 (List.mem_map.mpr ⟨_, htail, rfl⟩)
      rw [hne]
      exact ih hunique.2 htail

theorem lookup_eq_some_of_forall (hmem : (name, value) ∈ members)
    (hall : ∀ found, (name, found) ∈ members → found = value) :
    members.lookup name = some value := by
  cases h : members.lookup name with
  | none => simpa using List.lookup_eq_none_iff.mp h _ hmem
  | some found => rw [hall found (mem_of_lookup h)]

theorem lookup_eq_none_of_forall (hall : ∀ found, (name, found) ∉ members) :
    members.lookup name = none := by
  cases h : members.lookup name with
  | none => rfl
  | some found => exact (hall found (mem_of_lookup h)).elim

theorem uniqueNames_of_mem (h : uniqueNamesMembers members) (hmem : (name, value) ∈ members) :
    value.uniqueNames := by
  induction members with
  | nil => cases hmem
  | cons member members ih =>
    obtain ⟨name', value'⟩ := member
    rw [uniqueNamesMembers, Bool.and_eq_true] at h
    rcases List.mem_cons.mp hmem with hhead | htail
    · obtain ⟨rfl, rfl⟩ := Prod.mk.inj hhead
      exact h.1
    · exact ih h.2 htail

theorem uniqueNames_of_mem_elements {elements : List Json} (h : uniqueNamesElements elements)
    (hmem : value ∈ elements) : value.uniqueNames := by
  induction elements with
  | nil => cases hmem
  | cons element elements ih =>
    rw [uniqueNamesElements, Bool.and_eq_true] at h
    rcases List.mem_cons.mp hmem with rfl | htail
    · exact h.1
    · exact ih h.2 htail

end Members

section Records
variable {members : List (String × Option Json)}

theorem names_record_nodup (h : (members.map Prod.fst).Nodup) :
    ((record members).members.map Prod.fst).Nodup := by
  refine h.sublist ?_
  rw [record, members_object, List.map_filterMap]
  have hnames : members.filterMap (fun member => (member.2.map (member.1, ·)).map Prod.fst) =
      (members.filter fun member => member.2.isSome).map Prod.fst := by
    induction members with
    | nil => rfl
    | cons member members ih =>
      obtain ⟨name, value⟩ := member
      rw [List.map_cons, List.nodup_cons] at h
      cases value with
      | none => simpa using ih h.2
      | some value => simpa using ih h.2
  rw [hnames]
  exact List.filter_sublist.map Prod.fst

theorem lookup_record (h : (members.map Prod.fst).Nodup) (name : String) :
    (record members).members.lookup name = (members.lookup name).join := by
  induction members with
  | nil => rfl
  | cons member members ih =>
    obtain ⟨name', value⟩ := member
    rw [List.map_cons, List.nodup_cons] at h
    rw [List.lookup_cons]
    cases value with
    | none =>
      have htail := ih h.2
      cases hname : name == name' with
      | false => exact htail
      | true =>
        obtain rfl := eq_of_beq hname
        have hnone : members.lookup name = none := by
          rw [List.lookup_eq_none_iff]
          intro member hmem
          exact bne_iff_ne.mpr fun heq => h.1 (List.mem_map.mpr ⟨member, hmem, heq.symm⟩)
        rw [hnone] at htail
        exact htail
    | some value =>
      have hcons : (record ((name', some value) :: members)).members =
          (name', value) :: (record members).members := rfl
      rw [hcons, List.lookup_cons]
      cases hname : name == name' with
      | false => exact ih h.2
      | true => rfl

end Records

/-- The same document but for the order of members. -/
inductive Alike : Json → Json → Prop
  | refl (document : Json) : Alike document document
  | array {elements elements' : List Json} (h : List.Forall₂ Alike elements elements') :
    Alike (array elements) (array elements')
  | object {members members' : List (String × Json)}
    (h : ∀ name, Option.Rel Alike (members.lookup name) (members'.lookup name)) :
    Alike (object members) (object members')

end Json
