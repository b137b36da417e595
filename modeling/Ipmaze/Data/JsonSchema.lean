import Ipmaze.Data.Regex
import Mathlib.Data.Rat.Defs

/-! JSON documents, and the keywords of JSON Schema as checks of documents. A keyword holds of a
document whose type it does not speak about. -/

inductive Json
  | null
  | bool (value : Bool)
  | number (value : ℚ)
  | string (text : String)
  | array (elements : List Json)
  | object (members : List (String × Json))

namespace Json

/-- An object without the members that are absent. -/
def record (members : List (String × Option Json)) : Json :=
  object (members.filterMap fun member => member.2.map (member.1, ·))

mutual

/-- Equality of documents that write their members in the same order. -/
def beq : Json → Json → Bool
  | null, null => true
  | bool a, bool b => a == b
  | number a, number b => a == b
  | string a, string b => a == b
  | array a, array b => beqElements a b
  | object a, object b => beqMembers a b
  | _, _ => false

def beqElements : List Json → List Json → Bool
  | [], [] => true
  | a :: as, b :: bs => beq a b && beqElements as bs
  | _, _ => false

def beqMembers : List (String × Json) → List (String × Json) → Bool
  | [], [] => true
  | (k, a) :: as, (l, b) :: bs => k == l && beq a b && beqMembers as bs
  | _, _ => false

end

instance : BEq Json := ⟨beq⟩

inductive Kind
  | null
  | boolean
  | number
  | string
  | array
  | object
  deriving DecidableEq, Repr

def kind : Json → Kind
  | null => .null
  | bool _ => .boolean
  | number _ => .number
  | string _ => .string
  | array _ => .array
  | object _ => .object

end Json

abbrev Schema := Json → Bool

namespace Schema
open Json

def anything : Schema := fun _ => true
def nothing : Schema := fun _ => false

section Keywords

def type (kind : Kind) : Schema := fun document => document.kind == kind

/-- One of the texts listed. -/
def enum (texts : List String) : Schema
  | string text => texts.contains text
  | _ => false

def minLength (n : ℕ) : Schema
  | string text => n ≤ text.length
  | _ => true

/-- A pattern that has to match the whole text. -/
def pattern (regex : Regex Char) : Schema
  | string text => regex.accepts text.toList
  | _ => true

/-- A format that is asserted by the check it is given. -/
def format (check : String → Bool) : Schema
  | string text => check text
  | _ => true

def minItems (n : ℕ) : Schema
  | array elements => n ≤ elements.length
  | _ => true

def items (schema : Schema) : Schema
  | array elements => elements.all schema
  | _ => true

def distinct : List Json → Bool
  | [] => true
  | element :: rest => !rest.contains element && distinct rest

def uniqueItems : Schema
  | array elements => distinct elements
  | _ => true

def required (names : List String) : Schema
  | object members => names.all fun name => members.any fun member => member.1 == name
  | _ => true

/-- `properties` together with `additionalProperties`, which is for all other members. -/
def properties (fields : List (String × Schema)) (additional : Schema) : Schema
  | object members =>
    members.all fun member => ((fields.lookup member.1).getD additional) member.2
  | _ => true

/-- The keywords of one schema, or several schemas at once. -/
def allOf (schemas : List Schema) : Schema := fun document =>
  schemas.all fun schema => schema document

def anyOf (schemas : List Schema) : Schema := fun document =>
  schemas.any fun schema => schema document

def oneOf (schemas : List Schema) : Schema := fun document =>
  schemas.countP (fun schema => schema document) == 1

def not (schema : Schema) : Schema := fun document => !schema document

def ifThen (condition consequence : Schema) : Schema := fun document =>
  !condition document || consequence document

end Keywords

section Lemmas
variable {schema additional : Schema} {schemas : List Schema} {document : Json}

@[simp] theorem anything_iff : anything document := rfl

@[simp] theorem type_string (kind : Kind) (text : String) :
    type kind (string text) = (Kind.string == kind) := rfl
@[simp] theorem type_array (kind : Kind) (elements : List Json) :
    type kind (array elements) = (Kind.array == kind) := rfl
@[simp] theorem type_record (kind : Kind) (members : List (String × Option Json)) :
    type kind (record members) = (Kind.object == kind) := rfl

@[simp] theorem enum_string {texts : List String} {text : String} :
    enum texts (string text) ↔ text ∈ texts := by simp [enum]

@[simp] theorem minLength_one_string {text : String} :
    minLength 1 (string text) ↔ text ≠ "" := by
  simp [minLength, Nat.one_le_iff_ne_zero, String.length_eq_zero_iff]

@[simp] theorem pattern_string {regex : Regex Char} {text : String} :
    pattern regex (string text) ↔ text.toList ∈ regex.language := Regex.accepts_iff

@[simp] theorem minItems_one_array {elements : List Json} :
    minItems 1 (array elements) ↔ elements ≠ [] := by
  simp [minItems, Nat.one_le_iff_ne_zero, List.length_eq_zero_iff]

@[simp] theorem items_array {elements : List Json} :
    items schema (array elements) ↔ ∀ element ∈ elements, schema element := by simp [items]

@[simp] theorem allOf_iff : allOf schemas document ↔ ∀ schema ∈ schemas, schema document := by
  simp [allOf]

@[simp] theorem anyOf_iff : anyOf schemas document ↔ ∃ schema ∈ schemas, schema document := by
  simp [anyOf]

@[simp] theorem oneOf_pair {a b : Schema} :
    oneOf [a, b] document ↔ (a document ↔ ¬ b document) := by
  cases ha : a document <;> cases hb : b document <;> simp [oneOf, ha, hb]

@[simp] theorem not_iff : not schema document ↔ ¬ schema document := by simp [not]

@[simp] theorem ifThen_iff {condition consequence : Schema} :
    ifThen condition consequence document ↔ (condition document → consequence document) := by
  simp only [ifThen, Bool.or_eq_true, Bool.not_eq_true', ← Bool.not_eq_true]
  exact imp_iff_not_or.symm

theorem distinct_map_string {texts : List String} :
    distinct (texts.map string) ↔ texts.Nodup := by
  have hcontains (text : String) (rest : List String) :
      (rest.map string).contains (string text) = rest.contains text := by
    induction rest with
    | nil => rfl
    | cons text' rest ih =>
      simp only [List.map_cons, List.contains_cons, ih]
      rfl
  induction texts with
  | nil => simp [distinct]
  | cons text texts ih =>
    simp only [List.map_cons, distinct, Bool.and_eq_true, ih, List.nodup_cons, hcontains]
    simp

@[simp] theorem uniqueItems_strings {texts : List String} :
    uniqueItems (array (texts.map string)) ↔ texts.Nodup := distinct_map_string

section Records
variable {members : List (String × Option Json)}

theorem mem_record {name : String} {value : Json} :
    (name, value) ∈ members.filterMap (fun member => member.2.map (member.1, ·)) ↔
      (name, some value) ∈ members := by
  simp only [List.mem_filterMap, Option.map_eq_some_iff, Prod.mk.injEq]
  constructor
  · rintro ⟨⟨name', value'⟩, hmem, v, hv, rfl, rfl⟩
    cases hv
    exact hmem
  · exact fun hmem => ⟨(name, some value), hmem, value, rfl, rfl, rfl⟩

@[simp] theorem required_record {names : List String} : required names (record members) ↔
    ∀ name ∈ names, ∃ value, (name, some value) ∈ members := by
  simp only [required, record, List.all_eq_true, List.any_eq_true, beq_iff_eq, Prod.exists,
    mem_record]
  refine forall₂_congr fun name _ => ⟨?_, ?_⟩
  · rintro ⟨name', value, hmem, rfl⟩
    exact ⟨value, hmem⟩
  · rintro ⟨value, hmem⟩
    exact ⟨name, value, hmem, rfl⟩

@[simp] theorem properties_record {fields : List (String × Schema)} :
    properties fields additional (record members) ↔
      ∀ member ∈ members, ∀ value, member.2 = some value →
        (fields.lookup member.1).getD additional value := by
  simp only [properties, record, List.all_eq_true, Prod.forall, mem_record]
  refine ⟨fun h name value? hmem value hvalue => ?_, fun h name value hmem => ?_⟩
  · exact h name value (hvalue ▸ hmem)
  · exact h name (some value) hmem value rfl

end Records
end Lemmas
end Schema
