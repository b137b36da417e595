import Ipmaze.Data.Checked
import Ipmaze.Data.Distinct
import Ipmaze.Extract

/-! Extraction in three stages: the query is evaluated, every element of its result is read as
a network, and the networks read are normalised. -/
namespace Ipmaze
open Checked BTreeSet

variable (K : Crates)

/-- The result of the query on the payload, which is converted for it first. -/
def evaluateQuery (expression : K.Expression) (payload : K.Value) :
    Except ExtractionError K.Variable := do
  let payloadJson ← (K.jsonText payload).mapError .serializePayload
  let var ← (K.variableFromJson payloadJson).mapError .variableFromJson
  (K.search expression var).mapError .evaluate

def readArray (result : K.Variable) : Except ExtractionError (List K.Variable) :=
  match K.asArray result with
  | none => .error .resultNotArray
  | some values => .ok values

def readNet (value : K.Variable) : Except ExtractionError IpNet :=
  match K.asString value with
  | none => .error .resultElementNotString
  | some cidr =>
    match K.parseNet cidr with
    | none => .error (.invalidCidr cidr)
    | some net => .ok net

def normalizeNets (nets : List IpNet) : List NormalizedCidr :=
  sortDistinct NormalizedCidr.rendered (nets.map (NormalizedCidr.ofNet K))

theorem NormalizedCidr.ofNet_rendered (net : IpNet) :
    (NormalizedCidr.ofNet K net).rendered = K.printNet net := rfl

/-- The loop reads the elements from left to right, and keeps the first network of each text. -/
theorem collectCidrs_eq (seen : BTreeSet String) (cidrs : List NormalizedCidr)
    (values : List K.Variable) :
    collectCidrs K seen cidrs values = (values.mapM (readNet K)).map fun nets =>
      cidrs ++ distinctFrom NormalizedCidr.rendered seen (nets.map (NormalizedCidr.ofNet K)) := by
  induction values generalizing seen cidrs with
  | nil => simp [collectCidrs, distinctFrom, Except.map, pure, Except.pure]
  | cons value values ih =>
    rw [List.mapM_cons]
    cases hs : K.asString value with
    | none => simp [collectCidrs, readNet, hs, Except.map, bind, Except.bind]
    | some cidr =>
      cases hp : K.parseNet cidr with
      | none => simp [collectCidrs, readNet, hs, hp, Except.map, bind, Except.bind]
      | some net =>
        simp only [collectCidrs, readNet, hs, hp, ih]
        cases values.mapM (readNet K) with
        | error e => simp [Except.map, bind, Except.bind]
        | ok nets =>
          simp only [Except.map, bind, Except.bind, pure, Except.pure, List.map_cons, distinctFrom]
          split_ifs <;> simp

theorem extractCidrs_eq (expression : K.Expression) (payload : K.Value) :
    extractCidrs K expression payload = do
      let result ← evaluateQuery K expression payload
      let values ← readArray K result
      let nets ← values.mapM (readNet K)
      return normalizeNets K nets := by
  unfold extractCidrs evaluateQuery readArray
  cases K.jsonText payload with
  | error e => rfl
  | ok payloadJson =>
    cases hv : K.variableFromJson payloadJson with
    | error e => simp [bind, Except.bind, Except.mapError, hv]
    | ok var =>
      cases hs : K.search expression var with
      | error e => simp [bind, Except.bind, Except.mapError, hv, hs]
      | ok result =>
        cases ha : K.asArray result with
        | none => simp [bind, Except.bind, Except.mapError, hv, hs, ha]
        | some values =>
          simp only [bind, Except.bind, Except.mapError, hv, hs, ha, collectCidrs_eq]
          cases values.mapM (readNet K) <;> rfl

end Ipmaze
