import Ipmaze.Crates
import Ipmaze.Data.BTreeSet
import Mathlib.Data.Prod.Lex
import Mathlib.Data.String.Basic
import Mathlib.Data.List.Sort

/-! Evaluation of the CIDR query and normalisation of its result. -/
namespace Ipmaze

inductive IpFamily
  | v4
  | v6
  deriving DecidableEq, Repr

namespace IpFamily

def rank : IpFamily → ℕ
  | v4 => 0
  | v6 => 1

instance : LinearOrder IpFamily :=
  LinearOrder.lift' rank (by intro a b; cases a <;> cases b <;> decide)

end IpFamily

structure NormalizedCidr where
  rendered : String
  family : IpFamily
  deriving DecidableEq, Repr

namespace NormalizedCidr

/-- The derived order of the source: by text, then by family. -/
def key (cidr : NormalizedCidr) : String ×ₗ IpFamily := toLex (cidr.rendered, cidr.family)

theorem key_injective : Function.Injective key := by
  intro a b h
  cases a
  cases b
  simp only [key, EmbeddingLike.apply_eq_iff_eq, Prod.mk.injEq] at h
  rw [h.1, h.2]

instance : LinearOrder NormalizedCidr := LinearOrder.lift' key key_injective

end NormalizedCidr

inductive ExtractionError
  | serializePayload (error : String)
  | variableFromJson (error : String)
  | evaluate (error : String)
  | resultNotArray
  | resultElementNotString
  | invalidCidr (text : String)
  deriving DecidableEq, Repr

namespace ExtractionError

def message : ExtractionError → String
  | serializePayload _ => "unable to serialize JSON payload for query evaluation"
  | variableFromJson _ => "unable to convert payload into JMESPath variable"
  | evaluate _ => "JMESPath evaluation failed"
  | resultNotArray => "query result must be an array"
  | resultElementNotString => "query result elements must all be strings"
  | invalidCidr text => "invalid CIDR `" ++ text ++ "`"

end ExtractionError

variable (K : Crates)

def compileQuery (expr : String) : Except String K.Expression := K.compileExpression expr

def NormalizedCidr.ofNet (net : IpNet) : NormalizedCidr where
  rendered := K.printNet net
  family := match net with
    | .v4 _ _ => .v4
    | .v6 _ _ => .v6

/-- The loop over the query result, with the texts seen and the CIDRs kept so far. -/
def collectCidrs (seen : BTreeSet String) (cidrs : List NormalizedCidr) :
    List K.Variable → Except ExtractionError (List NormalizedCidr)
  | [] => .ok cidrs
  | value :: values =>
    match K.asString value with
    | none => .error .resultElementNotString
    | some cidr =>
      match K.parseNet cidr with
      | none => .error (.invalidCidr cidr)
      | some parsed =>
        let normalized := NormalizedCidr.ofNet K parsed
        if normalized.rendered ∈ seen then collectCidrs seen cidrs values
        else collectCidrs (seen.insert normalized.rendered) (cidrs ++ [normalized]) values

def extractCidrs (expression : K.Expression) (payload : K.Value) :
    Except ExtractionError (List NormalizedCidr) := do
  let payloadJson ← (K.jsonText payload).mapError .serializePayload
  let var ← (K.variableFromJson payloadJson).mapError .variableFromJson
  let result ← (K.search expression var).mapError .evaluate
  let values ← match K.asArray result with
    | none => .error .resultNotArray
    | some values => .ok values
  let cidrs ← collectCidrs K .empty [] values
  return cidrs.insertionSort (· ≤ ·)

end Ipmaze
