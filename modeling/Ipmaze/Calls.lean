import Ipmaze.Kube
import Ipmaze.Data.IpAddr
import Ipmaze.Effects.World

/-! Everything the controller asks of its surroundings: HTTP requests, clock readings and
calls of the Kubernetes API. -/
namespace Ipmaze
open Effects

inductive Host
  | domain (name : String)
  | ip (address : IpAddr)
  deriving DecidableEq, Repr

/-- The components of a parsed URL. -/
structure Url where
  scheme : String
  username : String
  password : Option String
  host : Option Host
  port : Option ℕ
  path : String
  query : Option String
  fragment : Option String
  deriving DecidableEq, Repr

/-- A GET request fails before a status arrives, or is answered with a status and a body
whose bytes may fail to arrive. -/
inductive HttpAnswer
  | failed (error : String)
  | response (status : ℕ) (body : Except String (List UInt8))

structure PatchParams where
  fieldManager : String
  force : Bool
  deriving DecidableEq, Repr

namespace PatchParams

def apply (fieldManager : String) : PatchParams := ⟨fieldManager, false⟩
def forced (params : PatchParams) : PatchParams := { params with force := true }

end PatchParams

inductive Call
  | httpGet (url : Url)
  | utcNow
  | getNetworkPolicy (ns name : String)
  | patchNetworkPolicy (ns name : String) (params : PatchParams) (patch : NetworkPolicy)
  | deleteNetworkPolicy (ns name : String)
  | getPolicy (ns name : String)
  | patchStatus (ns name : String) (params : PatchParams) (patch : CIDRPolicyStatus)
  | publishEvent (event : Event) (reference : ObjectReference)
  deriving DecidableEq

/-- A missing NetworkPolicy is an answer, any other missing object an error. -/
abbrev Call.Answer : Call → Type
  | httpGet _ => HttpAnswer
  | utcNow => Instant
  | getNetworkPolicy _ _ => Except KubeError (Option NetworkPolicy)
  | patchNetworkPolicy _ _ _ _ => Except KubeError Unit
  | deleteNetworkPolicy _ _ => Except KubeError Unit
  | getPolicy _ _ => Except KubeError CIDRPolicy
  | patchStatus _ _ _ _ => Except KubeError Unit
  | publishEvent _ _ => Except KubeError Unit

abbrev Calls : Interface := ⟨Call, Call.Answer⟩

abbrev Task (ε α : Type) := Program Calls ε α

namespace Task

def httpGet {ε : Type} (url : Url) : Task ε HttpAnswer := .call (I := Calls) (.httpGet url) .ret
def utcNow {ε : Type} : Task ε Instant := .call (I := Calls) .utcNow .ret
def getNetworkPolicy (ns name : String) : Task KubeError (Option NetworkPolicy) :=
  .call (I := Calls) (.getNetworkPolicy ns name) .ofExcept
def patchNetworkPolicy (ns name : String) (params : PatchParams) (patch : NetworkPolicy) :
    Task KubeError Unit :=
  .call (I := Calls) (.patchNetworkPolicy ns name params patch) .ofExcept
def deleteNetworkPolicy (ns name : String) : Task KubeError (Except KubeError Unit) :=
  .call (I := Calls) (.deleteNetworkPolicy ns name) .ret
def getPolicy (ns name : String) : Task KubeError CIDRPolicy :=
  .call (I := Calls) (.getPolicy ns name) .ofExcept
def patchStatus (ns name : String) (params : PatchParams) (patch : CIDRPolicyStatus) :
    Task KubeError Unit :=
  .call (I := Calls) (.patchStatus ns name params patch) .ofExcept
def publishEvent (event : Event) (reference : ObjectReference) : Task KubeError Unit :=
  .call (I := Calls) (.publishEvent event reference) .ofExcept

end Task
end Ipmaze
