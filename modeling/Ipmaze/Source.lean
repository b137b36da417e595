import Ipmaze.Crates
import Ipmaze.Data.Text

/-! Remote addresses and their retrieval. -/
namespace Ipmaze
open Effects

inductive RemoteAddress
  | url (url : Url)
  | hostname (name : String)
  | ip (address : IpAddr)
  deriving DecidableEq, Repr

structure NormalizedRemoteAddress where
  original : String
  remoteAddress : RemoteAddress
  requestUrl : Url
  deriving DecidableEq, Repr

structure ResolvedSource where
  baseAddress : NormalizedRemoteAddress
  finalAddress : NormalizedRemoteAddress
  pointerUsed : Bool
  deriving DecidableEq, Repr

inductive SourceAddressError
  | empty
  | unsupportedScheme (scheme : String)
  | invalidAddress (address : String)
  | invalidUrl (error : String)
  deriving DecidableEq, Repr

namespace SourceAddressError

def message : SourceAddressError → String
  | empty => "remote address must not be empty"
  | unsupportedScheme scheme =>
    "unsupported URL scheme `" ++ scheme ++ "`; only http and https are allowed"
  | invalidAddress address =>
    "remote address `" ++ address ++ "` is neither a valid HTTP(S) URL, hostname, nor IP address"
  | invalidUrl error => "generated request URL is invalid: " ++ error

end SourceAddressError

inductive FetchError
  | pointerRetrieval (error : String)
  | pointerExtractionNoMatch
  | pointerExtractionEmptyCapture
  | pointerResolvedAddress (error : SourceAddressError)
  | finalRetrieval (error : String)
  | invalidJson (error : String)
  deriving DecidableEq, Repr

namespace FetchError

def message : FetchError → String
  | pointerRetrieval _ => "unable to retrieve pointer content"
  | pointerExtractionNoMatch => "pointer regex did not match the pointer response body"
  | pointerExtractionEmptyCapture =>
    "pointer regex must capture a non-empty first capture group"
  | pointerResolvedAddress _ => "pointer regex captured an invalid remote address"
  | finalRetrieval _ => "unable to retrieve final JSON source"
  | invalidJson _ => "response body is not valid JSON"

end FetchError

def isValidHostnameLabel (label : String) : Bool :=
  if label = "" ∨ 63 < Text.byteLength label then false
  else if label.toList.head? = some '-' ∨ label.toList.getLast? = some '-' then false
  else label.toList.all fun ch => ch.isAlphanum || ch == '-'

def isValidHostname (value : String) : Bool :=
  if value = "" ∨ 253 < Text.byteLength value ∨ value.toList.head? = some '.' ∨
      value.toList.getLast? = some '.' then false
  else (Text.split value '.').all isValidHostnameLabel

variable (K : Crates)

/-- The text is tried as a URL first, then as an IP address, then as a hostname. -/
def normalizeSourceAddress (address : String) :
    Except SourceAddressError NormalizedRemoteAddress :=
  let trimmed := Text.trim address
  if trimmed = "" then .error .empty
  else match K.parseUrl trimmed with
    | .ok url =>
      if url.scheme = "http" ∨ url.scheme = "https" then
        .ok { original := trimmed, remoteAddress := .url url, requestUrl := url }
      else .error (.unsupportedScheme url.scheme)
    | .error _ =>
      match IpAddr.fromStr trimmed with
      | some ip => do
        let requestUrl ← (K.parseUrl ("http://" ++ trimmed ++ "/")).mapError .invalidUrl
        return { original := trimmed, remoteAddress := .ip ip, requestUrl }
      | none =>
        if isValidHostname trimmed then do
          let requestUrl ← (K.parseUrl ("https://" ++ trimmed ++ "/")).mapError .invalidUrl
          return { original := trimmed, remoteAddress := .hostname trimmed, requestUrl }
        else .error (.invalidAddress trimmed)

/-- The body of an answer, unless the request failed, was answered with a client or server
error, or the body did not arrive. -/
def HttpAnswer.successBody : HttpAnswer → Except String (List UInt8)
  | .failed error => .error error
  | .response status body =>
    if 400 ≤ status ∧ status < 600 then .error ("HTTP status " ++ toString status) else body

def fetchText (address : NormalizedRemoteAddress) : Task FetchError String := do
  let answer ← Task.httpGet address.requestUrl
  let body ← .ofExcept (answer.successBody.mapError .pointerRetrieval)
  return K.decodeText body

def parseJsonBytes (bytes : List UInt8) : Except FetchError K.Value :=
  (K.parseJson bytes).mapError .invalidJson

def fetchJson (address : NormalizedRemoteAddress) : Task FetchError K.Value := do
  let answer ← Task.httpGet address.requestUrl
  let body ← .ofExcept (answer.successBody.mapError .finalRetrieval)
  .ofExcept (parseJsonBytes K body)

/-- The address the first capture group of the first match holds. -/
def resolvePointer (regex : K.Regex) (body : String) :
    Except FetchError NormalizedRemoteAddress :=
  match K.captures regex body with
  | none => .error .pointerExtractionNoMatch
  | some captures =>
    match ((captures 1).map Text.trim).filter (· ≠ "") with
    | none => .error .pointerExtractionEmptyCapture
    | some resolved => (normalizeSourceAddress K resolved).mapError .pointerResolvedAddress

def resolveFinalSource (baseAddress : NormalizedRemoteAddress) :
    Option K.Regex → Task FetchError ResolvedSource
  | none => return { baseAddress, finalAddress := baseAddress, pointerUsed := false }
  | some regex => do
    let pointerBody ← fetchText K baseAddress
    let finalAddress ← .ofExcept (resolvePointer K regex pointerBody)
    return { baseAddress, finalAddress, pointerUsed := true }

end Ipmaze
