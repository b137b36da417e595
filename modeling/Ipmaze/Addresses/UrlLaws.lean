import Ipmaze.Sample
import Ipmaze.Data.UrlText

/-! What the controller relies on of `Url::parse`: the URL Standard, as far as it settles the
components of http and https URLs. -/
namespace Ipmaze
open UrlText

def httpSchemes : List String := ["http", "https"]

/-- The text of a URL with a scheme and a host, and nothing else. -/
def spliced (scheme host : String) : String := scheme ++ "://" ++ host ++ "/"

structure Crates.ParsesUrls (K : Crates) : Prop where
  /-- There is no base that a text without a scheme could be relative to. -/
  relative {text : String} (h : splitScheme (clean text.toList) = none) :
    ∃ error, K.parseUrl text = .error error
  scheme {text : String} {url : Url} (h : K.parseUrl text = .ok url) :
    ∃ rest, splitScheme (clean text.toList) = some (url.scheme.toList, rest)
  credentials {text : String} {url : Url} {rest : List Char} (h : K.parseUrl text = .ok url)
    (hhttp : url.scheme ∈ httpSchemes)
    (hrest : splitScheme (clean text.toList) = some (url.scheme.toList, rest)) :
    (url.username = "" ↔ username (userinfo (authority rest)) = []) ∧
      (url.password = none ↔ password (userinfo (authority rest)) = [])
  /-- Only a host in brackets has colons of its own. -/
  port {text : String} {url : Url} {rest : List Char} (h : K.parseUrl text = .ok url)
    (hhttp : url.scheme ∈ httpSchemes)
    (hrest : splitScheme (clean text.toList) = some (url.scheme.toList, rest))
    (hbracket : '[' ∉ hostPort (authority rest)) :
    ∀ c ∈ port (hostPort (authority rest)), c.isDigit
  address {scheme host : String} {bits : BitVec 32} (hscheme : scheme ∈ httpSchemes)
    (hplain : IsPlainHost host.toList) (hnumber : endsInNumber host.toList)
    (hbits : ipv4 host.toList = some bits) :
    ∃ url, K.parseUrl (spliced scheme host) = .ok url ∧ url.host = some (.ip (.v4 bits)) ∧
      url.path = "/"
  number {scheme host : String} {url : Url} (hscheme : scheme ∈ httpSchemes)
    (hplain : IsPlainHost host.toList) (hnumber : endsInNumber host.toList)
    (h : K.parseUrl (spliced scheme host) = .ok url) :
    ∃ bits, ipv4 host.toList = some bits ∧ url.host = some (.ip (.v4 bits))
  domain {scheme host : String} {url : Url} (hscheme : scheme ∈ httpSchemes)
    (hplain : IsPlainHost host.toList) (hname : endsInNumber host.toList = false)
    (h : K.parseUrl (spliced scheme host) = .ok url) :
    url.host = some (.domain (Text.toLowercase host))

theorem splitScheme_spliced {scheme host : String} (hscheme : scheme ∈ httpSchemes)
    (hhost : ∀ c ∈ host.toList, isHostPortChar c) :
    splitScheme (clean (spliced scheme host).toList) =
      some (scheme.toList, '/' :: '/' :: (host.toList ++ ['/'])) := by
  have htext : (spliced scheme host).toList =
      scheme.toList ++ ':' :: '/' :: '/' :: (host.toList ++ ['/']) := by
    simp [spliced]
  have hchars : (scheme.toList.head?.any Char.isAlpha ∧
      scheme.toList.all fun c => isSchemeChar c && !isC0OrSpace c) ∧
      scheme.toList.map Char.toLower = scheme.toList := by
    simp only [httpSchemes, List.mem_cons, List.not_mem_nil, or_false] at hscheme
    cases hscheme with
    | inl h =>
      subst h
      decide
    | inr h =>
      subst h
      decide
  obtain ⟨⟨hhead, hall⟩, hlower⟩ := hchars
  rw [htext, splitScheme_clean_hostPort hhead (by simpa using hall) hhost, hlower]

namespace Sample

def urlHost (host : List Char) : Option Host :=
  if endsInNumber host then (ipv4 host).map fun bits => .ip (.v4 bits)
  else some (.domain (String.ofList (host.map Char.toLower)))

def urlPath (rest : List Char) : String :=
  match (rest.dropWhile isSlash).dropWhile fun c => !endsAuthority c with
  | '/' :: path => String.ofList ('/' :: path.takeWhile fun c => c != '?' && c != '#')
  | _ => "/"

/-- The components of an http or https URL whose host is a name or an IPv4 address. -/
def httpUrl (scheme : String) (rest : List Char) : Except String Url :=
  let user := userinfo (authority rest)
  let text := hostPort (authority rest)
  let host := text.takeWhile (· != ':')
  if ¬ IsPlainHost host then .error "invalid international domain name"
  else if ¬ (port text).all Char.isDigit then .error "invalid port number"
  else match urlHost host with
    | none => .error "invalid IPv4 address"
    | some host => .ok {
      scheme
      username := String.ofList (username user)
      password := if password user = [] then none else some (String.ofList (password user))
      host
      port := if port text = [] then none else some (IpAddr.digitValue 10 (port text))
      path := urlPath rest
      query := none
      fragment := none }

def parseUrl (text : String) : Except String Url :=
  match splitScheme (clean text.toList) with
  | none => .error "relative URL without a base"
  | some (scheme, rest) =>
    if String.ofList scheme ∈ httpSchemes then httpUrl (String.ofList scheme) rest
    else .ok {
      scheme := String.ofList scheme
      username := ""
      password := none
      host := none
      port := none
      path := String.ofList rest
      query := none
      fragment := none }

def urlCrates : Crates := { crates with parseUrl := parseUrl }

example : parseUrl address = .ok url := by decide

theorem parseUrl_of_http {text : String} {scheme rest : List Char}
    (h : splitScheme (clean text.toList) = some (scheme, rest))
    (hscheme : String.ofList scheme ∈ httpSchemes) :
    parseUrl text = httpUrl (String.ofList scheme) rest := by
  simp only [parseUrl, h, if_pos hscheme]

theorem httpUrl_ok {scheme : String} {rest : List Char} {url : Url}
    (h : httpUrl scheme rest = .ok url) :
    url.scheme = scheme ∧ url.username = String.ofList (username (userinfo (authority rest))) ∧
      (url.password = none ↔ password (userinfo (authority rest)) = []) ∧
      (∀ c ∈ port (hostPort (authority rest)), c.isDigit) ∧
      ∃ host, urlHost ((hostPort (authority rest)).takeWhile (· != ':')) = some host ∧
        url.host = some host := by
  simp only [httpUrl] at h
  split at h
  next => cases h
  next =>
    split at h
    next => cases h
    next hport =>
      split at h
      next => cases h
      next host hsome =>
        cases h
        refine ⟨rfl, rfl, ?_, by simpa using hport, host, hsome, rfl⟩
        by_cases hpassword : password (userinfo (authority rest)) = [] <;> simp [hpassword]

theorem parseUrl_scheme {text : String} {url : Url} (h : parseUrl text = .ok url) :
    ∃ rest, splitScheme (clean text.toList) = some (url.scheme.toList, rest) := by
  simp only [parseUrl] at h
  split at h
  next => cases h
  next scheme rest hsplit =>
    refine ⟨rest, hsplit.trans ?_⟩
    split_ifs at h
    · rw [(httpUrl_ok h).1, String.toList_ofList]
    · cases h
      rw [String.toList_ofList]

/-- What is accepted with an http or https scheme was divided as such. -/
theorem parseUrl_http {text : String} {url : Url} {rest : List Char} (h : parseUrl text = .ok url)
    (hhttp : url.scheme ∈ httpSchemes)
    (hrest : splitScheme (clean text.toList) = some (url.scheme.toList, rest)) :
    httpUrl url.scheme rest = .ok url := by
  have hscheme : String.ofList url.scheme.toList ∈ httpSchemes := by simpa using hhttp
  rw [parseUrl_of_http hrest hscheme, String.ofList_toList] at h
  exact h

theorem parseUrl_spliced {scheme host : String} (hscheme : scheme ∈ httpSchemes)
    (hplain : IsPlainHost host.toList) :
    parseUrl (spliced scheme host) = httpUrl scheme ('/' :: '/' :: (host.toList ++ ['/'])) := by
  have hchars : ∀ c ∈ host.toList, isHostPortChar c := fun c hc =>
    isHostPortChar_of_isHostChar (hplain.2 c hc)
  rw [parseUrl_of_http (splitScheme_spliced hscheme hchars) (by simpa using hscheme),
    String.ofList_toList]

theorem hostPort_spliced {host : List Char} (h : IsPlainHost host) :
    authority ('/' :: '/' :: (host ++ ['/'])) = host ∧ hostPort host = host ∧
      host.takeWhile (· != ':') = host ∧ port host = [] := by
  have hchars : ∀ c ∈ host, isHostPortChar c := fun c hc => isHostPortChar_of_isHostChar (h.2 c hc)
  have hcolon : ∀ c ∈ host, (c != ':') = true := by
    intro c hc
    have hne : c ≠ ':' := by
      rintro rfl
      exact absurd (h.2 _ hc) (by decide)
    simpa using hne
  have hdrop : host.dropWhile (· != ':') = [] := List.dropWhile_eq_nil_iff.mpr hcolon
  refine ⟨?_, hostPort_eq_self (notMem_of_isHostPortChar hchars (by decide)),
    List.takeWhile_eq_self_iff.mpr hcolon, by rw [port, hdrop, List.drop_nil]⟩
  exact authority_eq h.1 (fun c hc => endsAuthority_of_isHostPortChar (hchars c hc)) []

theorem urlPath_spliced {host : List Char} (h : IsPlainHost host) :
    urlPath ('/' :: '/' :: (host ++ ['/'])) = "/" := by
  have hends : ∀ c ∈ host, (!endsAuthority c) = true := by
    intro c hc
    simp [endsAuthority_of_isHostPortChar (isHostPortChar_of_isHostChar (h.2 c hc))]
  have hslash : (host ++ ['/']).dropWhile isSlash = host ++ ['/'] := by
    cases host with
    | nil => exact absurd rfl h.1
    | cons c host =>
      have hc := hends c (by simp)
      simp only [endsAuthority, Bool.not_eq_true', Bool.or_eq_false_iff] at hc
      simp [hc.1.1]
  have hdrop : (('/' :: '/' :: (host ++ ['/'])).dropWhile isSlash).dropWhile
      (fun c => !endsAuthority c) = ['/'] := by
    rw [List.dropWhile_cons_of_pos (by decide), List.dropWhile_cons_of_pos (by decide), hslash,
      List.dropWhile_append_of_pos hends]
    decide
  rw [urlPath, hdrop]
  rfl

theorem httpUrl_spliced {scheme : String} {host : List Char} (hplain : IsPlainHost host) {h : Host}
    (hhost : urlHost host = some h) :
    ∃ url, httpUrl scheme ('/' :: '/' :: (host ++ ['/'])) = .ok url ∧ url.host = some h ∧
      url.path = "/" := by
  obtain ⟨hauthority, hself, htake, hport⟩ := hostPort_spliced hplain
  simp only [httpUrl, hauthority, hself, htake, hport, hhost, urlPath_spliced hplain]
  simp [hplain]

theorem host_of_spliced {scheme host : String} {url : Url} (hscheme : scheme ∈ httpSchemes)
    (hplain : IsPlainHost host.toList) (h : parseUrl (spliced scheme host) = .ok url) :
    ∃ h, urlHost host.toList = some h ∧ url.host = some h := by
  obtain ⟨hauthority, hself, htake, -⟩ := hostPort_spliced hplain
  rw [parseUrl_spliced hscheme hplain] at h
  obtain ⟨-, -, -, -, hhost⟩ := httpUrl_ok h
  rwa [hauthority, hself, htake] at hhost

theorem parsesUrls : urlCrates.ParsesUrls where
  relative {text} h := ⟨"relative URL without a base", by simp [urlCrates, parseUrl, h]⟩
  scheme h := parseUrl_scheme h
  credentials h hhttp hrest := by
    obtain ⟨-, husername, hpassword, -, -⟩ := httpUrl_ok (parseUrl_http h hhttp hrest)
    exact ⟨by rw [husername]; simp, hpassword⟩
  port h hhttp hrest _ := (httpUrl_ok (parseUrl_http h hhttp hrest)).2.2.2.1
  address {scheme host bits} hscheme hplain hnumber hbits := by
    have hhost : urlHost host.toList = some (.ip (.v4 bits)) := by simp [urlHost, hnumber, hbits]
    have hparse := parseUrl_spliced hscheme hplain
    obtain ⟨url, hurl, hip⟩ := httpUrl_spliced hplain hhost
    exact ⟨url, hparse.trans hurl, hip⟩
  number hscheme hplain hnumber h := by
    obtain ⟨ip, hip, hhost⟩ := host_of_spliced hscheme hplain h
    simp only [urlHost, hnumber, if_true, Option.map_eq_some_iff] at hip
    obtain ⟨bits, hbits, rfl⟩ := hip
    exact ⟨bits, hbits, hhost⟩
  domain hscheme hplain hname h := by
    obtain ⟨name, hdomain, hhost⟩ := host_of_spliced hscheme hplain h
    simp only [urlHost, hname, Bool.false_eq_true, if_false, Option.some.injEq] at hdomain
    rw [hhost, ← hdomain]
    rfl

end Sample

end Ipmaze
