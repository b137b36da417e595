import Ipmaze.Addresses.UrlLaws
import Ipmaze.Data.Checked

/-! What becomes of a configured address: which of the three readings it is accepted under, and
whether the request goes to what was read. -/
namespace Ipmaze
open UrlText

section Inversion
variable {K : Crates} {text : String} {normalized : NormalizedRemoteAddress}

/-- How a trimmed text is accepted. -/
inductive NormalizesTo (K : Crates) (trimmed : String) : NormalizedRemoteAddress → Prop
  | url {url : Url} (hurl : K.parseUrl trimmed = .ok url) (hscheme : url.scheme ∈ httpSchemes) :
      NormalizesTo K trimmed ⟨trimmed, .url url, url⟩
  | ip {error : String} {ip : IpAddr} {requestUrl : Url} (hurl : K.parseUrl trimmed = .error error)
      (hip : IpAddr.fromStr trimmed = some ip)
      (hrequest : K.parseUrl (spliced "http" trimmed) = .ok requestUrl) :
      NormalizesTo K trimmed ⟨trimmed, .ip ip, requestUrl⟩
  | hostname {error : String} {requestUrl : Url} (hurl : K.parseUrl trimmed = .error error)
      (hip : IpAddr.fromStr trimmed = none) (hname : isValidHostname trimmed = true)
      (hrequest : K.parseUrl (spliced "https" trimmed) = .ok requestUrl) :
      NormalizesTo K trimmed ⟨trimmed, .hostname trimmed, requestUrl⟩

theorem normalizeSourceAddress_ok_iff : normalizeSourceAddress K text = .ok normalized ↔
    Text.trim text ≠ "" ∧ NormalizesTo K (Text.trim text) normalized := by
  have hhttp (t : String) : "http://" ++ t ++ "/" = spliced "http" t := rfl
  have hhttps (t : String) : "https://" ++ t ++ "/" = spliced "https" t := rfl
  unfold normalizeSourceAddress
  simp only [hhttp, hhttps]
  generalize Text.trim text = trimmed
  constructor
  · intro h
    split at h
    next => cases h
    next hne =>
      refine ⟨hne, ?_⟩
      split at h
      next url hurl =>
        split at h
        next hscheme =>
          cases h
          exact .url hurl (by simpa [httpSchemes] using hscheme)
        next => cases h
      next error hurl =>
        split at h
        next ip hip =>
          obtain ⟨requestUrl, hrequest, h⟩ := Checked.bind_ok_iff.mp h
          cases h
          exact .ip hurl hip (Checked.mapError_ok_iff.mp hrequest)
        next hip =>
          split at h
          next hname =>
            obtain ⟨requestUrl, hrequest, h⟩ := Checked.bind_ok_iff.mp h
            cases h
            exact .hostname hurl hip hname (Checked.mapError_ok_iff.mp hrequest)
          next => cases h
  · rintro ⟨hne, h⟩
    cases h with
    | url hurl hscheme =>
      have heither := hscheme
      simp only [httpSchemes, List.mem_cons, List.not_mem_nil, or_false] at heither
      simp [hne, hurl, heither]
    | ip hurl hip hrequest =>
      simp only [hne, hurl, hip, hrequest, if_false]
      rfl
    | hostname hurl hip hname hrequest =>
      simp only [hne, hurl, hip, hname, hrequest, if_true, if_false]
      rfl

end Inversion

section Texts
variable {K : Crates} {text : String} {address : IpAddr}

theorem isPlainHost_of_isValidHostname (h : isValidHostname text = true) :
    IsPlainHost text.toList := by
  unfold isValidHostname at h
  split_ifs at h with hends
  have hne : text ≠ "" := fun h0 => hends (Or.inl h0)
  refine ⟨by simpa using hne, ?_⟩
  apply Text.forall_mem_of_splitOn (P := fun c => isHostChar c) (by decide : isHostChar '.')
  intro label hlabel c hc
  have hvalid : isValidHostnameLabel (String.ofList label) = true :=
    List.all_eq_true.mp h _ (List.mem_map_of_mem hlabel)
  unfold isValidHostnameLabel at hvalid
  split_ifs at hvalid
  rw [String.toList_ofList] at hvalid
  have hchar := List.all_eq_true.mp hvalid c hc
  simp only [isHostChar, hchar, Bool.true_or]

theorem isPlainHost_of_fromStr_v4 {bits : BitVec 32} (h : IpAddr.fromStr text = some (.v4 bits)) :
    IsPlainHost text.toList := by
  rw [IpAddr.fromStr_eq_v4_iff.mp h]
  exact isPlainHost_v4Text bits

theorem forall_isHostPortChar_of_isPlainHost (h : IsPlainHost text.toList) :
    ∀ c ∈ text.toList, isHostPortChar c := fun c hc => isHostPortChar_of_isHostChar (h.2 c hc)

theorem forall_isHostPortChar_of_fromStr (h : IpAddr.fromStr text = some address) :
    ∀ c ∈ text.toList, isHostPortChar c := by
  cases address with
  | v4 bits => exact forall_isHostPortChar_of_isPlainHost (isPlainHost_of_fromStr_v4 h)
  | v6 bits => exact fun c hc => isHostPortChar_of_isAddressChar ((IpAddr.fromStr_v6_text h).2 c hc)

/-- A plain host is not taken for a URL. -/
theorem parseUrl_of_isPlainHost (hK : K.ParsesUrls) (h : IsPlainHost text.toList) :
    ∃ error, K.parseUrl text = .error error := by
  apply hK.relative
  apply splitScheme_eq_none
  intro hcolon
  exact absurd (h.2 ':' (mem_of_mem_clean hcolon)) (by decide)

theorem scheme_of_spliced (hK : K.ParsesUrls) {scheme : String} {url : Url}
    (hscheme : scheme ∈ httpSchemes) (hchars : ∀ c ∈ text.toList, isHostPortChar c)
    (h : K.parseUrl (spliced scheme text) = .ok url) : url.scheme = scheme := by
  obtain ⟨rest, hrest⟩ := hK.scheme h
  rw [splitScheme_spliced hscheme hchars, Option.some.injEq, Prod.mk.injEq] at hrest
  exact String.toList_inj.mp hrest.1.symm

/-- An IPv6 address without brackets has a second colon where the port should be. -/
theorem parseUrl_spliced_v6 (hK : K.ParsesUrls) {scheme : String} (hscheme : scheme ∈ httpSchemes)
    {bits : BitVec 128} (h : IpAddr.fromStr text = some (.v6 bits)) :
    ∃ error, K.parseUrl (spliced scheme text) = .error error := by
  cases hurl : K.parseUrl (spliced scheme text) with
  | error error => exact ⟨error, rfl⟩
  | ok url =>
    exfalso
    have hcolons := (IpAddr.fromStr_v6_text h).1
    have hchars := forall_isHostPortChar_of_fromStr h
    have hne : text.toList ≠ [] := by
      intro h0
      simp [h0] at hcolons
    have hurlScheme := scheme_of_spliced hK hscheme hchars hurl
    have hsplit : splitScheme (clean (spliced scheme text).toList) =
        some (url.scheme.toList, '/' :: '/' :: (text.toList ++ ['/'])) := by
      rw [hurlScheme]
      exact splitScheme_spliced hscheme hchars
    have hauthority : authority ('/' :: '/' :: (text.toList ++ ['/'])) = text.toList :=
      authority_eq hne (fun c hc => endsAuthority_of_isHostPortChar (hchars c hc)) []
    have hself : hostPort text.toList = text.toList :=
      hostPort_eq_self (notMem_of_isHostPortChar hchars (by decide))
    have hport := hK.port hurl (hurlScheme.symm ▸ hscheme) hsplit
    rw [hauthority, hself] at hport
    have hdigit := hport (notMem_of_isHostPortChar hchars (by decide)) ':' (colon_mem_port hcolons)
    exact absurd hdigit (by decide)

end Texts

/-- The text is accepted as this address, and what is requested is the root of its HTTP server. -/
def AcceptsIp (K : Crates) (text : String) (address : IpAddr) : Prop :=
  ∃ normalized, normalizeSourceAddress K text = .ok normalized ∧
    normalized.remoteAddress = .ip address ∧ normalized.requestUrl.scheme = "http" ∧
    normalized.requestUrl.host = some (.ip address) ∧ normalized.requestUrl.path = "/"

/-- Of the addresses that the address parser reads, those of IPv4 are accepted as sources. -/
theorem acceptsIp_iff {K : Crates} (hK : K.ParsesUrls) {text : String} {address : IpAddr}
    (h : IpAddr.fromStr (Text.trim text) = some address) :
    AcceptsIp K text address ↔ ∃ bits, address = .v4 bits := by
  have hhttp : "http" ∈ httpSchemes := by decide
  constructor
  · rintro ⟨normalized, hok, hremote, -⟩
    obtain ⟨-, hreading⟩ := normalizeSourceAddress_ok_iff.mp hok
    cases address with
    | v4 bits => exact ⟨bits, rfl⟩
    | v6 bits =>
      obtain ⟨error, herror⟩ := parseUrl_spliced_v6 hK hhttp h
      cases hreading with
      | ip hurl hip hrequest =>
        rw [hrequest] at herror
        cases herror
      | url => cases hremote
      | hostname => cases hremote
  · rintro ⟨bits, rfl⟩
    have hplain := isPlainHost_of_fromStr_v4 h
    have htext := IpAddr.fromStr_eq_v4_iff.mp h
    obtain ⟨error, hurl⟩ := parseUrl_of_isPlainHost hK hplain
    have hnumber : endsInNumber (Text.trim text).toList := by
      rw [htext]
      exact endsInNumber_v4Text bits
    have hbits : ipv4 (Text.trim text).toList = some bits := by
      rw [htext]
      exact ipv4_v4Text bits
    obtain ⟨requestUrl, hrequest, hhost, hpath⟩ := hK.address hhttp hplain hnumber hbits
    have hscheme := scheme_of_spliced hK hhttp (forall_isHostPortChar_of_isPlainHost hplain) hrequest
    have hne : Text.trim text ≠ "" := by
      intro h0
      exact hplain.1 (by simp [h0])
    exact ⟨_, normalizeSourceAddress_ok_iff.mpr ⟨hne, .ip hurl h hrequest⟩, rfl, hscheme, hhost,
      hpath⟩

theorem acceptsIp_iff_dotted : AcceptsIp Sample.urlCrates " 203.0.113.10\n" (.v4 0xCB00710A#32) ↔
    ∃ bits, IpAddr.v4 0xCB00710A#32 = .v4 bits :=
  acceptsIp_iff Sample.parsesUrls (by decide)

/-- The colons of an IPv6 address end its first group, and what follows is no port. -/
theorem unbracketed_not_acceptsIp :
    IpAddr.fromStr (Text.trim "2001:db8::1") = some (.v6 0x20010DB8000000000000000000000001#128) ∧
      ¬ AcceptsIp Sample.urlCrates "2001:db8::1" (.v6 0x20010DB8000000000000000000000001#128) := by
  refine ⟨by decide, ?_⟩
  rintro ⟨normalized, hok, -⟩
  have herror : normalizeSourceAddress Sample.urlCrates "2001:db8::1" =
      .error (.invalidUrl "invalid port number") := by decide
  rw [herror] at hok
  cases hok

/-- The request goes to what the text was taken for. -/
def NormalizedRemoteAddress.Agrees (normalized : NormalizedRemoteAddress) : Prop :=
  match normalized.remoteAddress with
  | .hostname name => normalized.requestUrl.scheme = "https" ∧
      ∃ domain, normalized.requestUrl.host = some (.domain domain) ∧
        Text.toLowercase domain = Text.toLowercase name
  | .ip address => normalized.requestUrl.scheme = "http" ∧
      normalized.requestUrl.host = some (.ip address)
  | .url _ => normalized.requestUrl.scheme ∈ httpSchemes

/-- The hostname check lets the text through, although the URL parser takes it for an address. -/
def PassesAsName (trimmed : String) : Prop :=
  isValidHostname trimmed = true ∧ IpAddr.fromStr trimmed = none ∧
    endsInNumber trimmed.toList = true

section Agreement
variable {K : Crates} {trimmed : String} {requestUrl : Url}

theorem agrees_ip (hK : K.ParsesUrls) {address : IpAddr}
    (hip : IpAddr.fromStr trimmed = some address)
    (hrequest : K.parseUrl (spliced "http" trimmed) = .ok requestUrl) :
    NormalizedRemoteAddress.Agrees ⟨trimmed, .ip address, requestUrl⟩ := by
  have hhttp : "http" ∈ httpSchemes := by decide
  cases address with
  | v4 bits =>
    have hplain := isPlainHost_of_fromStr_v4 hip
    have htext := IpAddr.fromStr_eq_v4_iff.mp hip
    have hscheme :=
      scheme_of_spliced hK hhttp (forall_isHostPortChar_of_isPlainHost hplain) hrequest
    obtain ⟨bits', hbits, hhost⟩ :=
      hK.number hhttp hplain (by rw [htext]; exact endsInNumber_v4Text bits) hrequest
    rw [htext, ipv4_v4Text, Option.some.injEq] at hbits
    exact ⟨hscheme, by rw [hhost, hbits]⟩
  | v6 bits =>
    obtain ⟨error, herror⟩ := parseUrl_spliced_v6 hK hhttp hip
    rw [hrequest] at herror
    cases herror

/-- The URL parser keeps a name in small letters, and makes an address of a number. -/
theorem agrees_hostname_iff (hK : K.ParsesUrls) (hip : IpAddr.fromStr trimmed = none)
    (hname : isValidHostname trimmed = true)
    (hrequest : K.parseUrl (spliced "https" trimmed) = .ok requestUrl) :
    NormalizedRemoteAddress.Agrees ⟨trimmed, .hostname trimmed, requestUrl⟩ ↔
      ¬ PassesAsName trimmed := by
  have hhttps : "https" ∈ httpSchemes := by decide
  have hplain := isPlainHost_of_isValidHostname hname
  have hscheme :=
    scheme_of_spliced hK hhttps (forall_isHostPortChar_of_isPlainHost hplain) hrequest
  cases hnumber : endsInNumber trimmed.toList with
  | true =>
    refine iff_of_false ?_ (not_not_intro ⟨hname, hip, hnumber⟩)
    rintro ⟨-, domain, hdomain, -⟩
    obtain ⟨bits, -, hhost⟩ := hK.number hhttps hplain hnumber hrequest
    rw [hhost] at hdomain
    cases hdomain
  | false =>
    have hhost := hK.domain hhttps hplain hnumber hrequest
    refine iff_of_true ⟨hscheme, _, hhost, Text.toLowercase_toLowercase trimmed⟩ ?_
    rintro ⟨-, -, hother⟩
    rw [hnumber] at hother
    cases hother

end Agreement

/-- What is accepted is requested as what it was taken for, unless its last label is a number. -/
theorem agrees_iff {K : Crates} (hK : K.ParsesUrls) {text : String}
    {normalized : NormalizedRemoteAddress}
    (h : normalizeSourceAddress K text = .ok normalized) :
    normalized.Agrees ↔ ¬ PassesAsName (Text.trim text) := by
  obtain ⟨-, hreading⟩ := normalizeSourceAddress_ok_iff.mp h
  generalize Text.trim text = trimmed at hreading
  cases hreading with
  | url hurl hscheme =>
    refine iff_of_true hscheme ?_
    rintro ⟨hname, -⟩
    obtain ⟨error, herror⟩ := parseUrl_of_isPlainHost hK (isPlainHost_of_isValidHostname hname)
    rw [hurl] at herror
    cases herror
  | ip hurl hip hrequest =>
    refine iff_of_true (agrees_ip hK hip hrequest) ?_
    rintro ⟨-, hnone, -⟩
    rw [hip] at hnone
    cases hnone
  | hostname hurl hip hname hrequest => exact agrees_hostname_iff hK hip hname hrequest

theorem agrees_iff_name :
    NormalizedRemoteAddress.Agrees ⟨"lists.example", .hostname "lists.example",
      { Sample.url with path := "/" }⟩ ↔ ¬ PassesAsName (Text.trim " lists.example") :=
  agrees_iff Sample.parsesUrls (by decide)

/-- A short form of an IPv4 address is accepted as a hostname, and requested as that address. -/
theorem short_form_not_agrees : ∃ normalized,
    normalizeSourceAddress Sample.urlCrates "127.1" = .ok normalized ∧
      normalized.remoteAddress = .hostname "127.1" ∧
      normalized.requestUrl.host = some (.ip (.v4 0x7F000001#32)) ∧ ¬ normalized.Agrees := by
  refine ⟨⟨"127.1", .hostname "127.1", { Sample.url with
    host := some (.ip (.v4 0x7F000001#32)), path := "/" }⟩, by decide, rfl, rfl, ?_⟩
  rintro ⟨-, domain, hdomain, -⟩
  cases hdomain

end Ipmaze
