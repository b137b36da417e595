import Ipmaze.Addresses.Pointer

/-! Names without a scheme: those that stand alone are requested over HTTPS, on either route, and
those with a path behind them are rejected. -/
namespace Ipmaze
open Effects Checked UrlText

/-- The URL Standard leaves a name in small letters as it is, if none of its labels is empty or
encoded. -/
structure Crates.ParsesNames (K : Crates) : Prop extends K.ParsesUrls where
  name {scheme host : String} (hscheme : scheme ∈ httpSchemes) (hplain : IsPlainHost host.toList)
    (hname : endsInNumber host.toList = false) (hlower : Text.toLowercase host = host)
    (hlabels : ∀ label ∈ host.toList.splitOn '.', label ≠ [] ∧ ¬ "xn--".toList <+: label) :
    ∃ url, K.parseUrl (spliced scheme host) = .ok url ∧ url.path = "/"

/-- A hostname in small letters whose last label begins with a letter, with no encoded label. -/
structure IsDnsName (host : String) : Prop where
  valid : isValidHostname host = true
  lower : Text.toLowercase host = host
  letter : (host.toList.splitOn '.').getLast?.any fun label => label.head?.any Char.isAlpha
  decoded : ∀ label ∈ host.toList.splitOn '.', ¬ "xn--".toList <+: label

/-- No path, or one that begins with a slash, whatever its other characters are. -/
def IsPath (path : String) : Prop := path = "" ∨ path.toList.head? = some '/'

/-- The request goes to this path of this host, over HTTPS. -/
structure Url.Targets (url : Url) (host path : String) : Prop where
  scheme : url.scheme = "https"
  host : url.host = some (.domain host)
  path : url.path = if path = "" then "/" else path

def HonoursDirectly (K : Crates) (host path : String) : Prop :=
  ∃ normalized, normalizeSourceAddress K (host ++ path) = .ok normalized ∧
    normalized.requestUrl.Targets host path

def HonoursBehindPointer (K : Crates) (applied : Apply) (w : World Calls Choice Cluster)
    (base : NormalizedRemoteAddress) (regex : K.Regex) (host path : String) : Prop :=
  ∃ source w', (resolveFinalSource K base (some regex)).run (api applied) w = (.ok source, w') ∧
    source.finalAddress.requestUrl.Targets host path

section Hostnames
variable {K : Crates} {host : String}

theorem labels_ne_nil (h : isValidHostname host = true) :
    ∀ label ∈ host.toList.splitOn '.', label ≠ [] := by
  unfold isValidHostname at h
  split_ifs at h
  rintro label hlabel rfl
  have hvalid : isValidHostnameLabel (String.ofList []) = true :=
    List.all_eq_true.mp h _ (List.mem_map_of_mem hlabel)
  exact absurd hvalid (by decide)

theorem isWhitespace_of_isPlainHost (h : IsPlainHost host.toList) :
    ∀ c ∈ host.toList, Text.isWhitespace c = false := by
  intro c hc
  have hcode := isHostPortChar_iff.mp (isHostPortChar_of_isHostChar (h.2 c hc))
  simp only [Text.isWhitespace, Bool.or_eq_false_iff, Bool.and_eq_false_iff,
    decide_eq_false_iff_not, beq_eq_false_iff_ne]
  omega

theorem fromStr_of_letter (hplain : IsPlainHost host.toList)
    (hname : endsInNumber host.toList = false) : IpAddr.fromStr host = none := by
  cases hip : IpAddr.fromStr host with
  | none => rfl
  | some address =>
    exfalso
    cases address with
    | v4 bits =>
      rw [IpAddr.fromStr_eq_v4_iff.mp hip, endsInNumber_v4Text] at hname
      cases hname
    | v6 bits =>
      have hcolon : ':' ∈ host.toList := by
        rw [← List.count_pos_iff]
        exact Nat.lt_of_lt_of_le (by decide) (IpAddr.fromStr_v6_text hip).1
      exact absurd (hplain.2 ':' hcolon) (by decide)

/-- A name alone is requested as such. -/
theorem normalizeSourceAddress_name (hK : K.ParsesNames) (h : IsDnsName host) :
    ∃ normalized, normalizeSourceAddress K host = .ok normalized ∧
      normalized.requestUrl.Targets host "" := by
  have hhttps : "https" ∈ httpSchemes := by decide
  have hplain := isPlainHost_of_isValidHostname h.valid
  have hname := endsInNumber_of_letter h.letter
  have htrim : Text.trim host = host := by
    rw [Text.trim, Text.trimChars_eq_self (isWhitespace_of_isPlainHost hplain), String.ofList_toList]
  have hne : host ≠ "" := fun h0 => hplain.1 (by simp [h0])
  obtain ⟨error, hurl⟩ := parseUrl_of_isPlainHost hK.toParsesUrls hplain
  obtain ⟨requestUrl, hrequest, hpath⟩ := hK.name hhttps hplain hname h.lower
    fun label hlabel => ⟨labels_ne_nil h.valid label hlabel, h.decoded label hlabel⟩
  have hreading := NormalizesTo.hostname hurl (fromStr_of_letter hplain hname) h.valid hrequest
  refine ⟨_, normalizeSourceAddress_ok_iff.mpr ⟨by rwa [htrim], htrim.symm ▸ hreading⟩, ?_, ?_, ?_⟩
  · exact scheme_of_spliced hK.toParsesUrls hhttps (forall_isHostPortChar_of_isPlainHost hplain)
      hrequest
  · rw [hK.domain hhttps hplain hname hrequest, h.lower]
  · rw [hpath]
    rfl

/-- A slash is no character of a scheme, an address or a name. -/
theorem normalizeSourceAddress_slash (hK : K.ParsesUrls) (hplain : IsPlainHost host.toList)
    {path : String} (hpath : path.toList.head? = some '/') :
    ∃ error, normalizeSourceAddress K (host ++ path) = .error error := by
  obtain ⟨rest, hrest⟩ : ∃ rest, (host ++ path).toList = host.toList ++ '/' :: rest := by
    cases htext : path.toList with
    | nil => simp [htext] at hpath
    | cons c rest =>
      rw [htext, List.head?_cons, Option.some.injEq] at hpath
      exact ⟨rest, by rw [String.toList_append, htext, hpath]⟩
  have htrim : (Text.trim (host ++ path)).toList =
      host.toList ++ '/' :: rest.rdropWhile Text.isWhitespace := by
    rw [Text.trim, String.toList_ofList, hrest]
    exact Text.rdropWhile_dropWhile_append_cons (isWhitespace_of_isPlainHost hplain) (by decide) rest
  have hmem : '/' ∈ (Text.trim (host ++ path)).toList := by simp [htrim]
  have hhost {c : Char} (hc : c ∈ host.toList) : isHostPortChar c :=
    isHostPortChar_of_isHostChar (hplain.2 c hc)
  have hrelative : splitScheme (clean (Text.trim (host ++ path)).toList) = none := by
    obtain ⟨ds, hclean⟩ := clean_append_cons
      (fun c hc => isC0OrSpace_of_isHostPortChar (hhost hc)) (by decide : isC0OrSpace '/' = false)
      (rest.rdropWhile Text.isWhitespace)
    rw [htrim, hclean]
    refine splitScheme_append_cons (fun hc => ?_) (by decide) (by decide) ds
    exact absurd (hplain.2 ':' hc) (by decide)
  cases hresult : normalizeSourceAddress K (host ++ path) with
  | error error => exact ⟨error, rfl⟩
  | ok normalized =>
    exfalso
    obtain ⟨-, hreading⟩ := normalizeSourceAddress_ok_iff.mp hresult
    cases hreading with
    | url hurl hscheme =>
      obtain ⟨error, herror⟩ := hK.relative hrelative
      rw [hurl] at herror
      cases herror
    | ip hurl hip hrequest =>
      exact absurd (forall_isHostPortChar_of_fromStr hip '/' hmem) (by decide)
    | hostname hurl hip hname hrequest =>
      exact absurd ((isPlainHost_of_isValidHostname hname).2 '/' hmem) (by decide)

end Hostnames

section Routes
variable {K : Crates} {host path : String}

theorem honoursDirectly_iff (hK : K.ParsesNames) (hhost : IsDnsName host) (hpath : IsPath path) :
    HonoursDirectly K host path ↔ path = "" := by
  constructor
  · rintro ⟨normalized, hok, -⟩
    refine hpath.resolve_right fun hslash => ?_
    obtain ⟨error, herror⟩ := normalizeSourceAddress_slash hK.toParsesUrls
      (isPlainHost_of_isValidHostname hhost.valid) hslash
    rw [hok] at herror
    cases herror
  · rintro rfl
    rw [HonoursDirectly, String.append_empty]
    exact normalizeSourceAddress_name hK hhost

/-- A captured text goes the way of a configured one. -/
theorem honoursBehindPointer_iff {applied : Apply} {w : World Calls Choice Cluster}
    {base : NormalizedRemoteAddress} {regex : K.Regex} {bytes : List UInt8}
    {captures : ℕ → Option String} (hanswer : (w.choices 0).http.Delivers bytes)
    (hcaptures : K.captures regex (K.decodeText bytes) = some captures)
    (hgroup : captures 1 = some (host ++ path)) :
    HonoursBehindPointer K applied w base regex host path ↔ HonoursDirectly K host path := by
  have hresolve (final : NormalizedRemoteAddress) :
      resolvePointer K regex (K.decodeText bytes) = .ok final ↔
        normalizeSourceAddress K (host ++ path) = .ok final := by
    rw [resolvePointer_ok_iff]
    constructor
    · rintro ⟨captures', group, hcaptures', hgroup', h⟩
      cases hcaptures.symm.trans hcaptures'
      cases hgroup.symm.trans hgroup'
      rwa [normalizeSourceAddress_trim] at h
    · intro h
      exact ⟨captures, _, hcaptures, hgroup, by rwa [normalizeSourceAddress_trim]⟩
  unfold HonoursBehindPointer
  rw [run_resolveFinalSource hanswer]
  constructor
  · rintro ⟨source, w', hrun, htargets⟩
    cases hfinal : resolvePointer K regex (K.decodeText bytes) with
    | error error =>
      rw [hfinal] at hrun
      cases hrun
    | ok final =>
      rw [hfinal] at hrun
      cases hrun
      exact ⟨final, (hresolve final).mp hfinal, htargets⟩
  · rintro ⟨final, hok, htargets⟩
    rw [(hresolve final).mpr hok]
    exact ⟨_, _, rfl, htargets⟩

/-- A name without a scheme is honoured on either route exactly if no path follows it. -/
theorem honoursPath_iff (hK : K.ParsesNames) (hhost : IsDnsName host) (hpath : IsPath path) :
    (HonoursDirectly K host path ↔ path = "") ∧
    ∀ (applied : Apply) (w : World Calls Choice Cluster) (base : NormalizedRemoteAddress)
      (regex : K.Regex) (bytes : List UInt8) (captures : ℕ → Option String),
      (w.choices 0).http.Delivers bytes → K.captures regex (K.decodeText bytes) = some captures →
      captures 1 = some (host ++ path) →
        (HonoursBehindPointer K applied w base regex host path ↔ path = "") := by
  refine ⟨honoursDirectly_iff hK hhost hpath, ?_⟩
  intro applied w base regex bytes captures hanswer hcaptures hgroup
  rw [honoursBehindPointer_iff hanswer hcaptures hgroup]
  exact honoursDirectly_iff hK hhost hpath

end Routes

namespace Sample

theorem parsesNames : urlCrates.ParsesNames where
  toParsesUrls := parsesUrls
  name {scheme host} hscheme hplain hname _ _ := by
    have hhost : urlHost host.toList =
        some (.domain (String.ofList (host.toList.map Char.toLower))) := by
      simp [urlHost, hname]
    obtain ⟨url, hurl, -, hpath⟩ := httpUrl_spliced hplain hhost
    exact ⟨url, (parseUrl_spliced hscheme hplain).trans hurl, hpath⟩

theorem isDnsName : IsDnsName "cdn.example.invalid" where
  valid := by decide
  lower := by decide
  letter := by decide
  decoded := by decide

end Sample

theorem honoursPath_iff_name : HonoursDirectly Sample.urlCrates "cdn.example.invalid" "" :=
  (honoursPath_iff Sample.parsesNames Sample.isDnsName (Or.inl rfl)).1.mpr rfl

/-- The address of the pointer example is not taken for a URL, an IP address or a name. -/
theorem name_with_path_not_honoured : IsDnsName "cdn.example.invalid" ∧ IsPath "/allowlist.json" ∧
    ¬ HonoursDirectly Sample.urlCrates "cdn.example.invalid" "/allowlist.json" := by
  refine ⟨Sample.isDnsName, Or.inr (by decide), ?_⟩
  rintro ⟨normalized, hok, -⟩
  have herror : normalizeSourceAddress Sample.urlCrates ("cdn.example.invalid" ++ "/allowlist.json") =
      .error (.invalidAddress "cdn.example.invalid/allowlist.json") := by decide
  rw [herror] at hok
  cases hok

end Ipmaze
