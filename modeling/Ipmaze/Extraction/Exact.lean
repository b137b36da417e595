import Ipmaze.Data.IpText
import Ipmaze.Extraction.Elements
import Ipmaze.Sample

/-! Extraction returns each network the query result names exactly once, and nothing else. -/
namespace Ipmaze
open Checked BTreeSet

namespace Crates
variable (K : Crates)

/-- An element of a query result is the text of a network. -/
def Reads (value : K.Variable) (net : IpNet) : Prop :=
  ∃ text, K.asString value = some text ∧ K.parseNet text = some net

/-- A query result is an array of texts of networks. -/
def Readable (result : K.Variable) : Prop :=
  ∃ values, K.asArray result = some values ∧ ∀ value ∈ values, ∃ net, K.Reads value net

/-- A query result is an array with the text of a network among its elements. -/
def Names (result : K.Variable) (net : IpNet) : Prop :=
  ∃ values, K.asArray result = some values ∧ ∃ value ∈ values, K.Reads value net

/-- A query result is an array of these texts. -/
def ListsTexts (result : K.Variable) (texts : List String) : Prop :=
  ∃ values, K.asArray result = some values ∧ values.map K.asString = texts.map some

end Crates

variable {K : Crates}

theorem readNet_ok_iff {value : K.Variable} {net : IpNet} :
    readNet K value = .ok net ↔ K.Reads value net := by
  unfold readNet Crates.Reads
  cases K.asString value with
  | none => simp
  | some text => cases hp : K.parseNet text <;> simp [hp]

theorem readArray_ok_iff {result : K.Variable} {values : List K.Variable} :
    readArray K result = .ok values ↔ K.asArray result = some values := by
  unfold readArray
  cases K.asArray result <;> simp

theorem rendered_monotone : Monotone NormalizedCidr.rendered := by
  intro a b h
  have hkey : toLex (a.rendered, a.family) ≤ toLex (b.rendered, b.family) := h
  rcases Prod.Lex.toLex_le_toLex.mp hkey with hlt | ⟨heq, -⟩
  · exact hlt.le
  · exact heq.le

section Results
variable {expression : K.Expression} {payload : K.Value} {result : K.Variable}

theorem extractCidrs_ok_iff (hresult : evaluateQuery K expression payload = .ok result)
    {cidrs : List NormalizedCidr} :
    extractCidrs K expression payload = .ok cidrs ↔ ∃ values nets,
      K.asArray result = some values ∧ values.mapM (readNet K) = .ok nets ∧
        cidrs = normalizeNets K nets := by
  rw [extractCidrs_eq, bind_ok_iff]
  constructor
  · rintro ⟨result', hresult', h⟩
    cases hresult.symm.trans hresult'
    obtain ⟨values, hvalues, h⟩ := bind_ok_iff.mp h
    obtain ⟨nets, hnets, h⟩ := bind_ok_iff.mp h
    cases h
    exact ⟨values, nets, readArray_ok_iff.mp hvalues, hnets, rfl⟩
  · rintro ⟨values, nets, hvalues, hnets, rfl⟩
    refine ⟨result, hresult, bind_ok_iff.mpr ⟨values, readArray_ok_iff.mpr hvalues, ?_⟩⟩
    exact bind_ok_iff.mpr ⟨nets, hnets, rfl⟩

theorem exists_extractCidrs_ok_iff (hresult : evaluateQuery K expression payload = .ok result) :
    (∃ cidrs, extractCidrs K expression payload = .ok cidrs) ↔ K.Readable result := by
  simp only [extractCidrs_ok_iff hresult]
  constructor
  · rintro ⟨_, values, nets, hvalues, hnets, -⟩
    refine ⟨values, hvalues, fun value hv => ?_⟩
    obtain ⟨net, hnet⟩ := exists_mapM_ok_iff.mp ⟨nets, hnets⟩ value hv
    exact ⟨net, readNet_ok_iff.mp hnet⟩
  · rintro ⟨values, hvalues, hread⟩
    have hvalue : ∀ value ∈ values, ∃ net, readNet K value = .ok net :=
      fun value hv => (hread value hv).imp fun _ => readNet_ok_iff.mpr
    obtain ⟨nets, hnets⟩ := exists_mapM_ok_iff.mpr hvalue
    exact ⟨_, values, nets, hvalues, hnets, rfl⟩

theorem mem_nets_iff {values : List K.Variable} {nets : List IpNet}
    (hvalues : K.asArray result = some values) (hnets : values.mapM (readNet K) = .ok nets)
    (net : IpNet) : net ∈ nets ↔ K.Names result net := by
  rw [mem_mapM_ok_iff hnets]
  constructor
  · rintro ⟨value, hv, hread⟩
    exact ⟨values, hvalues, value, hv, readNet_ok_iff.mp hread⟩
  · rintro ⟨values', hvalues', value, hv, hread⟩
    cases hvalues.symm.trans hvalues'
    exact ⟨value, hv, readNet_ok_iff.mpr hread⟩

variable {cidrs : List NormalizedCidr}

theorem exists_names_of_mem (hresult : evaluateQuery K expression payload = .ok result)
    (hok : extractCidrs K expression payload = .ok cidrs) {cidr : NormalizedCidr}
    (hc : cidr ∈ cidrs) : ∃ net, K.Names result net ∧ NormalizedCidr.ofNet K net = cidr := by
  obtain ⟨values, nets, hvalues, hnets, rfl⟩ := (extractCidrs_ok_iff hresult).mp hok
  obtain ⟨net, hnet, hcidr⟩ := List.mem_map.mp (mem_of_mem_sortDistinct hc)
  exact ⟨net, (mem_nets_iff hvalues hnets net).mp hnet, hcidr⟩

/-- The texts returned are those that the networks named print as. -/
theorem mem_rendered_iff (hresult : evaluateQuery K expression payload = .ok result)
    (hok : extractCidrs K expression payload = .ok cidrs) (text : String) :
    text ∈ cidrs.map NormalizedCidr.rendered ↔
      ∃ net, K.Names result net ∧ K.printNet net = text := by
  rw [List.mem_map]
  constructor
  · rintro ⟨cidr, hc, rfl⟩
    obtain ⟨net, hnet, rfl⟩ := exists_names_of_mem hresult hok hc
    exact ⟨net, hnet, rfl⟩
  · rintro ⟨net, hnet, rfl⟩
    obtain ⟨values, nets, hvalues, hnets, rfl⟩ := (extractCidrs_ok_iff hresult).mp hok
    have hmem := (mem_nets_iff hvalues hnets net).mpr hnet
    exact exists_mem_sortDistinct (List.mem_map_of_mem hmem)

theorem rendered_nodup (hresult : evaluateQuery K expression payload = .ok result)
    (hok : extractCidrs K expression payload = .ok cidrs) :
    (cidrs.map NormalizedCidr.rendered).Nodup := by
  obtain ⟨values, nets, hvalues, hnets, rfl⟩ := (extractCidrs_ok_iff hresult).mp hok
  exact List.pairwise_map.mpr ((sortDistinct_pairwise rendered_monotone _).imp ne_of_lt)

end Results

section Printed
variable (hprint : ∀ net, K.parseNet (K.printNet net) = some net)
include hprint

/-- Networks are told apart by the texts they print as. -/
theorem ofNet_injective {a b : IpNet}
    (h : (NormalizedCidr.ofNet K a).rendered = (NormalizedCidr.ofNet K b).rendered) : a = b := by
  have ha := hprint a
  simp only [NormalizedCidr.ofNet_rendered] at h
  rw [h, hprint b] at ha
  exact (Option.some.inj ha).symm

theorem mem_normalizeNets_iff (nets : List IpNet) (cidr : NormalizedCidr) :
    cidr ∈ normalizeNets K nets ↔ ∃ net ∈ nets, NormalizedCidr.ofNet K net = cidr := by
  rw [normalizeNets, mem_sortDistinct, List.mem_map]
  intro a ha b hb h
  obtain ⟨x, -, rfl⟩ := List.mem_map.mp ha
  obtain ⟨y, -, rfl⟩ := List.mem_map.mp hb
  rw [ofNet_injective hprint h]

/-- The normalised list depends on the set of networks only. -/
theorem normalizeNets_congr {nets nets' : List IpNet} (h : ∀ net, net ∈ nets ↔ net ∈ nets') :
    normalizeNets K nets = normalizeNets K nets' := by
  apply sortDistinct_eq rendered_monotone
  · intro a ha b hb hab
    obtain ⟨x, -, rfl⟩ := List.mem_map.mp ha
    obtain ⟨y, -, rfl⟩ := List.mem_map.mp hb
    rw [ofNet_injective hprint hab]
  · intro cidr
    simp only [List.mem_map, h]

variable {expression : K.Expression} {payload : K.Value} {result : K.Variable}
variable {cidrs : List NormalizedCidr}

theorem mem_cidrs_iff (hresult : evaluateQuery K expression payload = .ok result)
    (hok : extractCidrs K expression payload = .ok cidrs) (cidr : NormalizedCidr) :
    cidr ∈ cidrs ↔ ∃ net, K.Names result net ∧ NormalizedCidr.ofNet K net = cidr := by
  obtain ⟨values, nets, hvalues, hnets, rfl⟩ := (extractCidrs_ok_iff hresult).mp hok
  simp only [mem_normalizeNets_iff hprint, mem_nets_iff hvalues hnets]

/-- Two query results that name the same networks give the same list. -/
theorem extractCidrs_congr {expression' : K.Expression} {payload' : K.Value}
    {result' : K.Variable} (hresult : evaluateQuery K expression payload = .ok result)
    (hok : extractCidrs K expression payload = .ok cidrs)
    (hresult' : evaluateQuery K expression' payload' = .ok result')
    (hreadable : K.Readable result') (h : ∀ net, K.Names result' net ↔ K.Names result net) :
    extractCidrs K expression' payload' = .ok cidrs := by
  obtain ⟨values, nets, hvalues, hnets, rfl⟩ := (extractCidrs_ok_iff hresult).mp hok
  obtain ⟨cidrs', hok'⟩ := (exists_extractCidrs_ok_iff hresult').mpr hreadable
  obtain ⟨values', nets', hvalues', hnets', rfl⟩ := (extractCidrs_ok_iff hresult').mp hok'
  rw [hok']
  refine congrArg Except.ok (normalizeNets_congr hprint fun net => ?_)
  rw [mem_nets_iff hvalues' hnets', mem_nets_iff hvalues hnets, h]

/-- The list returned names the same networks as the query result it came from. -/
theorem names_of_listsTexts (hresult : evaluateQuery K expression payload = .ok result)
    (hok : extractCidrs K expression payload = .ok cidrs) {result' : K.Variable}
    (hlists : K.ListsTexts result' (cidrs.map NormalizedCidr.rendered)) :
    K.Readable result' ∧ ∀ net, K.Names result' net ↔ K.Names result net := by
  obtain ⟨values, hvalues, htexts⟩ := hlists
  have hstring (text : String) : (∃ value ∈ values, K.asString value = some text) ↔
      ∃ net, K.Names result net ∧ K.printNet net = text := by
    have hmem : some text ∈ values.map K.asString ↔
        some text ∈ (cidrs.map NormalizedCidr.rendered).map some := by rw [htexts]
    rw [List.mem_map, List.mem_map_of_injective (Option.some_injective _),
      mem_rendered_iff hresult hok] at hmem
    exact hmem
  refine ⟨⟨values, hvalues, fun value hv => ?_⟩, fun net => ?_⟩
  · have hmem : K.asString value ∈ values.map K.asString := List.mem_map_of_mem hv
    rw [htexts] at hmem
    obtain ⟨text, -, htext⟩ := List.mem_map.mp hmem
    obtain ⟨net, -, hnet⟩ := (hstring text).mp ⟨value, hv, htext.symm⟩
    exact ⟨net, text, htext.symm, hnet ▸ hprint net⟩
  · constructor
    · rintro ⟨values', hvalues', value, hv, text, htext, hparse⟩
      cases hvalues.symm.trans hvalues'
      obtain ⟨net', hnet', rfl⟩ := (hstring text).mp ⟨value, hv, htext⟩
      rw [hprint] at hparse
      rwa [← Option.some.inj hparse]
    · intro hnet
      obtain ⟨value, hv, htext⟩ := (hstring (K.printNet net)).mpr ⟨net, hnet, rfl⟩
      exact ⟨values, hvalues, value, hv, _, htext, hprint net⟩

/-- Extraction succeeds exactly on arrays of texts of networks. What it returns is strictly
increasing and has exactly the networks named, so it depends on the set of these networks only,
and extracting what was returned returns it again. -/
theorem extractCidrs_exact (hresult : evaluateQuery K expression payload = .ok result) :
    ((∃ cidrs, extractCidrs K expression payload = .ok cidrs) ↔ K.Readable result) ∧
    ∀ cidrs, extractCidrs K expression payload = .ok cidrs →
      cidrs.Pairwise (fun a b => a.rendered < b.rendered) ∧
      (∀ net, (∃ cidr ∈ cidrs, K.parseNet cidr.rendered = some net) ↔ K.Names result net) ∧
      (∀ cidr ∈ cidrs, ∃ net, K.Names result net ∧ cidr = NormalizedCidr.ofNet K net) ∧
      (∀ expression' payload' result', evaluateQuery K expression' payload' = .ok result' →
        K.Readable result' → (∀ net, K.Names result' net ↔ K.Names result net) →
          extractCidrs K expression' payload' = .ok cidrs) ∧
      ∀ expression' payload' result', evaluateQuery K expression' payload' = .ok result' →
        K.ListsTexts result' (cidrs.map NormalizedCidr.rendered) →
          extractCidrs K expression' payload' = .ok cidrs := by
  refine ⟨exists_extractCidrs_ok_iff hresult, fun cidrs hok => ?_⟩
  have hmem := mem_cidrs_iff hprint hresult hok
  refine ⟨?_, ?_, ?_, ?_, ?_⟩
  · obtain ⟨values, nets, hvalues, hnets, rfl⟩ := (extractCidrs_ok_iff hresult).mp hok
    exact sortDistinct_pairwise rendered_monotone _
  · intro net
    constructor
    · rintro ⟨cidr, hc, hparse⟩
      obtain ⟨net', hnet', rfl⟩ := (hmem cidr).mp hc
      rw [NormalizedCidr.ofNet_rendered, hprint] at hparse
      rwa [← Option.some.inj hparse]
    · exact fun hnet => ⟨_, (hmem _).mpr ⟨net, hnet, rfl⟩, hprint net⟩
  · intro cidr hc
    obtain ⟨net, hnet, rfl⟩ := (hmem cidr).mp hc
    exact ⟨net, hnet, rfl⟩
  · intro expression' payload' result' hresult' hreadable h
    exact extractCidrs_congr hprint hresult hok hresult' hreadable h
  · intro expression' payload' result' hresult' hlists
    obtain ⟨hreadable, h⟩ := names_of_listsTexts hprint hresult hok hlists
    exact extractCidrs_congr hprint hresult hok hresult' hreadable h

end Printed

namespace Sample

/-- A payload that lists these prefixes. -/
def listed (prefixes : List String) : Json :=
  .object [("prefixes", .array (prefixes.map .string))]

/-- Crates that know the text of this payload, and networks that print as they are written. -/
def listing (prefixes : List String) : Crates :=
  { crates with
    variableFromJson text :=
      if text = (listed prefixes).text then .ok (listed prefixes)
      else .error "expected value at line 1 column 1"
    parseNet := IpNet.fromStr
    printNet := IpNet.toText }

theorem evaluateQuery_listing (prefixes : List String) :
    evaluateQuery (listing prefixes) "prefixes" (listed prefixes) =
      .ok (.array (prefixes.map .string)) := by
  have hread : (listing prefixes).variableFromJson (listed prefixes).text = .ok (listed prefixes) :=
    if_pos rfl
  change (((listing prefixes).variableFromJson (listed prefixes).text).mapError _ >>= _) = _
  rw [hread]
  rfl

theorem parseNet_listing (prefixes : List String) (net : IpNet) :
    (listing prefixes).parseNet ((listing prefixes).printNet net) = some net :=
  IpNet.fromStr_toText net

end Sample

theorem extractCidrs_exact_descending : ∃ cidrs,
    extractCidrs (Sample.listing ["10.0.1.0/24", "10.0.0.0/24"]) "prefixes"
        (Sample.listed ["10.0.1.0/24", "10.0.0.0/24"]) = .ok cidrs ∧
      cidrs.Pairwise fun a b => a.rendered < b.rendered := by
  have h := extractCidrs_exact (Sample.parseNet_listing ["10.0.1.0/24", "10.0.0.0/24"])
    (Sample.evaluateQuery_listing _)
  have hread : ∀ value ∈ [Sample.Json.string "10.0.1.0/24", .string "10.0.0.0/24"],
      ∃ net, (Sample.listing ["10.0.1.0/24", "10.0.0.0/24"]).Reads value net := by
    intro value hv
    rcases List.mem_pair.mp hv with rfl | rfl
    · exact ⟨.v4 0x0A000100#32 24, _, rfl, by decide +kernel⟩
    · exact ⟨.v4 0x0A000000#32 24, _, rfl, by decide +kernel⟩
  obtain ⟨cidrs, hok⟩ := h.1.mpr ⟨_, rfl, hread⟩
  exact ⟨cidrs, hok, (h.2 cidrs hok).1⟩

end Ipmaze
