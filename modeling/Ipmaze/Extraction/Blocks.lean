import Ipmaze.Data.IpBlock
import Ipmaze.Extraction.Exact
import Ipmaze.Rendering.Access

/-! Whether the extracted list has every block of addresses once. It tells networks apart by
their texts, which keep the host bits. -/
namespace Ipmaze

/-- Distinct elements of a list denote different sets of addresses. -/
def BlocksDistinct (K : Crates) (cidrs : List NormalizedCidr) : Prop :=
  ∀ cidr ∈ cidrs, ∀ cidr' ∈ cidrs, cidr ≠ cidr' →
    {ip | TextContains K cidr.rendered ip} ≠ {ip | TextContains K cidr'.rendered ip}

variable {K : Crates}

theorem textContains_iff {text : String} {net : IpNet} (h : K.parseNet text = some net)
    (ip : IpAddr) : TextContains K text ip ↔ net.Contains ip := by
  simp [TextContains, h]

theorem setOf_textContains_eq_iff {text text' : String} {net net' : IpNet}
    (h : K.parseNet text = some net) (h' : K.parseNet text' = some net') :
    {ip | TextContains K text ip} = {ip | TextContains K text' ip} ↔ net.SameBlock net' := by
  rw [Set.ext_iff, ← IpNet.contains_congr_iff]
  simp only [Set.mem_ofPred_eq, textContains_iff h, textContains_iff h']

variable {expression : K.Expression} {payload : K.Value} {result : K.Variable}
variable {cidrs : List NormalizedCidr}

/-- The list has every block once exactly if no two of the networks that the query result names
differ in host bits only. -/
theorem extractCidrs_blocksDistinct_iff
    (hprint : ∀ net, K.parseNet (K.printNet net) = some net)
    (hresult : evaluateQuery K expression payload = .ok result)
    (hok : extractCidrs K expression payload = .ok cidrs) :
    BlocksDistinct K cidrs ↔ ∀ net net', K.Names result net → K.Names result net' →
      net.SameBlock net' → net = net' := by
  have hmem := mem_cidrs_iff hprint hresult hok
  have hsame (net net' : IpNet) :
      {ip | TextContains K (NormalizedCidr.ofNet K net).rendered ip} =
          {ip | TextContains K (NormalizedCidr.ofNet K net').rendered ip} ↔
        net.SameBlock net' :=
    setOf_textContains_eq_iff (hprint net) (hprint net')
  constructor
  · intro h net net' hnet hnet' hblock
    by_contra hne
    refine h _ ((hmem _).mpr ⟨net, hnet, rfl⟩) _ ((hmem _).mpr ⟨net', hnet', rfl⟩) ?_
      ((hsame net net').mpr hblock)
    intro heq
    exact hne (ofNet_injective hprint (congrArg NormalizedCidr.rendered heq))
  · intro h cidr hc cidr' hc' hne heq
    obtain ⟨net, hnet, rfl⟩ := (hmem cidr).mp hc
    obtain ⟨net', hnet', rfl⟩ := (hmem cidr').mp hc'
    exact hne (by rw [h net net' hnet hnet' ((hsame net net').mp heq)])

theorem extractCidrs_blocksDistinct_iff_repeated :
    BlocksDistinct (Sample.listing ["10.0.0.0/24", "10.0.0.0/24"]) [⟨"10.0.0.0/24", .v4⟩] := by
  have hok : extractCidrs (Sample.listing ["10.0.0.0/24", "10.0.0.0/24"]) "prefixes"
      (Sample.listed ["10.0.0.0/24", "10.0.0.0/24"]) = .ok [⟨"10.0.0.0/24", .v4⟩] := by
    decide +kernel
  refine (extractCidrs_blocksDistinct_iff (Sample.parseNet_listing _)
    (Sample.evaluateQuery_listing _) hok).mpr ?_
  rintro net net' ⟨values, hvalues, value, hv, text, htext, hnet⟩
    ⟨values', hvalues', value', hv', text', htext', hnet'⟩ -
  cases hvalues
  cases hvalues'
  have hone (v : Sample.Json) (h : v ∈ [Sample.Json.string "10.0.0.0/24", .string "10.0.0.0/24"]) :
      v = .string "10.0.0.0/24" := by simpa using h
  cases hone value hv
  cases hone value' hv'
  cases htext.symm.trans htext'
  exact Option.some.inj (hnet.symm.trans hnet')

/-- Both texts of one block are kept. -/
theorem extractCidrs_not_blocksDistinct :
    extractCidrs (Sample.listing ["10.0.0.0/24", "10.0.0.1/24"]) "prefixes"
        (Sample.listed ["10.0.0.0/24", "10.0.0.1/24"]) =
          .ok [⟨"10.0.0.0/24", .v4⟩, ⟨"10.0.0.1/24", .v4⟩] ∧
      ¬ BlocksDistinct (Sample.listing ["10.0.0.0/24", "10.0.0.1/24"])
        [⟨"10.0.0.0/24", .v4⟩, ⟨"10.0.0.1/24", .v4⟩] := by
  refine ⟨by decide +kernel, fun h => ?_⟩
  refine h ⟨"10.0.0.0/24", .v4⟩ (by simp) ⟨"10.0.0.1/24", .v4⟩ (by simp) (by decide) ?_
  have hnet : IpNet.fromStr "10.0.0.0/24" = some (.v4 0x0A000000#32 24) := by decide +kernel
  have hnet' : IpNet.fromStr "10.0.0.1/24" = some (.v4 0x0A000001#32 24) := by decide +kernel
  have hblock : (IpNet.v4 0x0A000000#32 24).SameBlock (.v4 0x0A000001#32 24) := ⟨rfl, rfl⟩
  exact (setOf_textContains_eq_iff hnet hnet').mpr hblock

end Ipmaze
