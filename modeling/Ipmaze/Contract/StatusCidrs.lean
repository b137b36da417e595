import Ipmaze.Contract.PolicySchema
import Ipmaze.Extraction.Exact
import Ipmaze.Reconcile.Answers

/-! Whether the networks in a status are what the schema publishes. Every text is in the pattern of
its family, but the pattern for IPv6 takes dotted quads too. -/
namespace Ipmaze
open Effects PolicySchema

/-- Networks print as a text of their address, a slash and the prefix length in decimal. -/
def Crates.PrintsNets (K : Crates) : Prop :=
  ∀ net, ∃ text, IpAddr.fromStr text = some net.address ∧
    (K.printNet net).toList = text.toList ++ '/' :: Nat.toDigits 10 net.prefixLength

/-- The text matches the pattern of its family and not that of the other one. -/
def NormalizedCidr.InOwnPattern (cidr : NormalizedCidr) : Prop :=
  (Schema.pattern cidrV4Pattern (.string cidr.rendered) ↔ cidr.family = .v4) ∧
    (Schema.pattern cidrV6Pattern (.string cidr.rendered) ↔ cidr.family = .v6)

/-- If the call writes a status, the schema accepts the networks in it. -/
def Call.MeetsSchema : Call → Prop
  | patchStatus _ _ _ status => lastObservedCidrs (texts status.lastObservedCidrs)
  | _ => True

section Patterns
open Regex

theorem octet_toDigits : ∀ n < 256, octet.accepts (Nat.toDigits 10 n) := by decide +kernel
theorem prefixV4_toDigits : ∀ n < 33, prefixV4.accepts (Nat.toDigits 10 n) := by decide +kernel
theorem prefixV6_toDigits : ∀ n < 129, prefixV6.accepts (Nat.toDigits 10 n) := by decide +kernel

theorem dotted_mem_cidrV4Pattern {a b c d length : ℕ} (ha : a < 256) (hb : b < 256)
    (hc : c < 256) (hd : d < 256) (hlength : length < 33) :
    IpAddr.dotted a b c d ++ '/' :: Nat.toDigits 10 length ∈ cidrV4Pattern.language := by
  have hoctet {n : ℕ} (h : n < 256) := accepts_iff.mp (octet_toDigits n h)
  have hdot {n : ℕ} (h : n < 256) :
      '.' :: Nat.toDigits 10 n ∈ (seq (text ".") octet).language := cons_mem_seq_word (hoctet h)
  have hslash : '/' :: Nat.toDigits 10 length ∈ (seq (text "/") prefixV4).language :=
    cons_mem_seq_word (accepts_iff.mp (prefixV4_toDigits length hlength))
  have hone := mem_times_succ.mpr ⟨_, hdot hd, [], mem_times_zero.mpr rfl, rfl⟩
  have htwo := mem_times_succ.mpr ⟨_, hdot hc, _, hone, rfl⟩
  have hthree := mem_times_succ.mpr ⟨_, hdot hb, _, htwo, rfl⟩
  refine mem_seq.mpr ⟨_, hoctet ha, _, mem_seq.mpr ⟨_, hthree, _, hslash, rfl⟩, ?_⟩
  simp [IpAddr.dotted]

theorem isAddressChar_of {c : Char} (h : IpAddr.IsAddressChar c) : isAddressChar c := by
  rcases h with rfl | rfl | hdigit
  · rfl
  · rfl
  · have hranges : (48 ≤ c.toNat ∧ c.toNat ≤ 57) ∨ (65 ≤ c.toNat ∧ c.toNat ≤ 70) ∨
        (97 ≤ c.toNat ∧ c.toNat ≤ 102) := by
      simp only [IpAddr.toDigit, Option.isSome_ite] at hdigit
      split_ifs at hdigit <;> omega
    simp only [isAddressChar, Bool.or_eq_true, Bool.and_eq_true, decide_eq_true_eq, Char.le_def,
      UInt32.le_iff_toNat_le]
    rcases hranges with hdecimal | hupper | hlower
    · exact Or.inl (Or.inl (Or.inl (Or.inl hdecimal)))
    · exact Or.inl (Or.inl (Or.inl (Or.inr hupper)))
    · exact Or.inl (Or.inl (Or.inr hlower))

theorem append_mem_cidrV6Pattern {address : List Char} {length : ℕ} (hne : address ≠ [])
    (hchars : ∀ c ∈ address, IpAddr.IsAddressChar c) (hlength : length < 129) :
    address ++ '/' :: Nat.toDigits 10 length ∈ cidrV6Pattern.language := by
  have haddress : address ∈ (plus (set isAddressChar)).language :=
    mem_plus_set.mpr ⟨hne, fun c hc => isAddressChar_of (hchars c hc)⟩
  have hslash : '/' :: Nat.toDigits 10 length ∈ (seq (text "/") prefixV6).language :=
    cons_mem_seq_word (accepts_iff.mp (prefixV6_toDigits length hlength))
  exact mem_seq.mpr ⟨address, haddress, _, hslash, rfl⟩

theorem colon_notMem_of_cidrV4Pattern {w : List Char} (h : w ∈ cidrV4Pattern.language) :
    ':' ∉ w := by
  intro hcolon
  have huses : cidrV4Pattern.uses ':' = false := by decide
  exact absurd (uses_of_mem h hcolon) (by rw [huses]; exact Bool.false_ne_true)

end Patterns

section Networks
variable {K : Crates} (hprint : K.PrintsNets) (net : IpNet)
include hprint

theorem printNet_mem_cidrV4Pattern_iff : (K.printNet net).toList ∈ cidrV4Pattern.language ↔
    (NormalizedCidr.ofNet K net).family = .v4 := by
  obtain ⟨text, haddress, hprinted⟩ := hprint net
  rw [hprinted]
  cases net with
  | v4 bits length =>
    refine iff_of_true ?_ rfl
    have hlt := bits.isLt
    rw [IpAddr.fromStr_eq_v4_iff.mp haddress]
    exact dotted_mem_cidrV4Pattern (by omega) (by omega) (by omega) (by omega) length.isLt
  | v6 bits length =>
    refine iff_of_false (fun h => ?_) nofun
    have hcolons := (IpAddr.fromStr_v6_text haddress).1
    refine colon_notMem_of_cidrV4Pattern h (List.mem_append_left _ ?_)
    exact List.count_pos_iff.mp (by omega)

/-- The pattern for IPv6 takes the texts of all networks. -/
theorem printNet_mem_cidrV6Pattern : (K.printNet net).toList ∈ cidrV6Pattern.language := by
  obtain ⟨text, haddress, hprinted⟩ := hprint net
  rw [hprinted]
  cases net with
  | v4 bits length =>
    rw [IpAddr.fromStr_eq_v4_iff.mp haddress]
    have hne : IpAddr.v4Text bits ≠ [] := by simp [IpAddr.v4Text, IpAddr.dotted]
    exact append_mem_cidrV6Pattern hne (IpAddr.isAddressChar_dotted _ _ _ _)
      (length.isLt.trans (by omega))
  | v6 bits length =>
    obtain ⟨hcolons, hchars⟩ := IpAddr.fromStr_v6_text haddress
    refine append_mem_cidrV6Pattern ?_ hchars length.isLt
    rintro hempty
    rw [hempty] at hcolons
    cases hcolons

theorem inOwnPattern_iff : (NormalizedCidr.ofNet K net).InOwnPattern ↔
    (NormalizedCidr.ofNet K net).family = .v6 := by
  have hv4 := printNet_mem_cidrV4Pattern_iff hprint net
  have hv6 := printNet_mem_cidrV6Pattern hprint net
  simp only [NormalizedCidr.InOwnPattern, Schema.pattern_string, NormalizedCidr.ofNet_rendered, hv4,
    hv6, true_iff, true_and]

theorem cidr_printNet_iff : cidr (.string (K.printNet net)) ↔
    (NormalizedCidr.ofNet K net).family = .v6 := by
  have hv4 := printNet_mem_cidrV4Pattern_iff hprint net
  have hv6 := printNet_mem_cidrV6Pattern hprint net
  have hfamily (family : IpFamily) : ¬ family = .v4 ↔ family = .v6 := by
    cases family <;> decide
  simp [cidr, hv4, hv6, hfamily]

end Networks

section Written
variable {K : Crates} {expression : K.Expression} {payload : K.Value} {result : K.Variable}
variable {cidrs : List NormalizedCidr} {outcome : ReconcileOutcome} {observed : List String}

theorem patchStatusForOutcome_meetsSchema_iff {ns : String} {policy : CIDRPolicy}
    (houtcome : outcome = .reconciled observed ∨ outcome = .noChange observed) :
    (patchStatusForOutcome K ns policy outcome).Makes Call.MeetsSchema ↔
      lastObservedCidrs (texts observed) := by
  rcases houtcome with rfl | rfl
  all_goals
    constructor
    · exact fun h => (h.2 (0 : ℤ)).1
    · exact fun h => ⟨trivial, fun now => ⟨h, fun answer => Program.makes_ofExcept answer⟩⟩

theorem lastObservedCidrs_texts : lastObservedCidrs (texts observed) ↔
    observed.Nodup ∧ ∀ text ∈ observed, cidr (.string text) := by
  rw [lastObservedCidrs, texts, Schema.allOf_iff, List.forall_mem_cons, List.forall_mem_cons,
    List.forall_mem_singleton, Schema.items_array, List.forall_mem_map,
    Schema.uniqueItems_strings]
  exact ⟨fun h => ⟨h.2.2, h.2.1⟩, fun h => ⟨rfl, h.2, h.1⟩⟩

/-- The list written meets the schema exactly if the query result names no IPv4 network. -/
theorem observed_meets_schema_iff (hprint : K.PrintsNets)
    (hresult : evaluateQuery K expression payload = .ok result)
    (hok : extractCidrs K expression payload = .ok cidrs)
    (houtcome : outcome = .reconciled (cidrs.map NormalizedCidr.rendered) ∨
      outcome = .noChange (cidrs.map NormalizedCidr.rendered))
    (ns : String) (policy : CIDRPolicy) :
    ((patchStatusForOutcome K ns policy outcome).Makes Call.MeetsSchema ∧
        ∀ cidr ∈ cidrs, cidr.InOwnPattern) ↔
      ∀ bits length, ¬ K.Names result (.v4 bits length) := by
  have hmem := mem_rendered_iff hresult hok
  rw [patchStatusForOutcome_meetsSchema_iff houtcome, lastObservedCidrs_texts]
  constructor
  · rintro ⟨⟨-, hall⟩, -⟩ bits length hnet
    have hcidr := hall _ ((hmem _).mpr ⟨.v4 bits length, hnet, rfl⟩)
    cases (cidr_printNet_iff hprint _).mp hcidr
  · intro h
    have hv6 {net : IpNet} (hnet : K.Names result net) :
        (NormalizedCidr.ofNet K net).family = .v6 := by
      cases net with
      | v4 bits length => exact absurd hnet (h bits length)
      | v6 bits length => rfl
    refine ⟨⟨rendered_nodup hresult hok, fun text htext => ?_⟩, fun cidr hc => ?_⟩
    · obtain ⟨net, hnet, rfl⟩ := (hmem text).mp htext
      exact (cidr_printNet_iff hprint net).mpr (hv6 hnet)
    · obtain ⟨net, hnet, rfl⟩ := exists_names_of_mem hresult hok hc
      exact (inOwnPattern_iff hprint net).mpr (hv6 hnet)

end Written

namespace Sample

theorem printsNets (prefixes : List String) : (listing prefixes).PrintsNets := by
  intro net
  exact ⟨net.address.toText, IpAddr.fromStr_toText _, String.toList_ofList⟩

def v6Prefixes : List String := ["2001:db8:1:2:3:4:5:6/128", "2001:db8:1:2:3:4:5:6/64"]

end Sample

open Sample in
theorem observed_meets_schema_iff_v6 :
    (patchStatusForOutcome (listing v6Prefixes) "payments" Sample.policy
        (.reconciled ["2001:db8:1:2:3:4:5:6/128", "2001:db8:1:2:3:4:5:6/64"])).Makes
      Call.MeetsSchema := by
  have hok : extractCidrs (listing v6Prefixes) "prefixes" (listed v6Prefixes) = .ok
      [⟨"2001:db8:1:2:3:4:5:6/128", .v6⟩, ⟨"2001:db8:1:2:3:4:5:6/64", .v6⟩] := by decide +kernel
  refine ((observed_meets_schema_iff (printsNets v6Prefixes) (evaluateQuery_listing _) hok
    (Or.inl rfl) "payments" Sample.policy).mpr ?_).1
  have hhost : IpNet.fromStr "2001:db8:1:2:3:4:5:6/128" =
      some (.v6 0x20010DB8000100020003000400050006#128 128) := by decide +kernel
  have hsubnet : IpNet.fromStr "2001:db8:1:2:3:4:5:6/64" =
      some (.v6 0x20010DB8000100020003000400050006#128 64) := by decide +kernel
  rintro bits length ⟨values, hvalues, value, hv, text, htext, hnet⟩
  cases hvalues
  obtain ⟨text', htext', rfl⟩ := List.mem_map.mp hv
  cases htext
  rcases List.mem_pair.mp htext' with rfl | rfl
  · cases hhost.symm.trans hnet
  · cases hsubnet.symm.trans hnet

open Sample in
/-- The text of an IPv4 network is in both patterns. -/
theorem v4_cidr_breaks_schema : (listing ["10.0.0.0/24"]).PrintsNets ∧
    extractCidrs (listing ["10.0.0.0/24"]) "prefixes" (listed ["10.0.0.0/24"]) =
      .ok [⟨"10.0.0.0/24", .v4⟩] ∧
      ¬ (patchStatusForOutcome (listing ["10.0.0.0/24"]) "payments" Sample.policy
        (.reconciled ["10.0.0.0/24"])).Makes Call.MeetsSchema := by
  refine ⟨printsNets _, by decide +kernel, fun h => ?_⟩
  rw [patchStatusForOutcome_meetsSchema_iff (Or.inl rfl)] at h
  exact absurd h (by decide +kernel)

end Ipmaze
