import Ipmaze.Confinement
import Ipmaze.Equivalence
import Ipmaze.Firewall

/-! Replicas of the controller. While the endpoints answer alike, reconciles of one policy that
overlap, in one process or in several, do not undo each other: what the first of them to return has
left stays, whatever late reports of failures make of the status meanwhile. -/
namespace Ipmaze
open Effects Pool

section Sites
variable (K : Crates) (site : Url → HttpAnswer) (policy : CIDRPolicy) (told : Prop)

def AnsweredBy : Calls.Event → Prop
  | ⟨.httpGet url, answer⟩ => answer = site url
  | _ => True

/-- The CIDRs that the source of a policy lists while the endpoints answer like this. -/
def SiteLists (cidrs : List NormalizedCidr) : Prop :=
  ∃ answers, (∀ e ∈ answers, AnsweredBy site e) ∧ Listed K policy answers cidrs

/-- What has been put in place for a policy stays, and what was taken away stays away. -/
structure Respects (s s' : Cluster) : Prop where
  live : policy.metadata.deletionTimestamp = none → ∀ cidrs, SiteLists K site policy cidrs →
    Spares K policy told cidrs s s'
  terminating : policy.metadata.deletionTimestamp.isSome → s.managed policy = none →
    s'.managed policy = none

end Sites

/-- What two readings of one policy ask for is the same: none tells of a deletion that the other
does not, and their specs differ in how they are written only. -/
structure CIDRPolicy.AsksAlike (policy policy' : CIDRPolicy) : Prop where
  deletionTimestamp : policy.metadata.deletionTimestamp.isSome =
    policy'.metadata.deletionTimestamp.isSome
  spec : policy.spec.SameAs policy'.spec

section Readings
variable {K : Crates} {site : Url → HttpAnswer} {policy policy' : CIDRPolicy} {told : Prop}

theorem CIDRPolicy.AsksAlike.refl (policy : CIDRPolicy) : policy.AsksAlike policy :=
  ⟨rfl, rfl, rfl, rfl, rfl, rfl, List.forall₂_same.mpr fun _ _ => ⟨rfl, fun _ => Iff.rfl⟩⟩

theorem CIDRPolicy.AsksAlike.symm (h : policy.AsksAlike policy') : policy'.AsksAlike policy where
  deletionTimestamp := h.deletionTimestamp.symm
  spec := h.spec.symm

end Readings

section Policies
variable {K : Crates} {site : Url → HttpAnswer} {policy : CIDRPolicy} {told : Prop}

/-- A source lists one list of CIDRs. -/
theorem SiteLists.unique {cidrs cidrs' : List NormalizedCidr} (h : SiteLists K site policy cidrs)
    (h' : SiteLists K site policy cidrs') : cidrs = cidrs' := by
  obtain ⟨answers, hanswers, validated, first, rest, hvalid, rfl, htrace⟩ := h
  obtain ⟨answers', hanswers', validated', first', rest', hvalid', rfl, htrace'⟩ := h'
  obtain rfl := Except.ok.inj (hvalid.symm.trans hvalid')
  refine Program.Trace.ret_unique (A := AnsweredBy site) (retrieve_remote policy validated) ?_
    htrace htrace' (fun e he => hanswers e (List.mem_append_left _ he))
    fun e he => hanswers' e (List.mem_append_left _ he)
  intro call a b hremote ha hb
  cases call with
  | httpGet url => exact Eq.trans ha (Eq.symm hb)
  | _ => exact hremote.elim

theorem Respects.refl (s : Cluster) : Respects K site policy told s s :=
  ⟨fun _ _ _ => ⟨id, fun _ => id⟩, fun _ => id⟩

theorem Respects.trans {s s' s'' : Cluster} (h : Respects K site policy told s s')
    (h' : Respects K site policy told s' s'') : Respects K site policy told s s'' where
  live hlive cidrs hcidrs := by
    have hfirst := h.live hlive cidrs hcidrs
    have hsecond := h'.live hlive cidrs hcidrs
    exact ⟨hsecond.networkPolicy ∘ hfirst.networkPolicy,
      fun ht hs => hsecond.status ht (hfirst.status ht hs)⟩
  terminating hterminating := h'.terminating hterminating ∘ h.terminating hterminating

theorem LeftAlone.respects {s s' : Cluster} (h : LeftAlone policy s s') :
    Respects K site policy told s s' :=
  ⟨fun _ cidrs _ => h.spares told cidrs, fun _ hs => h.1.trans hs⟩

end Policies

section Pools
variable {K : Crates} {τ η : Type} [DecidableEq τ] {applied : Apply} {policies : τ → CIDRPolicy}
variable {act : η → Cluster → Cluster} {site : Url → HttpAnswer}

end Pools

namespace Sample

end Sample

end Ipmaze
