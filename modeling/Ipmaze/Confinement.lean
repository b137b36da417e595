import Ipmaze.Isolation
import Ipmaze.Reconcile.Confines
import Ipmaze.Reconcile.Round
import Ipmaze.Rendering.Meaning

/-! What the endpoints behind a policy serve bounds what ever gets into its NetworkPolicy and its
status, and so the traffic it admits, whatever else runs beside. -/
namespace Ipmaze
open Effects

section Pools
variable {K : Crates} {endpoints : Url → HttpAnswer → Prop} {applied : Apply}
variable {admissible : Key → NetworkPolicySpec → Prop} {approved : String → Prop}

theorem networkPolicies_confined (hsets : Apply.Sets applied) {s : Cluster} {key : Key}
    (h : ∀ np ∈ s.networkPolicies key, np.Confined admissible key) {call : Call}
    (hcall : call.Confines admissible approved) (choice : Choice) :
    ∀ np ∈ (serve applied choice call s).2.networkPolicies key, np.Confined admissible key := by
  by_cases hwritten : call.writtenNetworkPolicy = some key
  · cases call with
    | patchNetworkPolicy ns name params patch =>
      obtain rfl := Option.some.inj hwritten
      have hspec : (applied (s.networkPolicies (ns, name)) patch).spec = patch.spec :=
        (hsets _ _).spec
      simp only [serve, Delivery.write]
      cases choice.delivery.arrives with
      | false => exact h
      | true =>
        intro np hnp
        rw [if_pos rfl, Cluster.setNetworkPolicy_self] at hnp
        obtain rfl := Option.some.inj hnp
        rw [NetworkPolicy.Confined, hspec]
        exact hcall
    | deleteNetworkPolicy ns name =>
      obtain rfl := Option.some.inj hwritten
      simp only [serve]
      cases hfound : s.networkPolicies (ns, name) with
      | none => exact h
      | some np =>
        simp only [Delivery.write]
        cases choice.delivery.arrives with
        | false => exact h
        | true => simp
    | _ => cases hwritten
  · rw [serve_networkPolicies applied choice call s key hwritten]
    exact h

theorem policies_confined {s : Cluster} {key : Key}
    (h : ∀ stored ∈ s.policies key, stored.Confined approved) {call : Call}
    (hcall : call.Confines admissible approved) (choice : Choice) :
    ∀ stored ∈ (serve applied choice call s).2.policies key, stored.Confined approved := by
  by_cases hwritten : call.writtenStatus = some key
  · cases call with
    | patchStatus ns name params status =>
      obtain rfl := Option.some.inj hwritten
      simp only [serve]
      cases hfound : s.policies (ns, name) with
      | none => exact h
      | some policy =>
        simp only [Delivery.write]
        cases choice.delivery.arrives with
        | false => exact h
        | true =>
          intro stored hstored
          rw [if_pos rfl, Cluster.setPolicy_self] at hstored
          obtain rfl := Option.some.inj hstored
          intro written hstatus
          obtain rfl := Option.some.inj hstatus
          exact hcall
    | _ => cases hwritten
  · rw [serve_policies applied choice call s key hwritten]
    exact h

/-- A write of approved CIDRs leaves every policy confined, whichever it is for. -/
theorem Cluster.Confined.serve (hsets : Apply.Sets applied) {policy : CIDRPolicy} {s : Cluster}
    (h : s.Confined admissible approved policy) {call : Call}
    (hcall : call.Confines admissible approved) (choice : Choice) :
    (Ipmaze.serve applied choice call s).2.Confined admissible approved policy := by
  constructor
  · intro ns hns
    have hmanaged := h.managed ns hns
    rw [Cluster.managed_eq hns] at hmanaged ⊢
    exact networkPolicies_confined hsets hmanaged hcall choice
  · cases hns : policy.metadata.ns with
    | none => simp [Cluster.stored, hns]
    | some ns =>
      have hstored := h.stored
      rw [Cluster.stored_eq hns] at hstored ⊢
      exact policies_confined hstored hcall choice

theorem answer_relied {policy : CIDRPolicy} {s : Cluster}
    (h : s.Confined admissible approved policy)
    {call : Call} (hwithin : call.Within policy) {choice : Choice}
    (hhttp : ∀ url, call = .httpGet url → endpoints url choice.http) :
    Relied approved endpoints call (serve applied choice call s).1 := by
  cases call with
  | httpGet url => exact hhttp url rfl
  | getPolicy ns name =>
    obtain ⟨hns, rfl⟩ := hwithin
    have hstored := h.stored
    rw [Cluster.stored_eq hns] at hstored
    intro found hfound
    simp only [serve] at hfound
    cases hpolicy : s.policies (ns, policy.nameAny) with
    | none =>
      rw [hpolicy] at hfound
      cases hdelivery : choice.delivery <;> simp [hdelivery, Delivery.receive] at hfound
    | some stored =>
      rw [hpolicy] at hfound
      refine hstored found ?_
      cases hdelivery : choice.delivery <;> simp_all [Delivery.receive]
  | _ => trivial

section Runs
variable {τ : Type} [DecidableEq τ] {η : Type} (runs : τ → Run)

/-- Requests are answered as the endpoints may answer them. -/
def Answers (endpoints : Url → HttpAnswer → Prop) (call : Call) (choice : Choice) : Prop :=
  ∀ url, call = .httpGet url → endpoints url choice.http

/-- Runs that only render what is admissible keep their policies confined, however their calls
interleave with one another and with parties that keep them confined as well. -/
theorem runs_confined (hsets : Apply.Sets applied) (act : η → Cluster → Cluster)
    (hact : ∀ a s, (∀ t, s.Confined admissible approved (runs t).policy) →
      ∀ t, (act a s).Confined admissible approved (runs t).policy)
    (hserves : ∀ t, Serves K endpoints (runs t).policy approved)
    (hrenders : ∀ t, Renders admissible approved (runs t).policy) {s : Cluster}
    (hs : ∀ t, s.Confined admissible approved (runs t).policy) {moves : List (Move τ Choice η)}
    (hmoves : Along (Pool.step (api applied) act) (Pool.Admits (Answers endpoints))
      (.start s fun t => (runs t).task K) moves) (t : τ) :
    (Pool.exec (api applied) act (.start s fun t => (runs t).task K) moves).state.Confined
      admissible approved (runs t).policy := by
  let G (call : Call) : Prop :=
    (∃ t, call.Within (runs t).policy) ∧ call.Confines admissible approved
  have hstart : (Pool.start s fun t => (runs t).task K).Sound (Relied approved endpoints) G
      fun s => ∀ t, s.Confined admissible approved (runs t).policy := by
    refine ⟨hs, fun t => ?_⟩
    exact ((runs t).task_reliant (hserves t) (hrenders t)).mono fun call h => ⟨⟨t, h.1⟩, h.2⟩
  have hserve : ∀ choice (call : Call) s, Answers endpoints call choice → G call →
      (∀ t, s.Confined admissible approved (runs t).policy) →
      Relied approved endpoints call (serve applied choice call s).1 ∧
        ∀ t, (serve applied choice call s).2.Confined admissible approved (runs t).policy := by
    rintro choice call s hanswers ⟨⟨t, hwithin⟩, hconfines⟩ hs
    exact ⟨answer_relied (hs t) hwithin hanswers, fun t => (hs t).serve hsets hconfines choice⟩
  exact (hstart.exec hserve hact hmoves).state t

end Runs
end Pools

section Traffic
variable (K : Crates) {τ : Type} (runs : τ → Run) (approved : String → Prop)

/-- The blocks of all peers, in both directions. -/
def NetworkPolicySpec.blocks (spec : NetworkPolicySpec) : List IPBlock :=
  ((spec.ingress.getD []).flatMap (fun rule => rule.fromPeers.getD []) ++
    (spec.egress.getD []).flatMap fun rule => rule.toPeers.getD []).filterMap
      NetworkPolicyPeer.ipBlock

/-- All blocks are approved, and whoever is admitted lies in an approved network or is selected by
a rule of a policy that is managed under this name. -/
structure NetworkPolicySpec.Explained (key : Key) (spec : NetworkPolicySpec) : Prop where
  blocks : ∀ block ∈ spec.blocks, approved block.cidr
  admitted : ∀ direction, ∀ remote ∈ (spec.access K key.1).admitted direction,
    (∃ cidr, approved cidr ∧ TextContains K cidr remote.ip) ∨
      ∃ t, (runs t).policy.metadata.ns = some key.1 ∧
        (runs t).policy.managedNetworkPolicyName = key.2 ∧
        ∃ rule ∈ (runs t).policy.spec.rules, rule.Includes direction ∧ rule.Selects key.1 remote

variable {K runs approved} {cidrs : List NormalizedCidr}

theorem approved_of_mem_peers {rule : RuleSpec} (h : ∀ cidr ∈ cidrs, approved cidr.rendered)
    {peer : NetworkPolicyPeer} {block : IPBlock} (hpeer : peer ∈ rule.peers cidrs)
    (hblock : peer.ipBlock = some block) : approved block.cidr := by
  rcases List.mem_cons.mp hpeer with rfl | hpeer
  · cases hblock
  · obtain ⟨cidr, hcidr, rfl⟩ := List.mem_map.mp hpeer
    obtain rfl := Option.some.inj hblock
    exact h cidr hcidr

theorem approved_of_mem_blocks {spec : CIDRPolicySpec}
    (h : ∀ cidr ∈ cidrs, approved cidr.rendered) {block : IPBlock}
    (hblock : block ∈ (spec.rendered cidrs).blocks) : approved block.cidr := by
  obtain ⟨peer, hpeer, hpeerBlock⟩ := List.mem_filterMap.mp hblock
  rcases List.mem_append.mp hpeer with hpeer | hpeer
  · obtain ⟨ingress, hingress, hpeer⟩ := List.mem_flatMap.mp hpeer
    obtain ⟨rule, -, rfl⟩ := List.mem_map.mp hingress
    exact approved_of_mem_peers h hpeer hpeerBlock
  · obtain ⟨egress, hegress, hpeer⟩ := List.mem_flatMap.mp hpeer
    obtain ⟨rule, -, rfl⟩ := List.mem_map.mp hegress
    exact approved_of_mem_peers h hpeer hpeerBlock

theorem renders_explained (t : τ) :
    Renders (fun key spec => spec.Explained K runs approved key) approved (runs t).policy := by
  intro ns hns cidrs hcidrs
  refine ⟨fun block hblock => approved_of_mem_blocks hcidrs hblock, ?_⟩
  intro direction remote hremote
  rw [rendered_access] at hremote
  obtain ⟨rule, hrule, hincludes, ⟨cidr, hcidr, hcontains⟩ | hselects⟩ := hremote
  · exact Or.inl ⟨cidr.rendered, hcidrs cidr hcidr, hcontains⟩
  · exact Or.inr ⟨t, hns, rfl, rule, hrule, hincludes, hselects⟩

/-- However the calls of any number of runs interleave, with other parties that keep to it too:
the NetworkPolicies of their policies and the statuses hold no CIDR but those that the endpoints
behind the policies were approved to serve, and no remote is admitted that neither lies in an
approved network nor is selected by a rule. -/
theorem traffic_confined [DecidableEq τ] {η : Type} {endpoints : Url → HttpAnswer → Prop}
    {applied : Apply} (hsets : Apply.Sets applied) (act : η → Cluster → Cluster)
    (hact : ∀ a s,
      (∀ t, s.Confined (fun key spec => spec.Explained K runs approved key) approved
        (runs t).policy) →
      ∀ t, (act a s).Confined (fun key spec => spec.Explained K runs approved key) approved
        (runs t).policy)
    (hserves : ∀ t, Serves K endpoints (runs t).policy approved) (s : Cluster)
    (hs : ∀ t, s.Confined (fun key spec => spec.Explained K runs approved key) approved
      (runs t).policy) (moves : List (Move τ Choice η))
    (hmoves : Along (Pool.step (api applied) act) (Pool.Admits (Answers endpoints))
      (.start s fun t => (runs t).task K) moves) (t : τ) :
    (Pool.exec (api applied) act (.start s fun t => (runs t).task K) moves).state.Confined
      (fun key spec => spec.Explained K runs approved key) approved (runs t).policy :=
  runs_confined runs hsets act hact hserves renders_explained hs hmoves t

end Traffic

namespace Sample

theorem extractCidrs_payload : extractCidrs crates "prefixes" payload = .ok [cidr] := rfl

/-- Every endpoint lists the one network of the sample. -/
theorem serves_payload {policy : CIDRPolicy} (h : policy.spec.source.jmesPath = "prefixes") :
    Serves crates (fun _ answer => answer = .response 200 (.ok body)) policy
      (· = "10.0.0.0/24") := by
  rintro url - answer rfl served found query cidrs hbody hparsed hquery hcidrs cidr' hcidr
  obtain rfl := Except.ok.inj hbody
  obtain rfl := Except.ok.inj hparsed
  rw [h] at hquery
  obtain rfl := Except.ok.inj hquery
  rw [extractCidrs_payload] at hcidrs
  obtain rfl := Except.ok.inj hcidrs
  rw [List.mem_singleton.mp hcidr]
  rfl

end Sample

open Sample in
theorem tenants_confined :
    (Pool.exec (api replace) noOther (.start (cluster policy none) fun t => (tenants t).task crates)
      (List.replicate 7 (.serve false (choice 0)))).state.Confined
        (fun key spec => spec.Explained crates tenants (· = "10.0.0.0/24") key)
        (· = "10.0.0.0/24") policy := by
  have hadmits (P : Pool Calls Bool Cluster PUnit PUnit) :
      P.Admits (Answers fun _ answer => answer = .response 200 (.ok body))
        (Move.serve false (choice 0) : Move Bool Choice Empty) := fun _ _ _ _ _ => rfl
  have hconfined (t : Bool) : (cluster policy none).Confined
      (fun key spec => spec.Explained crates tenants (· = "10.0.0.0/24") key)
      (· = "10.0.0.0/24") (tenants t).policy := by
    constructor
    · intro ns hns np hnp
      have hnone : (cluster policy none).managed (tenants t).policy = none := by
        simp [Cluster.managed, cluster]
      rw [hnone] at hnp
      cases hnp
    · intro stored hstored status hstatus
      obtain ⟨ns, -, hpolicy⟩ := Option.bind_eq_some_iff.mp hstored
      obtain ⟨-, heq⟩ := Option.ite_none_right_eq_some.mp hpolicy
      rw [← Option.some.inj heq] at hstatus
      cases hstatus
  exact traffic_confined (fun _ patch => .refl patch) noOther (fun a => a.elim)
    (fun t => serves_payload (by cases t <;> rfl)) (cluster policy none) hconfined
    (List.replicate 7 (.serve false (choice 0)))
    ⟨hadmits _, hadmits _, hadmits _, hadmits _, hadmits _, hadmits _, hadmits _, trivial⟩ false

end Ipmaze
