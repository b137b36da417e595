import Ipmaze.Isolation
import Ipmaze.Reconcile.Declares
import Ipmaze.Rendering.Meaning

/-! Once the reconciles of all policies have returned, the traffic that the cluster admits is what
the policies declare for the CIDRs their sources listed, beside what it owes to NetworkPolicies of
others. -/
namespace Ipmaze
open Effects Pool

section Traffic
variable (K : Crates)

/-- Where something isolates the pod, a remote end has to be admitted by something that does. -/
def TrafficAdmitted (accesses : Set Access) (pod : String × StringMap) (direction : Direction)
    (remote : Remote) : Prop :=
  (∃ access ∈ accesses, pod ∈ access.subjects ∧ direction ∈ access.isolated) →
    ∃ access ∈ accesses, pod ∈ access.subjects ∧ direction ∈ access.isolated ∧
      remote ∈ access.admitted direction

/-- What the NetworkPolicies stored under these keys mean. -/
def Cluster.accesses (keys : Set Key) (s : Cluster) : Set Access :=
  {access | ∃ key ∈ keys, ∃ np ∈ s.networkPolicies key, ∃ spec ∈ np.spec,
    access = spec.access K key.1}

variable {τ : Type} (policies : τ → CIDRPolicy)

/-- The keys of the managed NetworkPolicies. -/
def managedKeys : Set Key :=
  {key | ∃ t, (policies t).metadata.ns = some key.1 ∧
    (policies t).managedNetworkPolicyName = key.2}

/-- What the live policies mean when their sources list these CIDRs. -/
def declaredAccesses (cidrs : τ → List NormalizedCidr) : Set Access :=
  {access | ∃ t, (policies t).metadata.deletionTimestamp = none ∧ ∃ ns ∈ (policies t).metadata.ns,
    access = (policies t).spec.access K ns (cidrs t)}

variable {K policies}

/-- The managed NetworkPolicies mean what the live policies do. -/
theorem managed_accesses {cidrs : τ → List NormalizedCidr} {s : Cluster}
    (hlive : ∀ t, (policies t).metadata.deletionTimestamp = none →
      Holds (policies t) (cidrs t) s)
    (hterminating : ∀ t, (policies t).metadata.deletionTimestamp.isSome →
      s.managed (policies t) = none) :
    s.accesses K (managedKeys policies) = declaredAccesses K policies cidrs := by
  ext access
  constructor
  · rintro ⟨key, ⟨t, hns, hname⟩, np, hnp, spec, hspec, rfl⟩
    have hmanaged : s.managed (policies t) = some np := by
      rw [Cluster.managed_eq hns, hname]
      exact hnp
    cases hdeletion : (policies t).metadata.deletionTimestamp with
    | some deletion =>
      have hnone := hterminating t (by rw [hdeletion]; rfl)
      rw [hmanaged] at hnone
      cases hnone
    | none =>
      obtain ⟨np', hheld, hrendered⟩ := hlive t hdeletion
      obtain rfl := Option.some.inj (hmanaged.symm.trans hheld)
      obtain rfl := Option.some.inj (hspec.symm.trans hrendered)
      exact ⟨t, hdeletion, key.1, hns, rendered_access K key.1 _ _⟩
  · rintro ⟨t, hdeletion, ns, hns, rfl⟩
    obtain ⟨np, hheld, hrendered⟩ := hlive t hdeletion
    rw [Cluster.managed_eq hns] at hheld
    refine ⟨(ns, (policies t).managedNetworkPolicyName), ⟨t, hns, rfl⟩, np, hheld, _,
      hrendered, ?_⟩
    exact (rendered_access K ns _ _).symm

theorem accesses_union (keys : Set Key) (s : Cluster) :
    s.accesses K Set.univ = s.accesses K keys ∪ s.accesses K keysᶜ := by
  ext access
  constructor
  · rintro ⟨key, -, hkey⟩
    by_cases h : key ∈ keys
    · exact Or.inl ⟨key, h, hkey⟩
    · exact Or.inr ⟨key, h, hkey⟩
  · rintro (⟨key, -, hkey⟩ | ⟨key, -, hkey⟩)
    · exact ⟨key, trivial, hkey⟩
    · exact ⟨key, trivial, hkey⟩

end Traffic

section Pools
variable {K : Crates} {τ η : Type} [DecidableEq τ] {applied : Apply} {policies : τ → CIDRPolicy}
variable {act : η → Cluster → Cluster}

/-- The reconciles of these policies, beside other parties. -/
def reconciles (K : Crates) (policies : τ → CIDRPolicy) (s : Cluster) :
    Pool Calls τ Cluster ReconcileError Action :=
  .start s fun t => reconcile K (policies t)

/-- What a policy is about is in place: what it declares for the CIDRs that its source has listed,
or nothing where it is terminating. -/
structure Fulfilled (K : Crates) (policy : CIDRPolicy) (log : List Calls.Event) (s : Cluster) :
    Prop where
  live : policy.metadata.deletionTimestamp = none →
    ∃ cidrs, Listed K policy log cidrs ∧ Declared K policy True cidrs s
  terminating : policy.metadata.deletionTimestamp.isSome → s.managed policy = none

/-- The objects of a policy are left as they are. -/
def LeftAlone (policy : CIDRPolicy) (s s' : Cluster) : Prop :=
  s'.managed policy = s.managed policy ∧ s'.stored policy = s.stored policy

theorem LeftAlone.spares {policy : CIDRPolicy} {s s' : Cluster} (h : LeftAlone policy s s')
    (told : Prop) (cidrs : List NormalizedCidr) : Spares K policy told cidrs s s' where
  networkPolicy hs := by
    rw [Holds, h.1]
    exact hs
  status _ hs := by
    rw [Stamped, h.2]
    exact hs

/-- A call for one policy leaves the objects of the others alone. -/
theorem serve_leftAlone {p q : CIDRPolicy} (hp : p.metadata.name.isSome)
    (hq : q.metadata.name.isSome) (hpq : q.identity ≠ p.identity) {call : Call}
    (h : call.Within p) (choice : Choice) (s : Cluster) :
    LeftAlone q s (serve applied choice call s).2 := by
  have hview := serve_view_frame applied h hp choice s hpq
  rw [view_identity hq, view_identity hq, Prod.mk.injEq] at hview
  exact hview

/-- A reconcile that is left alone brings about what its policy is about. -/
theorem reconcile_fulfils (hsets : Apply.Sets applied) {policy : CIDRPolicy}
    {G : Cluster → Cluster → Prop} (hG : ∀ s, G s s)
    (hchange : ∀ choice call s, call.Within policy → G s (serve applied choice call s).2)
    (s : Cluster) :
    (reconcile K policy).Ensures (api applied) (fun _ choice => choice.Truthful)
      (LeftAlone policy) G (fun log _ s' => Fulfilled K policy log s') [] s := by
  have hrefl (s : Cluster) : LeftAlone policy s s := ⟨rfl, rfl⟩
  cases hdeletion : policy.metadata.deletionTimestamp with
  | some deletion =>
    have hterminating : policy.metadata.deletionTimestamp.isSome := by rw [hdeletion]; rfl
    rw [reconcile_terminating hterminating]
    refine (cleanup_ensures (fun s s' h hs => h.1.trans hs)
      (fun choice call s hwithin _ _ => hchange choice call s hwithin)
      fun _ _ => id).mono fun log _ s' h => ⟨fun hlive => ?_, fun _ => h⟩
    rw [hdeletion] at hlive
    cases hlive
  | none =>
    refine (reconcile_ensures True (A := fun _ => True) hsets hdeletion hrefl
      (fun _ _ s _ _ => ⟨trivial, hG s⟩) (fun r hsound log _ _ => ?_) s).mono
      fun log _ s' h => ⟨fun _ => ?_, fun hterminating => ?_⟩
    · exact ⟨hrefl, fun s s' hs => hs.spares True r.cidrs,
        fun choice call s hwithin _ _ => hchange choice call s hwithin⟩
    · obtain ⟨cidrs, answers, hlog, -, hlisted, hdeclared⟩ := h
      exact ⟨cidrs, hlisted.mono hlog, hdeclared⟩
    · rw [hdeletion] at hterminating
      cases hterminating

section Interleaving
variable (hsets : Apply.Sets applied) (hnamed : ∀ t, (policies t).metadata.name.isSome)
variable (hdistinct : Function.Injective fun t => (policies t).identity)
variable (hact : ∀ a s t, LeftAlone (policies t) s (act a s))
variable (s : Cluster) {moves : List (Move τ Choice η)}
variable (hmoves : Along (Pool.step (api applied) act)
  (Pool.Admits fun _ choice => choice.Truthful) (reconciles K policies s) moves)
include hsets hnamed hdistinct hact hmoves

/-- However the reconciles interleave, each that has returned has brought about what its policy is
about. -/
theorem reconciles_fulfil (t : τ) {action : Action}
    (h : (exec (api applied) act (reconciles K policies s) moves).threads t = .ret action) :
    Fulfilled K (policies t) ((exec (api applied) act (reconciles K policies s) moves).logs t)
      (exec (api applied) act (reconciles K policies s) moves).state := by
  have hrefl (t : τ) (s : Cluster) : LeftAlone (policies t) s s := ⟨rfl, rfl⟩
  have hstart : (reconciles K policies s).Ensured (api applied) (fun _ choice => choice.Truthful)
      (fun t => LeftAlone (policies t)) (fun t s s' => ∀ u, u ≠ t → LeftAlone (policies u) s s')
      fun t log _ s' => Fulfilled K (policies t) log s' := by
    intro t
    refine reconcile_fulfils hsets (fun s u _ => hrefl u s) (fun choice call s hwithin u hu => ?_) s
    exact serve_leftAlone (hnamed t) (hnamed u) (fun he => hu (hdistinct he)) hwithin choice s
  exact (hstart.exec hrefl (fun t s s' s'' h h' => ⟨h'.1.trans h.1, h'.2.trans h.2⟩)
    (fun t u hu s s' h => h u hu) hact hmoves).returned hrefl h

/-- However the reconciles of distinct policies interleave with one another and with parties that
leave their NetworkPolicies and the policies alone: once all have returned, the traffic that the
cluster admits is what the live policies declare for the CIDRs that their sources have listed,
beside what other NetworkPolicies admit, and each status lists these CIDRs. -/
theorem declared_traffic_admitted
    (hreturned : ∀ t, ∃ action,
      (exec (api applied) act (reconciles K policies s) moves).threads t = .ret action) :
    ∃ final, final = exec (api applied) act (reconciles K policies s) moves ∧
      ∃ cidrs : τ → List NormalizedCidr,
        (∀ t, (policies t).metadata.deletionTimestamp = none →
          Listed K (policies t) (final.logs t) (cidrs t) ∧
            Stamped K (policies t) (cidrs t) final.state) ∧
        ∀ pod direction remote,
          TrafficAdmitted (final.state.accesses K Set.univ) pod direction remote ↔
            TrafficAdmitted (declaredAccesses K policies cidrs ∪
              final.state.accesses K (managedKeys policies)ᶜ) pod direction remote := by
  choose action haction using hreturned
  have hfulfilled (t : τ) :=
    reconciles_fulfil hsets hnamed hdistinct hact s hmoves t (haction t)
  have hcidrs (t : τ) : ∃ cidrs, (policies t).metadata.deletionTimestamp = none →
      Listed K (policies t)
          ((exec (api applied) act (reconciles K policies s) moves).logs t) cidrs ∧
        Declared K (policies t) True cidrs
          (exec (api applied) act (reconciles K policies s) moves).state := by
    by_cases hlive : (policies t).metadata.deletionTimestamp = none
    · obtain ⟨cidrs, h⟩ := (hfulfilled t).live hlive
      exact ⟨cidrs, fun _ => h⟩
    · exact ⟨[], fun h => absurd h hlive⟩
  choose cidrs hcidrs using hcidrs
  refine ⟨_, rfl, cidrs, fun t hlive => ?_, fun pod direction remote => ?_⟩
  · exact ⟨(hcidrs t hlive).1, (hcidrs t hlive).2.status trivial⟩
  · rw [accesses_union (managedKeys policies), managed_accesses
      (fun t hlive => (hcidrs t hlive).2.networkPolicy) fun t => (hfulfilled t).terminating]

end Interleaving
end Pools

namespace Sample

/-- Two teams of one namespace, of which one gives up its policy. -/
def tenantPolicies : Bool → CIDRPolicy
  | false => policy
  | true =>
    { policy with metadata :=
      { policy.metadata with name := some "vpn", deletionTimestamp := some 0 } }

/-- A cluster that holds the policies of both teams, and a NetworkPolicy that is to go. -/
def tenantCluster : Cluster :=
  let s := (cluster policy none).setPolicy ("payments", "vpn") (some (tenantPolicies true))
  s.setNetworkPolicy ("payments", "vpn-managed")
    (some ((tenantPolicies true).rendered "payments" [cidr]))

theorem choice_truthful (now : Instant) : (choice now).Truthful := by
  rintro error (h | h)
  · cases h
  · cases h

theorem choice_of_mem_turns {t : Bool} {k : Choice} (h : Move.serve t k ∈ turns) :
    k = choice 0 := by
  simp only [turns, List.mem_flatten, List.mem_replicate] at h
  obtain ⟨pair, ⟨-, rfl⟩, hmem⟩ := h
  simp only [List.mem_cons, Move.serve.injEq, List.not_mem_nil, or_false] at hmem
  rcases hmem with ⟨-, hk⟩ | ⟨-, hk⟩
  · exact hk
  · exact hk

end Sample

open Sample in
theorem declared_traffic_admitted_tenants :
    ∃ cidrs : Bool → List NormalizedCidr, ∀ pod direction remote,
      TrafficAdmitted ((exec (api replace) noOther (reconciles crates tenantPolicies tenantCluster)
        turns).state.accesses crates Set.univ) pod direction remote ↔
        TrafficAdmitted (declaredAccesses crates tenantPolicies cidrs ∪
          (exec (api replace) noOther (reconciles crates tenantPolicies tenantCluster)
            turns).state.accesses crates (managedKeys tenantPolicies)ᶜ) pod direction remote := by
  have hdistinct : Function.Injective fun t => (tenantPolicies t).identity := by decide
  have hreturned (t : Bool) : ∃ action, (exec (api replace) noOther
      (reconciles crates tenantPolicies tenantCluster) turns).threads t = .ret action := by
    cases t with
    | false => exact ⟨_, rfl⟩
    | true => exact ⟨_, rfl⟩
  obtain ⟨_, rfl, cidrs, -, h⟩ := declared_traffic_admitted (fun _ patch => .refl patch)
    (by decide) hdistinct (fun a => a.elim) tenantCluster
    (along_of_choices fun _ _ h _ => choice_of_mem_turns h ▸ choice_truthful 0) hreturned
  exact ⟨cidrs, h⟩

end Ipmaze
