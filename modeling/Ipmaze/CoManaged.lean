import Ipmaze.Reconcile.Round

/-! A managed NetworkPolicy on which other field managers set metadata of their own. The server
keeps what they set, the comparison of the controller does not expect it. -/
namespace Ipmaze
open Effects

/-- The map sent on top of the map stored. -/
def MergedMap (old sent kept : Option StringMap) : Prop :=
  ∀ m, sent = some m → ∃ k, kept = some k ∧
    ∀ key, k.lookup key = (m.lookup key).or ((old.getD ∅).lookup key)

/-- The references sent, with those stored under other uids. -/
def MergedOwners (old sent kept : Option (List OwnerReference)) : Prop :=
  ∀ s, sent = some s → ∃ k, kept = some k ∧
    k.Perm (s ++ (old.getD []).filter fun o => ∀ owner ∈ s, owner.uid ≠ o.uid)

/-- A forced apply onto a stored object replaces the spec and merges the metadata. -/
structure Apply.Merges (applied : Apply) : Prop where
  spec : ∀ old patch, (applied (some old) patch).spec = patch.spec
  labels : ∀ old patch, MergedMap old.metadata.labels patch.metadata.labels
    (applied (some old) patch).metadata.labels
  annotations : ∀ old patch, MergedMap old.metadata.annotations patch.metadata.annotations
    (applied (some old) patch).metadata.annotations
  ownerReferences : ∀ old patch, MergedOwners old.metadata.ownerReferences
    patch.metadata.ownerReferences (applied (some old) patch).metadata.ownerReferences

/-- No metadata but the label, the annotation and the owner reference of the controller. -/
structure NetworkPolicy.WithoutExtras (policy : CIDRPolicy) (np : NetworkPolicy) : Prop where
  labels : ∀ key ∈ np.metadata.labels.getD ∅, key = managedByLabel
  annotations : ∀ key ∈ np.metadata.annotations.getD ∅, key = sourcePolicyAnnotation
  ownerReferences : ∀ owner ∈ np.metadata.ownerReferences.getD [],
    some owner.uid = policy.metadata.uid

section Merging

theorem MergedMap.carries {old sent kept : Option StringMap} (h : MergedMap old sent kept) :
    ∀ m, sent = some m → ∃ k, kept = some k ∧
      ∀ key value, m.lookup key = some value → k.lookup key = some value := by
  intro m hm
  obtain ⟨k, hk, hlookup⟩ := h m hm
  refine ⟨k, hk, fun key value hvalue => ?_⟩
  rw [hlookup, hvalue]
  rfl

theorem Apply.Merges.carries {applied : Apply} (h : Apply.Merges applied)
    (old patch : NetworkPolicy) : (applied (some old) patch).Carries patch where
  spec := h.spec old patch
  labels := (h.labels old patch).carries
  annotations := (h.annotations old patch).carries
  ownerReferences sent hsent := by
    obtain ⟨kept, hkept, hperm⟩ := h.ownerReferences old patch sent hsent
    exact ⟨kept, hkept, fun o ho => hperm.mem_iff.mpr (List.mem_append_left _ ho)⟩

/-- Sending one entry leaves exactly that entry if no other was stored. -/
theorem MergedMap.eq_sent_iff {old kept : Option StringMap} {key value : String}
    (h : MergedMap old (some (Finmap.insert key value ∅)) kept) :
    kept = some (Finmap.insert key value ∅) ↔ ∀ k ∈ old.getD ∅, k = key := by
  obtain ⟨k, rfl, hlookup⟩ := h _ rfl
  rw [Option.some_inj]
  constructor
  · rintro rfl other hother
    by_contra hne
    have hlost := hlookup other
    rw [Finmap.lookup_insert_of_ne _ hne, Finmap.lookup_empty, Option.none_or] at hlost
    exact Finmap.lookup_eq_none.mp hlost.symm hother
  · intro hold
    apply Finmap.ext_lookup
    intro other
    rw [hlookup]
    by_cases he : other = key
    · rw [he, Finmap.lookup_insert]
      rfl
    · have hnone : (old.getD ∅).lookup other = none :=
        Finmap.lookup_eq_none.mpr fun hmem => he (hold other hmem)
      rw [hnone, Option.or_none]

theorem MergedOwners.eq_sent_iff {old kept : Option (List OwnerReference)} {owner : OwnerReference}
    (h : MergedOwners old (some [owner]) kept) :
    kept = some [owner] ↔ ∀ o ∈ old.getD [], o.uid = owner.uid := by
  obtain ⟨k, rfl, hperm⟩ := h _ rfl
  have hfilter : (old.getD []).filter (fun o => ∀ s ∈ [owner], s.uid ≠ o.uid) = [] ↔
      ∀ o ∈ old.getD [], o.uid = owner.uid := by
    simp only [List.filter_eq_nil_iff, List.forall_mem_singleton, decide_eq_true_eq, not_not]
    exact forall₂_congr fun _ _ => eq_comm
  rw [Option.some_inj, ← hfilter]
  constructor
  · rintro rfl
    have hlength := hperm.length_eq
    rw [List.length_append] at hlength
    exact List.length_eq_zero_iff.mp (by simpa using hlength)
  · intro hnil
    rw [hnil, List.append_nil] at hperm
    exact List.perm_singleton.mp hperm

variable {applied : Apply} {policy : CIDRPolicy} {np rendered : NetworkPolicy} {ns : String}

/-- What the server keeps of a rendering compares equal to it exactly without extras. -/
theorem Apply.Merges.matches_iff (h : Apply.Merges applied) (hpersisted : policy.Persisted)
    (hmeta : rendered.metadata = policy.renderedMetadata ns) :
    managedPolicyMatches (applied (some np) rendered) rendered ↔ np.WithoutExtras policy := by
  obtain ⟨owner, howner, huid⟩ := hpersisted.controllerOwnerRef
  have howners := renderedMetadata_ownerReferences howner ns
  have hlabels := h.labels np rendered
  have hannotations := h.annotations np rendered
  have hreferences := h.ownerReferences np rendered
  rw [hmeta] at hlabels hannotations hreferences
  rw [howners] at hreferences
  have huids : (∀ o ∈ np.metadata.ownerReferences.getD [], o.uid = owner.uid) ↔
      ∀ o ∈ np.metadata.ownerReferences.getD [], some o.uid = policy.metadata.uid := by
    rw [← huid]
    exact forall₂_congr fun _ _ => Option.some_inj.symm
  have hparts : managedPolicyMatches (applied (some np) rendered) rendered ↔
      (∀ key ∈ np.metadata.labels.getD ∅, key = managedByLabel) ∧
        (∀ key ∈ np.metadata.annotations.getD ∅, key = sourcePolicyAnnotation) ∧
        ∀ o ∈ np.metadata.ownerReferences.getD [], some o.uid = policy.metadata.uid := by
    rw [managedPolicyMatches_iff, hmeta, howners, h.spec, ← huids]
    exact (and_iff_right rfl).trans (and_congr hlabels.eq_sent_iff
      (and_congr hannotations.eq_sent_iff hreferences.eq_sent_iff))
  rw [hparts]
  exact ⟨fun hp => ⟨hp.1, hp.2.1, hp.2.2⟩,
    fun hp => ⟨hp.labels, hp.annotations, hp.ownerReferences⟩⟩

theorem eq_of_mem_insert_empty {key other value : String}
    (h : other ∈ (Finmap.insert key value ∅ : StringMap)) : other = key := by
  rcases Finmap.mem_insert.mp h with he | he
  · exact he
  · exact absurd he Finmap.notMem_empty

/-- An object that compares equal to the rendering has no extras. -/
theorem withoutExtras_of_matches (hpersisted : policy.Persisted)
    (hmeta : rendered.metadata = policy.renderedMetadata ns)
    (hmatches : managedPolicyMatches np rendered) : np.WithoutExtras policy := by
  obtain ⟨owner, howner, huid⟩ := hpersisted.controllerOwnerRef
  obtain ⟨-, hlabels, hannotations, howners⟩ := managedPolicyMatches_iff.mp hmatches
  rw [hmeta] at hlabels hannotations howners
  rw [renderedMetadata_ownerReferences howner] at howners
  refine ⟨?_, ?_, ?_⟩
  · rw [hlabels]
    exact fun key hkey => eq_of_mem_insert_empty hkey
  · rw [hannotations]
    exact fun key hkey => eq_of_mem_insert_empty hkey
  · rw [howners]
    intro o ho
    rw [← huid, List.mem_singleton.mp ho]

end Merging

section Rounds
variable {K : Crates} {applied : Apply} {policy : CIDRPolicy} {r : Resolved K} {np : NetworkPolicy}
variable {w w₁ v v₁ : World Calls Choice Cluster} {status : Option CIDRPolicyStatus}

/-- After one successful reconcile of an owned NetworkPolicy, the next one with the same spec
and the same CIDRs finds no change exactly if the NetworkPolicy carried no extras. -/
theorem reconcile_converges_iff (h : CleanRound K applied policy r w w₁)
    (hmerges : Apply.Merges applied) (hpersisted : policy.Persisted)
    (hstored : (w.state.stored policy).isSome) (hnp : w.state.managed policy = some np)
    (howned : isManagedNetworkPolicyFor policy np)
    (hv : v.state = ((reconcile K policy).run (api applied) w).2.state)
    (h' : CleanRound K applied { policy with status } r v v₁) :
    FindsNoChange K applied { policy with status } r v ↔ np.WithoutExtras policy := by
  obtain ⟨stored, hstored'⟩ := Option.isSome_iff_exists.mp hstored
  have hmeta := renderedMetadata_of_build h.ns h.rendered
  by_cases hmatches : managedPolicyMatches np r.rendered
  · obtain ⟨hmanaged, hstatus⟩ := h.after_noChange hstored' (w₁.choices 1).now
    rw [h.run_noChange hnp howned hmatches hstored] at hv
    have hnp' : v.state.managed { policy with status } = some np := by
      rw [hv]
      exact hmanaged.trans hnp
    have hfinds := h'.findsNoChange_iff hnp' howned
      (by rw [hv]; exact Option.isSome_of_eq_some hstatus)
    exact iff_of_true (hfinds.mpr hmatches) (withoutExtras_of_matches hpersisted hmeta hmatches)
  · obtain ⟨hmanaged, hstatus⟩ := h.after_reconciled hstored' (w₁.choices 2).now
    rw [h.run_reconciled (by simp [hnp, howned, hmatches]) hstored] at hv
    rw [hnp] at hmanaged
    have hkept : isManagedNetworkPolicyFor policy (applied (some np) r.rendered) :=
      (hmerges.carries np r.rendered).isManaged hpersisted hmeta
    rw [← hmerges.matches_iff hpersisted hmeta]
    exact h'.findsNoChange_iff (by rw [hv]; exact hmanaged) hkept
      (by rw [hv]; exact Option.isSome_of_eq_some hstatus)

end Rounds

namespace Sample

/-- A server that merges what is sent with what other field managers set. -/
def merge : Apply
  | none, patch => patch
  | some old, patch =>
    { metadata := { patch.metadata with
        labels := patch.metadata.labels.map (· ∪ old.metadata.labels.getD ∅)
        annotations := patch.metadata.annotations.map (· ∪ old.metadata.annotations.getD ∅)
        ownerReferences := patch.metadata.ownerReferences.map fun sent =>
          sent ++ (old.metadata.ownerReferences.getD []).filter fun o =>
            ∀ owner ∈ sent, owner.uid ≠ o.uid }
      spec := patch.spec }

theorem merge_mergedMap (old sent : Option StringMap) :
    MergedMap old sent (sent.map (· ∪ old.getD ∅)) := by
  rintro m rfl
  refine ⟨_, rfl, fun key => ?_⟩
  by_cases hkey : key ∈ m
  · obtain ⟨value, hvalue⟩ := Finmap.mem_iff.mp hkey
    rw [Finmap.lookup_union_left hkey, hvalue]
    rfl
  · rw [Finmap.lookup_union_right hkey, Finmap.lookup_eq_none.mpr hkey, Option.none_or]

theorem merge_merges : Apply.Merges merge where
  spec _ _ := rfl
  labels _ _ := merge_mergedMap _ _
  annotations _ _ := merge_mergedMap _ _
  ownerReferences _ _ sent hsent := ⟨_, by rw [merge, hsent]; rfl, .refl _⟩

/-- The managed NetworkPolicy before the list changed, with one more label if given. -/
def earlier (team : Option String) : NetworkPolicy :=
  let np := policy.rendered "payments" []
  { np with metadata := { np.metadata with
      labels := match team with
        | none => some managedLabels
        | some team => some (Finmap.insert "team" team managedLabels) } }

/-- A reconcile of the sample policy in the state that an earlier one left. -/
def secondRound (team : Option String) : World Calls Choice Cluster :=
  worldAt ((reconcile crates policy).run (api merge)
    (worldAt (cluster policy (some (earlier team))) 0)).2.state 60000000000

end Sample

open Sample in
theorem earlier_converges :
    FindsNoChange crates merge policy (resolved policy.spec.rules) (secondRound none) := by
  have hround (s : Cluster) (now : Instant) := cleanRound merge policy.spec.rules none (by rfl) s now
  have hlater : ∀ s, CleanRound crates merge { policy with status := none } _ _ _ :=
    fun s => hround s 60000000000
  have hnp : (cluster policy (some (earlier none))).managed policy = some (earlier none) := by decide
  refine (reconcile_converges_iff (hround (cluster policy (some (earlier none))) 0) merge_merges
    (persisted _ none) (by decide) hnp (by decide) (v := secondRound none) rfl
    (hlater _)).mpr ⟨?_, ?_, ?_⟩
  · exact fun key hkey => eq_of_mem_insert_empty hkey
  · exact fun key hkey => eq_of_mem_insert_empty hkey
  · decide

open Sample in
/-- With a label of another manager, every round patches again. -/
theorem labelled_patched_again :
    isManagedNetworkPolicyFor policy (earlier (some "edge")) ∧
      ¬ FindsNoChange crates merge policy (resolved policy.spec.rules) (secondRound (some "edge")) ∧
      ∃ call ∈ (reconcile crates policy).calls (api merge) (secondRound (some "edge")),
        call.writtenNetworkPolicy = some ("payments", "office-allowlist-managed") := by
  refine ⟨by decide, ?_, by decide⟩
  intro h
  have houtcome := h.outcome
  revert houtcome
  decide

end Ipmaze
