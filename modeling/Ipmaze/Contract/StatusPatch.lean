import Ipmaze.Cluster
import Ipmaze.Contract.Decoding
import Ipmaze.Data.MergePatch
import Ipmaze.Effects.Pool

/-! The status update as the merge patch it is sent as. A server that keeps policies as documents
and merges the patch into them serves the controller as one that keeps policies and replaces their
status. -/
namespace Ipmaze
open Effects Json

/-- The body of the request that updates a status. -/
def statusPatch (status : CIDRPolicyStatus) : List (String × Json) :=
  [("status", object [
    ("lastSuccessfulResolutionTime", nullable status.lastSuccessfulResolutionTime),
    ("lastObservedCidrs", texts status.lastObservedCidrs),
    ("lastReconciliationError", nullable status.lastReconciliationError)])]

def statusFields : List String :=
  ["lastSuccessfulResolutionTime", "lastObservedCidrs", "lastReconciliationError"]

def namedOnce (names : List String) (members : List (String × Json)) : Bool :=
  names.all fun name => members.countP (fun member => member.1 == name) ≤ 1

section Statuses
variable {fields : List (String × Bool)} {document : Json} {members : List (String × Json)}

theorem namedOnce_of_structMembers (h : structMembers fields document = some members) :
    namedOnce (fields.map Prod.fst) document.members := by
  rw [namedOnce, List.all_map]
  cases document with
  | object entries =>
    rw [structMembers] at h
    split at h
    · next hall => exact hall
    · cases h
  | _ => exact List.all_eq_true.mpr fun field _ => by simp [Json.members]

theorem structMembers_of_namedOnce (h : namedOnce (fields.map Prod.fst) members) :
    structMembers fields (object members) = some members := by
  rw [namedOnce, List.all_map] at h
  exact if_pos h

theorem namedOnce_mergeMembers {names : List String} (h : namedOnce names members)
    (patch : List (String × Json)) : namedOnce names (mergeMembers members patch) := by
  rw [namedOnce, List.all_eq_true] at h ⊢
  exact fun name hname => decide_eq_true (countP_mergeMembers_le (of_decide_eq_true (h name hname)))

/-- Null removes a text, and what is missing is read as no text. -/
theorem optional_merged (target : Json) (text : Option String) :
    optional readText (if (nullable text).isNull then none
      else some (mergePatch target (nullable text))) = some text := by
  cases text with
  | none => rfl
  | some text => simp [nullable, isNull, mergePatch, optional]

/-- Merged into whatever status was there, the three fields are read as they were sent. -/
theorem CIDRPolicyStatus.ofJson_mergePatch (status : CIDRPolicyStatus)
    (h : namedOnce statusFields document.members) :
    CIDRPolicyStatus.ofJson (mergePatch document status.toJson) = some status := by
  have hnodup : (status.toJson.members.map Prod.fst).Nodup := show statusFields.Nodup by decide
  have hlookup {name : String} {value : Json}
      (hvalue : status.toJson.members.lookup name = some value) :
      (mergeMembers document.members status.toJson.members).lookup name = _ :=
    lookup_mergeMembers_of_some hnodup hvalue
  have hmembers : structMembers [("lastSuccessfulResolutionTime", false),
      ("lastObservedCidrs", true), ("lastReconciliationError", false)]
      (mergePatch document status.toJson) =
        some (mergeMembers document.members status.toJson.members) :=
    structMembers_of_namedOnce (namedOnce_mergeMembers h _)
  have hcidrs (target : Json) : mergePatch target (texts status.lastObservedCidrs) =
      texts status.lastObservedCidrs := by simp only [texts, mergePatch]
  rw [ofJson, hmembers]
  simp only [Option.bind_eq_bind, Option.bind_some]
  rw [hlookup rfl, hlookup rfl, hlookup rfl, optional_merged, optional_merged, hcidrs]
  simp only [Option.bind_some, texts, isNull, Bool.false_eq_true, if_false]
  rw [← texts, defaulted, readVec_texts]
  rfl

theorem CIDRPolicyStatus.namedOnce_of_ofJson {status : CIDRPolicyStatus}
    (h : CIDRPolicyStatus.ofJson document = some status) :
    namedOnce statusFields document.members := by
  rw [ofJson, Option.bind_eq_bind, Option.bind_eq_some_iff] at h
  obtain ⟨members, hmembers, -⟩ := h
  exact namedOnce_of_structMembers hmembers

end Statuses

section Policies
variable (readMeta : Json → Option ObjectMeta)

def policyFields : List (String × Bool) := [("metadata", false), ("spec", false), ("status", true)]

/-- The metadata is read by the library it comes from. -/
def CIDRPolicy.ofJson (document : Json) : Option CIDRPolicy := do
  let members ← structMembers policyFields document
  let metadata ← mandatory readMeta (members.lookup "metadata")
  let spec ← mandatory CIDRPolicySpec.ofJson (members.lookup "spec")
  let status ← optional CIDRPolicyStatus.ofJson (members.lookup "status")
  return { metadata, spec, status }

variable {readMeta} {members : List (String × Json)} {policy : CIDRPolicy}

theorem CIDRPolicy.ofJson_object : CIDRPolicy.ofJson readMeta (object members) = some policy ↔
    namedOnce (policyFields.map Prod.fst) members ∧
      mandatory readMeta (members.lookup "metadata") = some policy.metadata ∧
      mandatory CIDRPolicySpec.ofJson (members.lookup "spec") = some policy.spec ∧
      optional CIDRPolicyStatus.ofJson (members.lookup "status") = some policy.status := by
  constructor
  · intro h
    have hstruct := h
    rw [ofJson, Option.bind_eq_bind, Option.bind_eq_some_iff] at hstruct
    obtain ⟨members', hmembers, hrest⟩ := hstruct
    have honce : namedOnce (policyFields.map Prod.fst) members := namedOnce_of_structMembers hmembers
    rw [structMembers_of_namedOnce honce] at hmembers
    obtain rfl := Option.some.inj hmembers
    simp only [Option.bind_eq_bind, Option.bind_eq_some_iff] at hrest
    obtain ⟨metadata, hmetadata, spec, hspec, status, hstatus, heq⟩ := hrest
    obtain rfl := Option.some.inj heq
    exact ⟨honce, hmetadata, hspec, hstatus⟩
  · rintro ⟨honce, hmetadata, hspec, hstatus⟩
    rw [ofJson, structMembers_of_namedOnce honce]
    simp only [Option.bind_eq_bind, Option.bind_some, hmetadata, hspec, hstatus]
    rfl

theorem lookup_statusPatch (status : CIDRPolicyStatus) :
    (mergeMembers members (statusPatch status)).lookup "status" =
      some (mergePatch ((members.lookup "status").getD null) status.toJson) := by
  have hnodup : ((statusPatch status).map Prod.fst).Nodup := List.nodup_singleton _
  have hpatch : (statusPatch status).lookup "status" = some status.toJson := rfl
  have hwritten : ¬ status.toJson.isNull := Bool.false_ne_true
  rw [lookup_mergeMembers_of_some hnodup hpatch, if_neg hwritten]

/-- The patch sets the status that is read, and nothing else that is. -/
theorem CIDRPolicy.ofJson_statusPatch (status : CIDRPolicyStatus)
    (h : CIDRPolicy.ofJson readMeta (object members) = some policy) :
    CIDRPolicy.ofJson readMeta (object (mergeMembers members (statusPatch status))) =
      some (policy.withStatus status) := by
  rw [ofJson_object] at h ⊢
  obtain ⟨honce, hmetadata, hspec, hstatus⟩ := h
  refine ⟨namedOnce_mergeMembers honce _, ?_, ?_, ?_⟩
  · rw [lookup_mergeMembers_of_none rfl]
    exact hmetadata
  · rw [lookup_mergeMembers_of_none rfl]
    exact hspec
  · have hcurrent : namedOnce statusFields ((members.lookup "status").getD null).members := by
      cases hlookup : members.lookup "status" with
      | none => rfl
      | some document =>
        by_cases hnull : document = null
        · subst hnull
          rfl
        · rw [hlookup, optional_some hnull, Option.map_eq_some_iff] at hstatus
          obtain ⟨current, hcurrent, -⟩ := hstatus
          exact CIDRPolicyStatus.namedOnce_of_ofJson hcurrent
    have hobject : mergePatch ((members.lookup "status").getD null) status.toJson ≠ null := by
      simp only [CIDRPolicyStatus.toJson, mergePatch, ne_eq, reduceCtorEq, not_false_eq_true]
    rw [lookup_statusPatch, optional_some hobject,
      CIDRPolicyStatus.ofJson_mergePatch status hcurrent]
    rfl

variable (readMeta) in
/-- A stored document that the controller can read. -/
structure PolicyDocument where
  members : List (String × Json)
  policy : CIDRPolicy
  reads : CIDRPolicy.ofJson readMeta (object members) = some policy

namespace PolicyDocument

/-- The status, whatever it holds. -/
def status (document : PolicyDocument readMeta) : Json :=
  (document.members.lookup "status").getD null

def patched (document : PolicyDocument readMeta) (status : CIDRPolicyStatus) :
    PolicyDocument readMeta where
  members := mergeMembers document.members (statusPatch status)
  policy := document.policy.withStatus status
  reads := CIDRPolicy.ofJson_statusPatch status document.reads

/-- All members are as they were but those of the status that the controller writes. -/
structure Kept (before after : PolicyDocument readMeta) : Prop where
  members : ∀ name ≠ "status", after.members.lookup name = before.members.lookup name
  status : ∀ name ∉ statusFields, after.status.get name = before.status.get name

theorem Kept.refl (document : PolicyDocument readMeta) : Kept document document :=
  ⟨fun _ _ => rfl, fun _ _ => rfl⟩

theorem Kept.trans {first second third : PolicyDocument readMeta} (h : Kept first second)
    (h' : Kept second third) : Kept first third :=
  ⟨fun name hname => (h'.members name hname).trans (h.members name hname),
    fun name hname => (h'.status name hname).trans (h.status name hname)⟩

theorem kept_patched (document : PolicyDocument readMeta) (status : CIDRPolicyStatus) :
    Kept document (document.patched status) := by
  constructor
  · intro name hname
    apply lookup_mergeMembers_of_none
    rw [statusPatch, List.lookup_cons, beq_false_of_ne hname]
    rfl
  · intro name hname
    have hstatus : (document.patched status).status = mergePatch document.status status.toJson := by
      rw [PolicyDocument.status, patched, lookup_statusPatch, Option.getD_some]
      rfl
    rw [hstatus, CIDRPolicyStatus.toJson]
    apply get_mergePatch_of_none
    rw [List.lookup_eq_none_iff]
    intro member hmember
    have hfield : member.1 ∈ statusFields := List.mem_map_of_mem hmember
    exact bne_iff_ne.mpr fun heq => hname (heq ▸ hfield)

end PolicyDocument

variable (readMeta) in
/-- A cluster that keeps its policies as documents. -/
structure DocumentCluster where
  networkPolicies : Key → Option NetworkPolicy
  policies : Key → Option (PolicyDocument readMeta)
  events : List (Event × ObjectReference)

namespace DocumentCluster

def view (s : DocumentCluster readMeta) : Cluster where
  networkPolicies := s.networkPolicies
  policies key := (s.policies key).map PolicyDocument.policy
  events := s.events

def setPolicy (s : DocumentCluster readMeta) (key : Key) (document : PolicyDocument readMeta) :
    DocumentCluster readMeta :=
  { s with policies := Function.update s.policies key (some document) }

/-- Only a status update touches the documents. -/
def serve (applied : Apply) (choice : Choice) :
    (call : Call) → DocumentCluster readMeta → call.Answer × DocumentCluster readMeta
  | .patchStatus ns name _ patch, s =>
    match s.policies (ns, name) with
    | some document =>
      (choice.delivery.receive (.ok ()),
        if choice.delivery.arrives then s.setPolicy (ns, name) (document.patched patch) else s)
    | none => (choice.delivery.receive (.error notFound), s)
  | call, s =>
    let served := Ipmaze.serve applied choice call s.view
    (served.1, { s with
      networkPolicies := served.2.networkPolicies
      events := served.2.events })

def documents (applied : Apply) : Service Calls Choice (DocumentCluster readMeta) := serve applied

theorem view_setPolicy (s : DocumentCluster readMeta) (key : Key)
    (document : PolicyDocument readMeta) :
    (s.setPolicy key document).view = s.view.setPolicy key (some document.policy) := by
  have hpolicies : (s.setPolicy key document).view.policies =
      (s.view.setPolicy key (some document.policy)).policies := by
    funext key'
    by_cases hkey : key' = key
    · subst hkey
      simp [view, setPolicy, Cluster.setPolicy]
    · simp [view, setPolicy, Cluster.setPolicy, hkey]
  rw [Cluster.setPolicy] at hpolicies ⊢
  exact congrArg (fun policies => Cluster.mk s.networkPolicies policies s.events) hpolicies

theorem view_served {s : DocumentCluster readMeta} {served : Cluster}
    (h : ∀ key, served.policies key = s.view.policies key) :
    ({ s with networkPolicies := served.networkPolicies, events := served.events } :
      DocumentCluster readMeta).view = served := by
  have hpolicies : s.view.policies = served.policies := funext fun key => (h key).symm
  change Cluster.mk served.networkPolicies s.view.policies served.events = served
  rw [hpolicies]

/-- The documents are served as the policies they are read as. -/
theorem documents_refines (applied : Apply) :
    (documents applied : Service Calls Choice (DocumentCluster readMeta)).Refines view
      (api applied) := by
  intro choice call s
  cases call with
  | patchStatus ns name params patch =>
    have hview : s.view.policies (ns, name) = (s.policies (ns, name)).map PolicyDocument.policy := rfl
    cases hpolicy : s.policies (ns, name) with
    | none =>
      rw [hpolicy] at hview
      simp only [documents, serve, api, Ipmaze.serve, hpolicy, hview, Option.map_none, and_self]
    | some document =>
      rw [hpolicy] at hview
      simp only [documents, serve, api, Ipmaze.serve, hpolicy, hview, Option.map_some,
        Delivery.write]
      refine ⟨trivial, ?_⟩
      cases choice.delivery.arrives with
      | false => rfl
      | true => exact view_setPolicy s _ _
  | _ => exact ⟨rfl, view_served fun key => serve_policies applied choice _ _ key
      (by simp [Call.writtenStatus])⟩

/-- No document comes or goes, and each keeps what the controller does not write. -/
def Kept (before after : DocumentCluster readMeta) : Prop :=
  ∀ key, Option.Rel PolicyDocument.Kept (before.policies key) (after.policies key)

theorem Kept.refl (s : DocumentCluster readMeta) : s.Kept s := by
  intro key
  cases s.policies key with
  | none => exact .none
  | some document => exact .some (.refl document)

theorem Kept.setPolicy {before s : DocumentCluster readMeta} (h : before.Kept s) {key : Key}
    {document : PolicyDocument readMeta} (hdocument : s.policies key = some document)
    (status : CIDRPolicyStatus) : before.Kept (s.setPolicy key (document.patched status)) := by
  intro key'
  by_cases hkey : key' = key
  · subst hkey
    have hbefore := h key'
    rw [hdocument] at hbefore
    simp only [DocumentCluster.setPolicy, Function.update_self]
    generalize before.policies key' = found at hbefore ⊢
    cases hbefore with
    | some hkept => exact .some (hkept.trans (document.kept_patched status))
  · simpa only [DocumentCluster.setPolicy, Function.update_of_ne hkey] using h key'

theorem Kept.serve {before s : DocumentCluster readMeta} (h : before.Kept s) (applied : Apply)
    (choice : Choice) (call : Call) : before.Kept (s.serve applied choice call).2 := by
  cases call with
  | patchStatus ns name params patch =>
    cases hdocument : s.policies (ns, name) with
    | none =>
      simp only [DocumentCluster.serve, hdocument]
      exact h
    | some document =>
      simp only [DocumentCluster.serve, hdocument]
      cases choice.delivery.arrives with
      | false => exact h
      | true => exact h.setPolicy hdocument patch
  | _ => exact h

/-- However the calls of any number of tasks interleave, a server that merges status patches into
documents serves them as one that keeps policies and replaces their status. The documents keep
everything that the controller does not write, what is unknown to it included. -/
theorem documents_serve_as_policies {τ : Type} [DecidableEq τ] {ε α : Type} (applied : Apply)
    (tasks : τ → Task ε α) (s : DocumentCluster readMeta) (moves : List (Move τ Choice Empty)) :
    Pool.exec (api applied) Empty.elim (.start s.view tasks) moves =
        (Pool.exec (documents applied) Empty.elim (.start s tasks) moves).map view ∧
      s.Kept (Pool.exec (documents applied) Empty.elim (.start s tasks) moves).state :=
  ⟨Pool.exec_map (documents_refines applied) (fun a => a.elim) (.start s tasks) moves,
    Pool.exec_keeps (fun choice call _ h => h.serve applied choice call) (fun a => a.elim)
      (.start s tasks) (.refl s) moves⟩

end DocumentCluster
end Policies
end Ipmaze
