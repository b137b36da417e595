import Ipmaze.Contract.CustomResource
import Ipmaze.Contract.StatusPatch
import Ipmaze.Sample

/-! The server admits what users submit under the definition of the custom resource. Whatever they
submit, the controller reads every policy that is stored, and the server never has a reason to
refuse a status update. -/
namespace Ipmaze
open Effects Json

section Policies
variable (readMeta : Json → Option ObjectMeta)

/-- The form in which a policy is stored, if it is admitted. The server reads the metadata too. -/
def acceptPolicy (document : Json) : Option Json :=
  (CustomResource.policy.accept document).filter fun stored =>
    (mandatory readMeta (stored.get "metadata")).isSome

/-- A policy as the server has stored it. -/
structure AdmittedPolicy (document : Json) : Prop where
  settled : CustomResource.policy.Settled document
  metadata : ∃ metadata, mandatory readMeta (document.get "metadata") = some metadata

variable {readMeta} {document stored : Json} {members : List (String × Json)}

theorem acceptPolicy_eq_some : acceptPolicy readMeta document = some stored ↔
    CustomResource.policy.accept document = some stored ∧
      ∃ metadata, mandatory readMeta (stored.get "metadata") = some metadata := by
  rw [acceptPolicy, Option.filter_eq_some_iff, Option.isSome_iff_exists]

theorem AdmittedPolicy.admitted (h : AdmittedPolicy readMeta document) :
    acceptPolicy readMeta document = some document :=
  acceptPolicy_eq_some.mpr ⟨h.settled.admitted, h.metadata⟩

theorem admittedPolicy_of_accept (hunique : document.uniqueNames)
    (h : acceptPolicy readMeta document = some stored) : AdmittedPolicy readMeta stored := by
  obtain ⟨haccept, hmetadata⟩ := acceptPolicy_eq_some.mp h
  exact ⟨Structural.settles _ CustomResource.policy_sound hunique haccept, hmetadata⟩

theorem AdmittedPolicy.object (h : AdmittedPolicy readMeta document) :
    ∃ members, document = .object members := by
  obtain ⟨members, -, hdocument, -⟩ := admitted_object CustomResource.policy_sound h.settled.unique
    (ne_null_of_not_nullable h.settled.admitted rfl) h.settled.admitted
  exact ⟨members, hdocument⟩

theorem namedOnce_of_nodup (h : (members.map Prod.fst).Nodup) (names : List String) :
    namedOnce names members := by
  rw [namedOnce, List.all_eq_true]
  intro name _
  have hcount := List.nodup_iff_count_le_one.mp h name
  rw [List.count_eq_countP, List.countP_map] at hcount
  exact decide_eq_true hcount

/-- Every policy that is stored is one that the controller reads. -/
theorem AdmittedPolicy.reads (h : AdmittedPolicy readMeta document) :
    ∃ policy, CIDRPolicy.ofJson readMeta document = some policy := by
  obtain ⟨members, members', rfl, heq, hacceptted⟩ :=
    admitted_object CustomResource.policy_sound h.settled.unique
      (ne_null_of_not_nullable h.settled.admitted rfl) h.settled.admitted
  obtain rfl := Json.object.inj heq
  obtain ⟨metadata, hmetadata⟩ := h.metadata
  obtain ⟨spec, hspec, -⟩ := understood_spec.mandatory rfl (hacceptted.field "spec" _ rfl)
    (hacceptted.unique "spec") (hacceptted.required "spec" (by simp))
  obtain ⟨status, hstatus, -⟩ := understood_status.optional rfl (hacceptted.field "status" _ rfl)
    (hacceptted.unique "status")
  exact ⟨⟨metadata, spec, status⟩, CIDRPolicy.ofJson_object.mpr
    ⟨namedOnce_of_nodup hacceptted.distinct _, hmetadata, hspec, hstatus⟩⟩

section Patches

theorem uniqueNames_texts (values : List String) : (texts values).uniqueNames := by
  rw [texts, Structural.uniqueNames_array]
  intro document hmem
  obtain ⟨text, -, rfl⟩ := List.mem_map.mp hmem
  rfl

variable {properties : List (String × Structural)} {name : String} {value : Json}

theorem admitted_nullable {text : Option String}
    (hname : properties.lookup name = some (.text true none))
    (hnull : (nullable text).isNull = false) (target : Json) :
    (mergePatch target (nullable text)).uniqueNames ∧
      Structural.acceptProperty properties name (mergePatch target (nullable text)) =
        some (some (mergePatch target (nullable text))) := by
  cases text with
  | none => cases hnull
  | some text =>
    refine ⟨rfl, ?_⟩
    rw [Structural.acceptProperty_eq, hname]
    rfl

theorem admitted_texts (hname : properties.lookup name = some (.list false CustomResource.string))
    (values : List String) (target : Json) : (mergePatch target (texts values)).uniqueNames ∧
      Structural.acceptProperty properties name (mergePatch target (texts values)) =
        some (some (mergePatch target (texts values))) := by
  have hpatch : mergePatch target (texts values) = texts values := by simp only [texts, mergePatch]
  rw [hpatch, Structural.acceptProperty_eq, hname]
  refine ⟨uniqueNames_texts values, Structural.kept_eq_some_some.mpr
    ⟨(fun h => by cases h), Structural.accept_array.mpr ⟨_, List.forall₂_same.mpr ?_, rfl⟩⟩⟩
  intro document hmem
  obtain ⟨text, -, rfl⟩ := List.mem_map.mp hmem
  rfl

/-- A status that is stored, or that was never written. -/
def StoredStatus (document : Json) : Prop :=
  document = null ∨ CustomResource.status.Settled document

theorem StoredStatus.entries (h : StoredStatus document) :
    (Json.object document.members).uniqueNames ∧ ∀ member ∈ document.members,
      Structural.acceptProperty [
          ("lastObservedCidrs", .list false CustomResource.string),
          ("lastReconciliationError", .text true none),
          ("lastSuccessfulResolutionTime", .text true none)] member.1 member.2 =
        some (some member.2) := by
  rcases h with rfl | hsettled
  · exact ⟨rfl, List.forall_mem_nil _⟩
  · cases document with
    | null => exact ⟨rfl, List.forall_mem_nil _⟩
    | object members =>
      have hmembers := (Structural.settled_object_iff CustomResource.status_sound).mp hsettled
      exact ⟨hmembers.1, hmembers.2.1⟩
    | _ =>
      have haccept := hsettled.admitted
      simp [CustomResource.status, Structural.accept] at haccept

theorem StoredStatus.patched (h : StoredStatus document) (status : CIDRPolicyStatus) :
    CustomResource.status.Settled (mergePatch document status.toJson) := by
  obtain ⟨hunique, hmembers⟩ := h.entries
  refine Structural.settled_mergeMembers hunique (show statusFields.Nodup by decide) hmembers ?_ ?_
  · intro name value hlookup hnull
    have hmem := mem_of_lookup hlookup
    simp only [List.mem_cons, Prod.mk.injEq, List.not_mem_nil, or_false] at hmem
    rcases hmem with ⟨rfl, rfl⟩ | ⟨rfl, rfl⟩ | ⟨rfl, rfl⟩
    · exact admitted_nullable rfl hnull _
    · exact admitted_texts rfl _ _
    · exact admitted_nullable rfl hnull _
  · intro name hname
    obtain rfl := List.mem_singleton.mp hname
    exact Or.inl ⟨_, rfl, rfl⟩

theorem AdmittedPolicy.storedStatus (h : AdmittedPolicy readMeta (.object members)) :
    StoredStatus ((members.lookup "status").getD null) := by
  obtain ⟨hunique, hmembers, -⟩ :=
    (Structural.settled_object_iff CustomResource.policy_sound).mp h.settled
  cases hlookup : members.lookup "status" with
  | none => exact Or.inl rfl
  | some status =>
    have hmem := mem_of_lookup hlookup
    have haccept := hmembers _ hmem
    rw [Structural.acceptProperty_eq] at haccept
    exact Or.inr ⟨(Structural.uniqueNames_object.mp hunique).2 _ hmem,
      (Structural.kept_eq_some_some.mp haccept).2⟩

/-- A status update leaves a policy that the server admits as it is. -/
theorem AdmittedPolicy.patched (h : AdmittedPolicy readMeta (.object members))
    (status : CIDRPolicyStatus) :
    AdmittedPolicy readMeta (.object (mergeMembers members (statusPatch status))) := by
  obtain ⟨hunique, hmembers, -, hrequired⟩ :=
    (Structural.settled_object_iff CustomResource.policy_sound).mp h.settled
  constructor
  · refine Structural.settled_mergeMembers hunique (List.nodup_singleton _) hmembers ?_ ?_
    · intro name value hlookup _
      have hmem := mem_of_lookup hlookup
      obtain ⟨rfl, rfl⟩ := Prod.mk.inj (List.mem_singleton.mp hmem)
      have hpatched := h.storedStatus.patched status
      refine ⟨hpatched.unique, ?_⟩
      rw [Structural.acceptProperty_eq]
      exact Structural.kept_eq_some_some.mpr ⟨fun _ => rfl, hpatched.admitted⟩
    · intro name hname
      obtain rfl := List.mem_singleton.mp hname
      exact Or.inr ⟨rfl, hrequired _ (List.mem_singleton_self _)⟩
  · obtain ⟨metadata, hmetadata⟩ := h.metadata
    refine ⟨metadata, ?_⟩
    rw [Json.get, members_object, lookup_mergeMembers_of_none rfl]
    exact hmetadata

end Patches

section Manifests

/-- A manifest under the status that is stored already: users do not write it. -/
def submitted (current : Option Json) (manifest : Json) : Json :=
  .object (remove "status" manifest.members ++
    ((current.bind (·.get "status")).map ("status", ·)).toList)

variable (readMeta) in
/-- The policy that a manifest describes, if it is admitted. -/
def describedPolicy (manifest : Json) : Option CIDRPolicy :=
  (acceptPolicy readMeta (submitted none manifest)).bind (CIDRPolicy.ofJson readMeta)

/-- The status that stays under a manifest. -/
def statusOf (current : Option Json) : List (String × Json) :=
  ((current.bind (·.get "status")).map ("status", ·)).toList

variable {current : Option Json} {manifest : Json} {policy : CIDRPolicy}

theorem mem_statusOf {name : String} {value : Json} : (name, value) ∈ statusOf current ↔
    name = "status" ∧ ∃ document ∈ current, document.get "status" = some value := by
  simp only [statusOf, Option.mem_toList, Option.mem_def, Option.map_eq_some_iff,
    Option.bind_eq_some_iff, Prod.mk.injEq]
  constructor
  · rintro ⟨value, ⟨document, hdocument, hvalue⟩, rfl, rfl⟩
    exact ⟨rfl, document, hdocument, hvalue⟩
  · rintro ⟨rfl, document, hdocument, hvalue⟩
    exact ⟨value, ⟨document, hdocument, hvalue⟩, rfl, rfl⟩

theorem lookup_statusOf : (statusOf current).lookup "status" = current.bind (·.get "status") := by
  rw [statusOf]
  cases current.bind (·.get "status") <;> rfl

theorem lookup_statusOf_of_ne {name : String} (h : name ≠ "status") :
    (statusOf current).lookup name = none :=
  lookup_eq_none_of_forall fun _ hmem => h (mem_statusOf.mp hmem).1

theorem AdmittedPolicy.status_settled (h : AdmittedPolicy readMeta document) {value : Json}
    (hvalue : document.get "status" = some value) : CustomResource.status.Settled value := by
  obtain ⟨members, rfl⟩ := h.object
  obtain ⟨hunique, hmembers, -⟩ :=
    (Structural.settled_object_iff CustomResource.policy_sound).mp h.settled
  have hmem := mem_of_lookup hvalue
  have haccept := hmembers _ hmem
  rw [Structural.acceptProperty_eq] at haccept
  exact ⟨(Structural.uniqueNames_object.mp hunique).2 _ hmem,
    (Structural.kept_eq_some_some.mp haccept).2⟩

theorem keepMembers_statusOf (h : ∀ document ∈ current, AdmittedPolicy readMeta document) :
    keepMembers (Structural.acceptProperty [
      ("apiVersion", .anything),
      ("kind", .anything),
      ("metadata", .anything),
      ("spec", CustomResource.spec),
      ("status", CustomResource.status)]) (statusOf current) = some (statusOf current) := by
  apply keepMembers_eq_self
  rintro ⟨name, value⟩ hmem
  obtain ⟨rfl, document, hdocument, hvalue⟩ := mem_statusOf.mp hmem
  have hsettled := (h document hdocument).status_settled hvalue
  rw [Structural.acceptProperty_eq]
  exact Structural.kept_eq_some_some.mpr ⟨fun _ => rfl, hsettled.admitted⟩

theorem submitted_none : submitted none manifest = .object (remove "status" manifest.members) := by
  simp [submitted]

theorem accept_submitted (h : ∀ document ∈ current, AdmittedPolicy readMeta document) :
    CustomResource.policy.accept (submitted current manifest) = some stored ↔
      ∃ known, CustomResource.policy.accept (submitted none manifest) = some (.object known) ∧
        stored = .object (known ++ statusOf current) := by
  rw [submitted_none]
  refine Structural.accept_append (keepMembers_statusOf h) fun name hname value hmem => ?_
  obtain rfl := List.mem_singleton.mp hname
  exact absurd (mem_statusOf.mp hmem).1 (by decide)

/-- The status that is stored has no part in whether a manifest is admitted. -/
theorem acceptPolicy_submitted (h : ∀ document ∈ current, AdmittedPolicy readMeta document) :
    acceptPolicy readMeta (submitted current manifest) = some stored ↔
      ∃ known, acceptPolicy readMeta (submitted none manifest) = some (.object known) ∧
        stored = .object (known ++ statusOf current) := by
  have hmetadata (known : List (String × Json)) :
      (Json.object (known ++ statusOf current)).get "metadata" =
        (Json.object known).get "metadata" := by
    rw [Json.get, members_object, List.lookup_append, lookup_statusOf_of_ne (by decide),
      Option.or_none]
    rfl
  simp only [acceptPolicy_eq_some, accept_submitted h]
  constructor
  · rintro ⟨⟨known, haccept, rfl⟩, hread⟩
    exact ⟨known, ⟨haccept, hmetadata known ▸ hread⟩, rfl⟩
  · rintro ⟨known, ⟨haccept, hread⟩, rfl⟩
    exact ⟨⟨known, haccept, rfl⟩, (hmetadata known).symm ▸ hread⟩

theorem uniqueNames_submitted (h : ∀ document ∈ current, AdmittedPolicy readMeta document)
    (hunique : manifest.uniqueNames) : (submitted current manifest).uniqueNames := by
  have hmembers : (Json.object manifest.members).uniqueNames := by
    cases manifest with
    | object members => exact hunique
    | _ => rfl
  rw [Structural.uniqueNames_object] at hmembers
  refine Structural.uniqueNames_object.mpr ⟨?_, ?_⟩
  · rw [List.map_append, List.nodup_append]
    refine ⟨hmembers.1.sublist (List.filter_sublist.map _), ?_, ?_⟩
    · cases current.bind (·.get "status") <;> simp
    · rintro name hname name' hname' rfl
      obtain ⟨⟨_, value⟩, hmem, rfl⟩ := List.mem_map.mp hname
      obtain ⟨⟨name, value'⟩, hmem', rfl⟩ := List.mem_map.mp hname'
      exact (mem_remove.mp hmem).1 (mem_statusOf.mp hmem').1
  · rintro ⟨name, value⟩ hmem
    rcases List.mem_append.mp hmem with hmem | hmem
    · exact hmembers.2 _ (mem_remove.mp hmem).2
    · obtain ⟨-, document, hdocument, hvalue⟩ := mem_statusOf.mp hmem
      exact ((h document hdocument).status_settled hvalue).unique

theorem lookup_status_submitted {known : List (String × Json)}
    (h : acceptPolicy readMeta (submitted none manifest) = some (.object known)) :
    known.lookup "status" = none := by
  obtain ⟨haccept, -⟩ := acceptPolicy_eq_some.mp h
  rw [submitted_none] at haccept
  obtain ⟨known', hknown, -, heq⟩ := Structural.accept_properties.mp haccept
  obtain rfl : known = known' := by simpa [missing] using heq
  refine lookup_eq_none_of_forall fun found hmem => ?_
  obtain ⟨given, hgiven, -⟩ := (mem_keepMembers hknown).mp hmem
  exact (mem_remove.mp hgiven).1 rfl

/-- A policy under the status of the one that is stored. -/
def CIDRPolicy.underStatus (policy : CIDRPolicy) (current : Option CIDRPolicy) : CIDRPolicy :=
  { policy with status := current.bind CIDRPolicy.status }

/-- What is stored for a manifest is read as the policy that it describes, under the status that was
stored before. -/
theorem ofJson_submitted {known : List (String × Json)}
    (h : ∀ document ∈ current, AdmittedPolicy readMeta document) (hunique : manifest.uniqueNames)
    (haccept : acceptPolicy readMeta (submitted none manifest) = some (.object known))
    (hread : CIDRPolicy.ofJson readMeta (.object known) = some policy) :
    CIDRPolicy.ofJson readMeta (.object (known ++ statusOf current)) =
      some (policy.underStatus (current.bind (CIDRPolicy.ofJson readMeta))) := by
  have hstored := admittedPolicy_of_accept (uniqueNames_submitted h hunique)
    ((acceptPolicy_submitted h).mpr ⟨known, haccept, rfl⟩)
  have hdistinct := (Structural.uniqueNames_object.mp hstored.settled.unique).1
  obtain ⟨-, hmetadata, hspec, -⟩ := CIDRPolicy.ofJson_object.mp hread
  refine CIDRPolicy.ofJson_object.mpr ⟨namedOnce_of_nodup hdistinct _, ?_, ?_, ?_⟩
  · rw [List.lookup_append, lookup_statusOf_of_ne (by decide), Option.or_none]
    exact hmetadata
  · rw [List.lookup_append, lookup_statusOf_of_ne (by decide), Option.or_none]
    exact hspec
  · rw [List.lookup_append, lookup_status_submitted haccept, Option.none_or, lookup_statusOf]
    cases current with
    | none => rfl
    | some document =>
      obtain ⟨before, hbefore⟩ := (h document rfl).reads
      obtain ⟨members, rfl⟩ := (h document rfl).object
      obtain ⟨-, -, -, hstatus⟩ := CIDRPolicy.ofJson_object.mp hbefore
      rw [CIDRPolicy.underStatus, Option.bind_some, Option.bind_some, hbefore]
      exact hstatus

end Manifests

/-- What other parties do: users submit and delete policies, anyone writes NetworkPolicies. -/
inductive Edit
  | submit (key : Key) (manifest : Json) (unique : manifest.uniqueNames)
  | delete (key : Key)
  | write (key : Key) (stored : Option NetworkPolicy)

/-- A cluster as the server keeps it, its policies as documents. -/
structure StoredCluster where
  networkPolicies : Key → Option NetworkPolicy
  policies : Key → Option Json
  events : List (Event × ObjectReference)

namespace StoredCluster

def setPolicy (s : StoredCluster) (key : Key) (stored : Option Json) : StoredCluster :=
  { s with policies := Function.update s.policies key stored }

def invalid : KubeError := .api 422 "invalid"
def unreadable : KubeError := .other "unreadable"

variable (readMeta)

/-- What the controller reads in the cluster. -/
def view (s : StoredCluster) : Cluster where
  networkPolicies := s.networkPolicies
  policies key := (s.policies key).bind (CIDRPolicy.ofJson readMeta)
  events := s.events

/-- A status update is merged into the document and has to be admitted, and a document that does not
read as a policy is an error for who asked for it. -/
def serve (applied : Apply) (choice : Choice) :
    (call : Call) → StoredCluster → call.Answer × StoredCluster
  | .getPolicy ns name, s =>
    (choice.delivery.receive
      (match s.policies (ns, name) with
        | some document => (CIDRPolicy.ofJson readMeta document).elim (.error unreadable) .ok
        | none => .error notFound), s)
  | .patchStatus ns name _ patch, s =>
    match s.policies (ns, name) with
    | some document =>
      match acceptPolicy readMeta (mergePatch document (.object (statusPatch patch))) with
      | some stored =>
        (choice.delivery.receive (.ok ()),
          if choice.delivery.arrives then s.setPolicy (ns, name) (some stored) else s)
      | none => (choice.delivery.receive (.error invalid), s)
    | none => (choice.delivery.receive (.error notFound), s)
  | call, s =>
    let served := Ipmaze.serve applied choice call (s.view readMeta)
    (served.1, { s with
      networkPolicies := served.2.networkPolicies
      events := served.2.events })

def admitting (applied : Apply) : Service Calls Choice StoredCluster := serve readMeta applied

def edit : Edit → StoredCluster → StoredCluster
  | .submit key manifest _, s =>
    match acceptPolicy readMeta (submitted (s.policies key) manifest) with
    | some stored => s.setPolicy key (some stored)
    | none => s
  | .delete key, s => s.setPolicy key none
  | .write key stored, s =>
    { s with networkPolicies := Function.update s.networkPolicies key stored }

end StoredCluster

variable (readMeta) in
/-- The same in terms of policies. -/
def Cluster.edit : Edit → Cluster → Cluster
  | .submit key manifest _, s =>
    match describedPolicy readMeta manifest with
    | some policy => s.setPolicy key (some (policy.underStatus (s.policies key)))
    | none => s
  | .delete key, s => s.setPolicy key none
  | .write key stored, s => s.setNetworkPolicy key stored

namespace StoredCluster
variable {s : StoredCluster}

variable (readMeta) in
/-- Every policy came through the admission of the server. -/
def Admitted (s : StoredCluster) : Prop :=
  ∀ key, ∀ document ∈ s.policies key, AdmittedPolicy readMeta document

theorem Admitted.setPolicy (h : s.Admitted readMeta) (key : Key) {stored : Option Json}
    (hstored : ∀ document ∈ stored, AdmittedPolicy readMeta document) :
    (s.setPolicy key stored).Admitted readMeta := by
  intro key' document hdocument
  by_cases hkey : key' = key
  · subst hkey
    simp only [StoredCluster.setPolicy, Function.update_self] at hdocument
    exact hstored document hdocument
  · simp only [StoredCluster.setPolicy, Function.update_of_ne hkey] at hdocument
    exact h key' document hdocument

theorem view_setPolicy (s : StoredCluster) (key : Key) (stored : Option Json) :
    (s.setPolicy key stored).view readMeta =
      (s.view readMeta).setPolicy key (stored.bind (CIDRPolicy.ofJson readMeta)) := by
  have hpolicies : ((s.setPolicy key stored).view readMeta).policies =
      ((s.view readMeta).setPolicy key (stored.bind (CIDRPolicy.ofJson readMeta))).policies := by
    funext key'
    by_cases hkey : key' = key
    · subst hkey
      simp [view, setPolicy, Cluster.setPolicy]
    · simp [view, setPolicy, Cluster.setPolicy, hkey]
  rw [Cluster.setPolicy] at hpolicies ⊢
  exact congrArg (fun policies => Cluster.mk s.networkPolicies policies s.events) hpolicies

theorem view_served {served : Cluster}
    (h : ∀ key, served.policies key = (s.view readMeta).policies key) :
    ({ s with networkPolicies := served.networkPolicies, events := served.events } :
      StoredCluster).view readMeta = served := by
  have hpolicies : (s.view readMeta).policies = served.policies := funext fun key => (h key).symm
  change Cluster.mk served.networkPolicies (s.view readMeta).policies served.events = served
  rw [hpolicies]

/-- What a status update meets: a document that is admitted with it, and read with it. -/
theorem admitted_patch (h : AdmittedPolicy readMeta document) (status : CIDRPolicyStatus) :
    ∃ policy, CIDRPolicy.ofJson readMeta document = some policy ∧
      ∃ stored, acceptPolicy readMeta (mergePatch document (.object (statusPatch status))) =
          some stored ∧ AdmittedPolicy readMeta stored ∧
        CIDRPolicy.ofJson readMeta stored = some (policy.withStatus status) := by
  obtain ⟨policy, hpolicy⟩ := h.reads
  obtain ⟨members, rfl⟩ := h.object
  have hpatched := h.patched status
  have hmerge : mergePatch (.object members) (.object (statusPatch status)) =
      .object (mergeMembers members (statusPatch status)) := by rw [mergePatch, members_object]
  refine ⟨policy, hpolicy, _, ?_, hpatched, CIDRPolicy.ofJson_statusPatch status hpolicy⟩
  rw [hmerge]
  exact hpatched.admitted

theorem Admitted.serve (h : s.Admitted readMeta) (applied : Apply) (choice : Choice) (call : Call) :
    (s.serve readMeta applied choice call).2.Admitted readMeta := by
  cases call with
  | patchStatus ns name params patch =>
    cases hdocument : s.policies (ns, name) with
    | none =>
      simp only [StoredCluster.serve, hdocument]
      exact h
    | some document =>
      obtain ⟨policy, -, stored, haccept, hstored, -⟩ :=
        admitted_patch (h _ document hdocument) patch
      simp only [StoredCluster.serve, hdocument, haccept]
      cases choice.delivery.arrives with
      | false => exact h
      | true =>
        refine h.setPolicy _ fun document' hdocument' => ?_
        obtain rfl := Option.some.inj hdocument'
        exact hstored
  | _ => exact h

/-- While every policy is one that was admitted, the server answers and does what one would that
keeps policies. -/
theorem serve_view (h : s.Admitted readMeta) (applied : Apply) (choice : Choice) (call : Call) :
    (s.serve readMeta applied choice call).1 =
        (Ipmaze.serve applied choice call (s.view readMeta)).1 ∧
      (s.serve readMeta applied choice call).2.view readMeta =
        (Ipmaze.serve applied choice call (s.view readMeta)).2 := by
  have hview (key : Key) : (s.view readMeta).policies key =
      (s.policies key).bind (CIDRPolicy.ofJson readMeta) := rfl
  cases call with
  | getPolicy ns name =>
    refine ⟨?_, rfl⟩
    simp only [StoredCluster.serve, Ipmaze.serve, hview]
    cases hdocument : s.policies (ns, name) with
    | none => rfl
    | some document =>
      obtain ⟨policy, hpolicy⟩ := (h _ document hdocument).reads
      simp only [Option.bind_some, hpolicy, Option.elim_some]
  | patchStatus ns name params patch =>
    simp only [StoredCluster.serve, Ipmaze.serve, hview]
    cases hdocument : s.policies (ns, name) with
    | none => exact ⟨rfl, rfl⟩
    | some document =>
      obtain ⟨policy, hpolicy, stored, haccept, -, hread⟩ :=
        admitted_patch (h _ document hdocument) patch
      rw [Option.bind_some, hpolicy]
      simp only [haccept, Delivery.write]
      refine ⟨trivial, ?_⟩
      cases choice.delivery.arrives with
      | false => rfl
      | true =>
        rw [if_pos rfl, if_pos rfl, view_setPolicy, Option.bind_some, hread]
  | _ => exact ⟨rfl, view_served fun key => serve_policies applied choice _ _ key
      (by simp [Call.writtenStatus])⟩

theorem Admitted.edit (h : s.Admitted readMeta) (act : Edit) :
    (s.edit readMeta act).Admitted readMeta := by
  cases act with
  | submit key manifest hunique =>
    cases haccept : acceptPolicy readMeta (submitted (s.policies key) manifest) with
    | none =>
      simp only [StoredCluster.edit, haccept]
      exact h
    | some stored =>
      simp only [StoredCluster.edit, haccept]
      refine h.setPolicy key fun document hdocument => ?_
      obtain rfl := Option.some.inj hdocument
      exact admittedPolicy_of_accept (uniqueNames_submitted (h key) hunique) haccept
  | delete key => exact h.setPolicy key fun document hdocument => by cases hdocument
  | write key stored => exact h

/-- A manifest that is submitted takes effect as the policy that it describes. -/
theorem edit_view (h : s.Admitted readMeta) (act : Edit) :
    (s.edit readMeta act).view readMeta = (s.view readMeta).edit readMeta act := by
  cases act with
  | submit key manifest hunique =>
    cases hdescribed : acceptPolicy readMeta (submitted none manifest) with
    | none =>
      have hnone : acceptPolicy readMeta (submitted (s.policies key) manifest) = none := by
        rw [Option.eq_none_iff_forall_ne_some]
        intro stored hstored
        obtain ⟨known, hknown, -⟩ := (acceptPolicy_submitted (h key)).mp hstored
        rw [hdescribed] at hknown
        cases hknown
      simp only [StoredCluster.edit, Cluster.edit, describedPolicy, hdescribed, hnone,
        Option.bind_none]
    | some described =>
      have hnew : ∀ document ∈ (none : Option Json), AdmittedPolicy readMeta document := by simp
      have hacceptted := admittedPolicy_of_accept (uniqueNames_submitted hnew hunique) hdescribed
      obtain ⟨known, rfl⟩ := hacceptted.object
      obtain ⟨policy, hpolicy⟩ := hacceptted.reads
      have hstored := (acceptPolicy_submitted (h key)).mpr ⟨known, hdescribed, rfl⟩
      simp only [StoredCluster.edit, Cluster.edit, describedPolicy, hdescribed, hstored,
        Option.bind_some, hpolicy]
      rw [view_setPolicy, Option.bind_some, ofJson_submitted (h key) hunique hdescribed hpolicy]
      rfl
  | delete key => exact view_setPolicy s key none
  | write key stored => rfl

/-- However users submit, replace and delete policies while the calls of any number of tasks
interleave, every policy that is stored is read, no status update is refused for its form, and the
tasks are served as by a server that keeps the policies that the manifests describe. -/
theorem admitted_documents_serve_as_policies {τ : Type} [DecidableEq τ] {ε α : Type}
    (applied : Apply) (tasks : τ → Task ε α) (s : StoredCluster) (h : s.Admitted readMeta)
    (moves : List (Move τ Choice Edit)) :
    Pool.exec (api applied) (Cluster.edit readMeta) (.start (s.view readMeta) tasks) moves =
        (Pool.exec (admitting readMeta applied) (edit readMeta) (.start s tasks) moves).map
          (view readMeta) ∧
      ∀ key, ∀ document ∈ (Pool.exec (admitting readMeta applied) (edit readMeta) (.start s tasks)
          moves).state.policies key,
        ∃ policy, CIDRPolicy.ofJson readMeta document = some policy := by
  have hserve (choice : Choice) (call : Call) (s : StoredCluster) (h : s.Admitted readMeta) :
      (admitting readMeta applied choice call s).2.Admitted readMeta := h.serve applied choice call
  constructor
  · exact Pool.exec_map_of_keeps (fun choice call s h => serve_view h applied choice call)
      (fun act s h => edit_view h act) hserve (fun act s h => h.edit act) (.start s tasks) h moves
  · exact fun key document hdocument =>
      (Pool.exec_keeps hserve (fun act s h => h.edit act) (.start s tasks) h moves key document
        hdocument).reads

end StoredCluster
end Policies

section Submissions

/-- Metadata of which only the name matters. -/
def readName (document : Json) : Option ObjectMeta := do
  let name ← (document.get "name").bind readText
  return { name := some name, ns := some "payments", uid := some "12345" }

def storedPolicy : Json := object [
  ("metadata", object [("name", string "office-allowlist")]),
  ("spec", object [
    ("source", object [("address", string "lists.example"), ("jmesPath", string "prefixes")]),
    ("target", object [("podSelector", object [])]),
    ("rules", array [object [("podSelector", object [])]])])]

def storedCluster : StoredCluster where
  networkPolicies _ := none
  policies key := if key = ("payments", "office-allowlist") then some storedPolicy else none
  events := []

/-- Another policy comes, one without rules is refused, and the first one is reconciled up to its
status before it goes. -/
def submissions : List (Move Unit Choice Edit) :=
  .other (.submit ("payments", "partners")
    (object [("metadata", object [("name", string "partners")]), ("spec", looseSpec)]) (by decide)) ::
  .other (.submit ("payments", "drafts")
    (object [("metadata", object [("name", string "drafts")]), ("spec", object [])]) (by decide)) ::
  (List.replicate 6 (.serve () (Sample.choice 0)) ++
    [.other (.delete ("payments", "partners")), .serve () (Sample.choice 1)])

theorem storedCluster_admitted : storedCluster.Admitted readName := by
  intro key document hdocument
  by_cases hkey : key = ("payments", "office-allowlist")
  · subst hkey
    obtain rfl := Option.some.inj hdocument
    exact ⟨⟨by decide, rfl⟩, _, rfl⟩
  · simp [storedCluster, hkey] at hdocument

theorem submissions_serve_as_policies :
    ∃ final, final = Pool.exec (StoredCluster.admitting readName Sample.replace)
        (StoredCluster.edit readName)
        (.start storedCluster fun _ => reconcile Sample.crates Sample.policy) submissions ∧
      Pool.exec (api Sample.replace) (Cluster.edit readName) (.start (storedCluster.view readName)
        fun _ => reconcile Sample.crates Sample.policy) submissions =
        final.map (StoredCluster.view readName) ∧
      (∀ key, ∀ document ∈ final.state.policies key,
        ∃ policy, CIDRPolicy.ofJson readName document = some policy) ∧
      ((final.state.view readName).stored Sample.policy).bind CIDRPolicy.status =
        some { lastSuccessfulResolutionTime := some "1970-01-01T00:00:00+00:00"
               lastObservedCidrs := ["10.0.0.0/24"] } := by
  obtain ⟨hserved, hread⟩ := StoredCluster.admitted_documents_serve_as_policies Sample.replace
    (fun _ : Unit => reconcile Sample.crates Sample.policy) storedCluster storedCluster_admitted
    submissions
  refine ⟨_, rfl, hserved, hread, ?_⟩
  decide +kernel

end Submissions
end Ipmaze
