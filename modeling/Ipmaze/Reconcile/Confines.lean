import Ipmaze.Effects.Reliance
import Ipmaze.Runs

/-! What a run writes, as far as the endpoints behind its policy and the status it reads can be
relied on. -/
namespace Ipmaze
open Effects Checked

section Endpoints
variable (K : Crates) (endpoints : Url → HttpAnswer → Prop) (policy : CIDRPolicy)

/-- The CIDRs of a policy may be requested from this URL: the one it configures, or one that its
pointer may name. -/
inductive LeadsTo : Url → Prop
  | direct {validated : ValidatedPolicy K} (hvalidated : validatePolicy K policy = .ok validated)
    (hpointer : validated.pointerRegex = none) : LeadsTo validated.sourceAddress.requestUrl
  | pointer {validated : ValidatedPolicy K} {regex : K.Regex} {answer : HttpAnswer}
    {body : List UInt8} {address : NormalizedRemoteAddress}
    (hvalidated : validatePolicy K policy = .ok validated)
    (hpointer : validated.pointerRegex = some regex)
    (hanswer : endpoints validated.sourceAddress.requestUrl answer)
    (hbody : answer.successBody = .ok body)
    (hresolved : resolvePointer K regex (K.decodeText body) = .ok address) :
    LeadsTo address.requestUrl

/-- Wherever the policy leads, its query only finds approved CIDRs. -/
def Serves (approved : String → Prop) : Prop :=
  ∀ url, LeadsTo K endpoints policy url → ∀ answer, endpoints url answer →
    ∀ body payload query cidrs, answer.successBody = .ok body → K.parseJson body = .ok payload →
      compileQuery K policy.spec.source.jmesPath = .ok query →
      extractCidrs K query payload = .ok cidrs → ∀ cidr ∈ cidrs, approved cidr.rendered

end Endpoints

section Approval
variable (admissible : Key → NetworkPolicySpec → Prop) (approved : String → Prop)

def CIDRPolicyStatus.Confined (status : CIDRPolicyStatus) : Prop :=
  ∀ cidr ∈ status.lastObservedCidrs, approved cidr

def CIDRPolicy.Confined (policy : CIDRPolicy) : Prop :=
  ∀ status ∈ policy.status, status.Confined approved

/-- What is stored under a key is admissible there. -/
def NetworkPolicy.Confined (key : Key) (np : NetworkPolicy) : Prop :=
  ∀ spec ∈ np.spec, admissible key spec

/-- The NetworkPolicy of a policy is admissible, and its status lists approved CIDRs only. -/
structure Cluster.Confined (policy : CIDRPolicy) (s : Cluster) : Prop where
  managed : ∀ ns ∈ policy.metadata.ns, ∀ np ∈ s.managed policy,
    np.Confined admissible (ns, policy.managedNetworkPolicyName)
  stored : ∀ stored ∈ s.stored policy, stored.Confined approved

/-- A call that writes what is admissible and approved. -/
def Call.Confines : Call → Prop
  | patchNetworkPolicy ns name _ patch => patch.Confined admissible (ns, name)
  | patchStatus _ _ _ status => status.Confined approved
  | _ => True

/-- An endpoint answers as it may, and a policy that is read is confined. -/
def Relied (endpoints : Url → HttpAnswer → Prop) : (call : Call) → call.Answer → Prop
  | .httpGet url, answer => endpoints url answer
  | .getPolicy _ _, answer => ∀ policy, answer = .ok policy → policy.Confined approved
  | _, _ => True

/-- The renderings of a policy from approved CIDRs are admissible under its managed name. -/
def Renders (policy : CIDRPolicy) : Prop :=
  ∀ ns ∈ policy.metadata.ns, ∀ cidrs : List NormalizedCidr,
    (∀ cidr ∈ cidrs, approved cidr.rendered) →
      admissible (ns, policy.managedNetworkPolicyName) (policy.spec.rendered cidrs)

end Approval

section Programs
variable {K : Crates} {endpoints : Url → HttpAnswer → Prop} {policy : CIDRPolicy}
variable {admissible : Key → NetworkPolicySpec → Prop} {approved : String → Prop} {G : Call → Prop}

theorem fetchText_reliant (address : NormalizedRemoteAddress) (hget : ∀ url, G (.httpGet url)) :
    (fetchText K address).Reliant (Relied approved endpoints) G fun text => ∃ answer body,
      endpoints address.requestUrl answer ∧ answer.successBody = .ok body ∧
        K.decodeText body = text := by
  refine ⟨hget _, fun answer hanswer => ?_⟩
  change (Program.ofExcept (answer.successBody.mapError _) >>= fun body => pure _ :
    Task FetchError String).Reliant _ _ _
  refine (Program.reliant_ofExcept fun body h => mapError_ok_iff.mp h).bind fun body hbody => ?_
  exact ⟨answer, body, hanswer, hbody, rfl⟩

theorem fetchJson_reliant (address : NormalizedRemoteAddress) (hget : ∀ url, G (.httpGet url)) :
    (fetchJson K address).Reliant (Relied approved endpoints) G fun payload => ∃ answer body,
      endpoints address.requestUrl answer ∧ answer.successBody = .ok body ∧
        K.parseJson body = .ok payload := by
  refine ⟨hget _, fun answer hanswer => ?_⟩
  change (Program.ofExcept (answer.successBody.mapError _) >>= fun body => _ :
    Task FetchError K.Value).Reliant _ _ _
  refine (Program.reliant_ofExcept fun body h => mapError_ok_iff.mp h).bind fun body hbody => ?_
  exact Program.reliant_ofExcept fun payload h => ⟨answer, body, hanswer, hbody, mapError_ok_iff.mp h⟩

theorem resolveFinalSource_reliant {validated : ValidatedPolicy K}
    (hvalidated : validatePolicy K policy = .ok validated) (hget : ∀ url, G (.httpGet url)) :
    (resolveFinalSource K validated.sourceAddress validated.pointerRegex).Reliant
      (Relied approved endpoints) G
      fun source => LeadsTo K endpoints policy source.finalAddress.requestUrl := by
  cases hpointer : validated.pointerRegex with
  | none => exact .direct hvalidated hpointer
  | some regex =>
    refine (fetchText_reliant _ hget).bind fun text htext => ?_
    obtain ⟨answer, body, hanswer, hbody, rfl⟩ := htext
    refine (Program.reliant_ofExcept fun _ h => h).bind fun address hresolved => ?_
    exact .pointer hvalidated hpointer hanswer hbody hresolved

theorem resolve_reliant (hserves : Serves K endpoints policy approved)
    (hget : ∀ url, G (.httpGet url)) :
    (resolve K policy).Reliant (Relied approved endpoints) G fun r =>
      (∀ cidr ∈ r.cidrs, approved cidr.rendered) ∧ r.Sound policy := by
  refine Program.Reliant.and_yields ?_ (resolve_sound policy)
  unfold resolve retrieve
  refine (Program.reliant_ofExcept fun _ h => mapError_ok_iff.mp h).bind fun validated hv => ?_
  refine Program.Reliant.bind (Q := fun cidrs : List NormalizedCidr =>
    ∀ cidr ∈ cidrs, approved cidr.rendered) ?_ fun cidrs hcidrs => ?_
  · refine ((resolveFinalSource_reliant hv hget).mapError _).bind fun source hsource => ?_
    refine ((fetchJson_reliant _ hget).mapError _).bind fun payload hpayload => ?_
    obtain ⟨answer, body, hanswer, hbody, hparsed⟩ := hpayload
    refine (Program.reliant_ofExcept fun _ h => mapError_ok_iff.mp h).bind fun query hquery => ?_
    refine Program.reliant_ofExcept fun cidrs h => ?_
    exact hserves _ hsource answer hanswer body payload query cidrs hbody hparsed hquery
      (mapError_ok_iff.mp h)
  · refine (Program.reliant_ofExcept fun _ _ => trivial).bind fun rendered _ => ?_
    exact (Program.reliant_ofExcept fun _ _ => trivial).bind fun ns _ => hcidrs

theorem publish_confines {r : Resolved K} (hrenders : Renders admissible approved policy)
    (h : ∀ cidr ∈ r.cidrs, approved cidr.rendered) (hsound : r.Sound policy) :
    (publish K policy r).Makes (Call.Confines admissible approved) := by
  have hobserved : ∀ cidr ∈ r.observed, approved cidr := by
    intro text htext
    obtain ⟨cidr, hcidr, rfl⟩ := List.mem_map.mp htext
    exact h cidr hcidr
  refine publish_makes trivial trivial (fun _ _ => trivial) ?_ fun outcome houtcome => ?_
  · refine ⟨?_, fun _ => Program.makes_ofExcept _⟩
    rw [hsound.rendered_eq]
    intro spec hspec
    obtain rfl := Option.some.inj hspec
    exact hrenders r.ns hsound.ns r.cidrs h
  · rcases houtcome with rfl | rfl
    · exact ⟨trivial, fun now => ⟨hobserved, fun _ => Program.makes_ofExcept _⟩⟩
    · exact ⟨trivial, fun now => ⟨hobserved, fun _ => Program.makes_ofExcept _⟩⟩

theorem cleanup_confines (policy : CIDRPolicy) :
    (cleanup policy).Makes (Call.Confines admissible approved) :=
  cleanup_makes (fun _ _ => trivial) (fun _ _ => trivial) fun _ _ => trivial

theorem reconcile_reliant (hserves : Serves K endpoints policy approved)
    (hrenders : Renders admissible approved policy) :
    (reconcile K policy).Reliant (Relied approved endpoints) (Call.Confines admissible approved)
      fun _ => True := by
  cases hd : policy.metadata.deletionTimestamp with
  | some deletion =>
    rw [reconcile_terminating (by rw [hd]; rfl)]
    exact ((cleanup_confines policy).reliant (Program.yields_true _)).bind fun _ _ => trivial
  | none =>
    rw [reconcile_eq hd]
    refine (resolve_reliant hserves fun _ => trivial).bind fun r hr => ?_
    exact (publish_confines hrenders hr.1 hr.2).reliant (Program.yields_true _)

/-- A failure writes back the CIDRs it has just read. -/
theorem handleReconcileFailure_reliant (policy : CIDRPolicy) (stage : ReconcileStage)
    (message : String) :
    (handleReconcileFailure K policy stage message).Reliant (Relied approved endpoints)
      (Call.Confines admissible approved) fun _ => True := by
  unfold handleReconcileFailure
  cases policy.metadata.ns with
  | none => trivial
  | some ns =>
    refine Program.Reliant.bind (Q := fun _ => True) ?_ fun _ _ => ?_
    · refine ⟨trivial, fun answer hanswer => ?_⟩
      cases answer with
      | error e => trivial
      | ok current =>
        refine ⟨?_, fun answer _ => by cases answer <;> trivial⟩
        intro cidr hcidr
        cases hstatus : current.status with
        | none =>
          rw [hstatus] at hcidr
          cases hcidr
        | some status =>
          rw [hstatus] at hcidr
          exact hanswer current rfl status hstatus cidr hcidr
    · exact ⟨trivial, fun answer _ => by cases answer <;> trivial⟩

theorem Run.task_reliant (run : Run) (hserves : Serves K endpoints run.policy approved)
    (hrenders : Renders admissible approved run.policy) :
    (run.task K).Reliant (Relied approved endpoints)
      (fun call : Call => call.Within run.policy ∧ call.Confines admissible approved) fun _ => True := by
  refine Program.Reliant.and_makes ?_ (run.task_within K)
  cases run with
  | reconcile policy => exact (reconcile_reliant hserves hrenders).discard
  | cleanup policy =>
    exact ((cleanup_confines policy).reliant (Program.yields_true _)).discard
  | failure policy stage message => exact (handleReconcileFailure_reliant policy _ _).discard
  | attempt context policy =>
    refine Program.Reliant.discard (Q := fun _ => True)
      ((reconcile_reliant hserves hrenders).rescue fun error => ?_)
    exact (handleReconcileFailure_reliant policy _ _).bind fun _ _ => trivial

end Programs

end Ipmaze
