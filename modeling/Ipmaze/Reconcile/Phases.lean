import Ipmaze.Controller
import Ipmaze.Rendering.Rendered

/-! A reconcile of a policy that is not terminating first resolves the CIDRs and renders them,
asking only remote endpoints, and then publishes the rendering, asking only the cluster. -/
namespace Ipmaze
open Effects Checked

/-- What the first phase hands to the second. -/
structure Resolved (K : Crates) where
  validated : ValidatedPolicy K
  cidrs : List NormalizedCidr
  rendered : NetworkPolicy
  ns : String

def Resolved.observed {K : Crates} (r : Resolved K) : List String :=
  r.cidrs.map NormalizedCidr.rendered

variable (K : Crates)

/-- The remote half of the first phase: the CIDRs the source of the policy lists now. -/
def retrieve (policy : CIDRPolicy) (validated : ValidatedPolicy K) :
    Task ReconcileError (List NormalizedCidr) := do
  let resolvedSource ←
    (resolveFinalSource K validated.sourceAddress validated.pointerRegex).mapError .fetch
  let payload ← (fetchJson K resolvedSource.finalAddress).mapError .fetch
  let query ← .ofExcept ((compileQuery K policy.spec.source.jmesPath).mapError
    fun error => .validation (.invalidJmesPath error))
  .ofExcept ((extractCidrs K query payload).mapError .extract)

def resolve (policy : CIDRPolicy) : Task ReconcileError (Resolved K) := do
  let validated ← .ofExcept ((validatePolicy K policy).mapError .validation)
  let cidrs ← retrieve K policy validated
  let rendered ← .ofExcept ((buildManagedNetworkPolicy policy cidrs).mapError .render)
  let ns ← .ofExcept (policy.metadata.ns.elim (.error (.render .missingNamespace)) .ok)
  return { validated, cidrs, rendered, ns }

/-- The end of a reconcile: stamp the status, announce an applied rendering, requeue. -/
def conclude (policy : CIDRPolicy) (r : Resolved K) (outcome : ReconcileOutcome) :
    Task ReconcileError Action := do
  (patchStatusForOutcome K r.ns policy outcome).mapError .kubernetesApi
  (publishOutcomeEvent policy (some r.rendered) outcome).mapError .kubernetesApi
  let after ← scheduleRequeueAfter K r.validated.resyncSchedule
  return .requeue after

def publish (policy : CIDRPolicy) (r : Resolved K) : Task ReconcileError Action := do
  let existing ← getManagedNetworkPolicy r.ns policy "Reconcile"
  let outcome := classifyOutcome existing r.rendered r.observed
  (if outcome.isReconciled then
    (applyManagedNetworkPolicy r.ns r.rendered).mapError .kubernetesApi else .ret ())
  conclude K policy r outcome

variable {K} {policy : CIDRPolicy}

theorem reconcile_eq (h : policy.metadata.deletionTimestamp = none) :
    reconcile K policy = resolve K policy >>= publish K policy := by
  simp only [reconcile, h, resolve, retrieve, publish, conclude, Option.isSome_none, Bool.false_eq_true,
    if_false, bind_assoc, pure_bind, Resolved.observed]
  rfl

theorem reconcile_terminating (h : policy.metadata.deletionTimestamp.isSome) :
    reconcile K policy = cleanup policy >>= fun _ => pure .awaitChange := by
  simp only [reconcile, h, if_true]

section Steps
variable {β : Type} (ns : String) (policy : CIDRPolicy)

/-- What follows a check of the managed name, given the answer. -/
def checked (action : String) (f : Option NetworkPolicy → Task ReconcileError β) :
    Except KubeError (Option NetworkPolicy) → Task ReconcileError β
  | .error error => .fail (.kubernetesApi error)
  | .ok none => f none
  | .ok (some np) =>
    if isManagedNetworkPolicyFor policy np then f (some np)
    else do
      (reportManagedPolicyCollision policy np action).mapError .kubernetesApi
      .fail (.managedPolicyCollision policy.managedNetworkPolicyName)

theorem getManagedNetworkPolicy_bind (action : String)
    (f : Option NetworkPolicy → Task ReconcileError β) :
    getManagedNetworkPolicy ns policy action >>= f =
      .call (I := Calls) (.getNetworkPolicy ns policy.managedNetworkPolicyName)
        (checked policy action f) := by
  unfold getManagedNetworkPolicy Task.getNetworkPolicy
  simp only [Program.mapError_call, Program.call_bind, Program.call.injEq, heq_eq_eq, true_and]
  funext answer
  cases answer with
  | error e => rfl
  | ok found =>
    cases found with
    | none => rfl
    | some np =>
      simp only [checked, Program.ofExcept_ok, Program.mapError_ret, Program.ret_bind]
      split
      · rfl
      · rw [bind_assoc]
        rfl

/-- What follows a deletion of the managed name, given the answer. -/
def deleted (f : Bool → Task ReconcileError β) : Except KubeError Unit → Task ReconcileError β
  | .ok _ => f true
  | .error (.api 404 _) => f false
  | .error error => .fail (.kubernetesApi error)

theorem deleteManagedNetworkPolicy_bind (f : Bool → Task ReconcileError β) :
    deleteManagedNetworkPolicy ns policy true >>= f =
      .call (I := Calls) (.deleteNetworkPolicy ns policy.managedNetworkPolicyName) (deleted f) := by
  simp only [deleteManagedNetworkPolicy, Task.deleteNetworkPolicy, if_true, Program.mapError_call,
    Program.call_bind, Program.call.injEq, heq_eq_eq, true_and]
  funext answer
  fun_cases deleted f answer with
  | case1 done => rfl
  | case2 text => rfl
  | case3 error hcode =>
    simp only [Program.mapError_ret, Program.ret_bind]
    rfl

end Steps

/-- What a completed resolution has established about its policy. -/
structure Resolved.Sound (policy : CIDRPolicy) (r : Resolved K) : Prop where
  validated : validatePolicy K policy = .ok r.validated
  extracted : ∃ query payload, compileQuery K policy.spec.source.jmesPath = .ok query ∧
    extractCidrs K query payload = .ok r.cidrs
  rendered : buildManagedNetworkPolicy policy r.cidrs = .ok r.rendered
  ns : policy.metadata.ns = some r.ns

theorem retrieve_sound (policy : CIDRPolicy) (validated : ValidatedPolicy K) :
    (retrieve K policy validated).Yields fun cidrs =>
      ∃ query payload, compileQuery K policy.spec.source.jmesPath = .ok query ∧
        extractCidrs K query payload = .ok cidrs := by
  unfold retrieve
  refine (Program.yields_true _).bind fun source _ => ?_
  refine (Program.yields_true _).bind fun payload _ => ?_
  refine (Program.yields_ofExcept fun _ h => mapError_ok_iff.mp h).bind fun query hq => ?_
  exact Program.yields_ofExcept fun _ h => ⟨query, payload, hq, mapError_ok_iff.mp h⟩

theorem resolve_sound (policy : CIDRPolicy) :
    (resolve K policy).Yields (Resolved.Sound policy) := by
  unfold resolve
  refine (Program.yields_ofExcept fun _ h => mapError_ok_iff.mp h).bind fun validated hv => ?_
  refine (retrieve_sound policy validated).bind fun cidrs hc => ?_
  refine (Program.yields_ofExcept fun _ h => mapError_ok_iff.mp h).bind fun rendered hr => ?_
  refine (Program.yields_ofExcept (Q := fun ns => policy.metadata.ns = some ns) ?_).bind
    fun ns hns => ⟨hv, hc, hr, hns⟩
  intro ns h
  cases hn : policy.metadata.ns with
  | none =>
    rw [hn] at h
    contradiction
  | some n =>
    rw [hn] at h
    cases h
    rfl

namespace Resolved.Sound
variable {r : Resolved K}

theorem wellFormed (h : r.Sound policy) : policy.spec.WellFormed :=
  validateSpec_wellFormed h.validated

theorem rendered_eq (h : r.Sound policy) : r.rendered = policy.rendered r.ns r.cidrs := by
  have heq := h.rendered
  rw [buildManagedNetworkPolicy_eq h.wellFormed h.ns] at heq
  exact (Except.ok.inj heq).symm

theorem rendered_metadata (h : r.Sound policy) :
    r.rendered.metadata = policy.renderedMetadata r.ns :=
  renderedMetadata_of_build h.ns h.rendered

end Resolved.Sound

theorem classifyOutcome_cases (existing : Option NetworkPolicy) (desired : NetworkPolicy)
    (observed : List String) :
    classifyOutcome existing desired observed = .reconciled observed ∨
      classifyOutcome existing desired observed = .noChange observed := by
  cases existing with
  | none => exact Or.inl rfl
  | some current =>
    by_cases hmatches : managedPolicyMatches current desired
    · exact Or.inr (if_pos hmatches)
    · exact Or.inl (if_neg hmatches)

section Makes
variable {P : Call → Prop} {ns : String}

theorem publishPolicyEvent_makes (hevent : ∀ event reference, P (.publishEvent event reference))
    (policy : CIDRPolicy) (eventType : EventType) (reason action : String) (note : Option String)
    (secondary : Option NetworkPolicy) :
    (publishPolicyEvent policy eventType reason action note secondary).Makes P :=
  ⟨hevent _ _, fun _ => Program.makes_ofExcept _⟩

theorem publishOutcomeEvent_makes (hevent : ∀ event reference, P (.publishEvent event reference))
    (policy : CIDRPolicy) (managed : Option NetworkPolicy) (outcome : ReconcileOutcome) :
    (publishOutcomeEvent policy managed outcome).Makes P := by
  cases outcome with
  | reconciled observed => exact publishPolicyEvent_makes hevent policy _ _ _ _ _
  | noChange observed | failed stage message => trivial

theorem getManagedNetworkPolicy_makes (hget : P (.getNetworkPolicy ns policy.managedNetworkPolicyName))
    (hevent : ∀ event reference, P (.publishEvent event reference)) (action : String) :
    (getManagedNetworkPolicy ns policy action).Makes P := by
  have hfound : (Task.getNetworkPolicy ns policy.managedNetworkPolicyName).Makes P :=
    ⟨hget, fun _ => Program.makes_ofExcept _⟩
  unfold getManagedNetworkPolicy
  refine (hfound.mapError _).bind fun found => ?_
  cases found with
  | none => trivial
  | some np =>
    change (ite _ _ _ : Task _ _).Makes _
    split
    · trivial
    · refine Program.Makes.bind ?_ fun _ => trivial
      exact (publishPolicyEvent_makes hevent policy _ _ _ _ _).mapError _

theorem deleteManagedNetworkPolicy_makes
    (hdelete : P (.deleteNetworkPolicy ns policy.managedNetworkPolicyName)) (exists_ : Bool) :
    (deleteManagedNetworkPolicy ns policy exists_).Makes P := by
  cases exists_ with
  | false => trivial
  | true =>
    have hdeleted : (Task.deleteNetworkPolicy ns policy.managedNetworkPolicyName).Makes P :=
      ⟨hdelete, fun _ => trivial⟩
    refine (hdeleted.mapError _).bind fun answer => ?_
    split <;> trivial

theorem patchStatusForOutcome_makes (hnow : P .utcNow) (hget : P (.getPolicy ns policy.nameAny))
    (hpatch : ∀ params status, P (.patchStatus ns policy.nameAny params status))
    (outcome : ReconcileOutcome) : (patchStatusForOutcome K ns policy outcome).Makes P := by
  have hstatus (status : CIDRPolicyStatus) :
      (Task.patchStatus ns policy.nameAny (PatchParams.apply statusFieldManager) status).Makes P :=
    ⟨hpatch _ _, fun _ => Program.makes_ofExcept _⟩
  cases outcome with
  | reconciled observed | noChange observed => exact ⟨hnow, fun now => hstatus _⟩
  | failed stage message =>
    exact ⟨hget, fun answer => (Program.makes_ofExcept answer).bind fun current => hstatus _⟩

theorem conclude_makes {r : Resolved K} {outcome : ReconcileOutcome} (hnow : P .utcNow)
    (hevent : ∀ event reference, P (.publishEvent event reference))
    (hstatus : (patchStatusForOutcome K r.ns policy outcome).Makes P) :
    (conclude K policy r outcome).Makes P := by
  unfold conclude
  refine (hstatus.mapError _).bind fun _ => ?_
  refine ((publishOutcomeEvent_makes hevent policy _ outcome).mapError _).bind fun _ => ?_
  exact Program.Makes.bind ⟨hnow, fun now => Program.makes_ofExcept _⟩ fun _ => trivial

theorem publish_makes {r : Resolved K}
    (hget : P (.getNetworkPolicy r.ns policy.managedNetworkPolicyName)) (hnow : P .utcNow)
    (hevent : ∀ event reference, P (.publishEvent event reference))
    (happly : (applyManagedNetworkPolicy r.ns r.rendered).Makes P)
    (hstatus : ∀ outcome, outcome = .reconciled r.observed ∨ outcome = .noChange r.observed →
      (patchStatusForOutcome K r.ns policy outcome).Makes P) :
    (publish K policy r).Makes P := by
  unfold publish
  refine (getManagedNetworkPolicy_makes hget hevent _).bind fun existing => ?_
  refine Program.Makes.bind ?_ fun _ => ?_
  · split
    · exact happly.mapError _
    · trivial
  · exact conclude_makes hnow hevent (hstatus _ (classifyOutcome_cases existing _ _))

theorem cleanup_makes
    (hget : ∀ ns, policy.metadata.ns = some ns →
      P (.getNetworkPolicy ns policy.managedNetworkPolicyName))
    (hdelete : ∀ ns, policy.metadata.ns = some ns →
      P (.deleteNetworkPolicy ns policy.managedNetworkPolicyName))
    (hevent : ∀ event reference, P (.publishEvent event reference)) :
    (cleanup policy).Makes P := by
  unfold cleanup
  cases hns : policy.metadata.ns with
  | none => trivial
  | some ns =>
    refine (getManagedNetworkPolicy_makes (hget ns hns) hevent _).bind fun existing => ?_
    refine (deleteManagedNetworkPolicy_makes (hdelete ns hns) _).bind fun deleted => ?_
    exact (publishPolicyEvent_makes hevent policy _ _ _ _ _).mapError _

end Makes

/-- A request to a remote endpoint. -/
def Call.IsRemote : Call → Prop
  | httpGet _ => True
  | _ => False

theorem fetchText_remote (address : NormalizedRemoteAddress) :
    (fetchText K address).Makes Call.IsRemote :=
  ⟨trivial, fun _ => (Program.makes_ofExcept _).bind fun _ => trivial⟩

theorem fetchJson_remote (address : NormalizedRemoteAddress) :
    (fetchJson K address).Makes Call.IsRemote :=
  ⟨trivial, fun _ => (Program.makes_ofExcept _).bind fun _ => Program.makes_ofExcept _⟩

/-- The JSON document that an answer carries. -/
def documentOf (K : Crates) (answer : HttpAnswer) : Except FetchError K.Value := do
  let body ← answer.successBody.mapError .finalRetrieval
  parseJsonBytes K body

theorem documentOf_ok_iff {answer : HttpAnswer} {payload : K.Value} :
    documentOf K answer = .ok payload ↔
      ∃ body, answer.successBody = .ok body ∧ K.parseJson body = .ok payload := by
  simp only [documentOf, parseJsonBytes, bind_ok_iff, mapError_ok_iff]

theorem fetchJson_eq (address : NormalizedRemoteAddress) :
    fetchJson K address =
      .call (I := Calls) (.httpGet address.requestUrl)
        fun answer => .ofExcept (documentOf K answer) := by
  simp only [fetchJson, Task.httpGet, Program.call_bind, Program.ret_bind, Program.call.injEq,
    heq_eq_eq, true_and]
  funext answer
  exact (Program.ofExcept_bind _ _).symm

/-- The source that a pointer body leads to. -/
def targetOf (K : Crates) (base : NormalizedRemoteAddress) (regex : K.Regex) (answer : HttpAnswer) :
    Except FetchError ResolvedSource := do
  let body ← answer.successBody.mapError .pointerRetrieval
  let final ← resolvePointer K regex (K.decodeText body)
  return { baseAddress := base, finalAddress := final, pointerUsed := true }

theorem targetOf_ok_iff {base : NormalizedRemoteAddress} {regex : K.Regex} {answer : HttpAnswer}
    {source : ResolvedSource} :
    targetOf K base regex answer = .ok source ↔ ∃ body final, answer.successBody = .ok body ∧
      resolvePointer K regex (K.decodeText body) = .ok final ∧ source = ⟨base, final, true⟩ := by
  simp only [targetOf, bind_ok_iff, mapError_ok_iff]
  constructor
  · rintro ⟨body, hbody, final, hfinal, h⟩
    exact ⟨body, final, hbody, hfinal, (Except.ok.inj h).symm⟩
  · rintro ⟨body, final, hbody, hfinal, rfl⟩
    exact ⟨body, hbody, final, hfinal, rfl⟩

theorem resolveFinalSource_eq (base : NormalizedRemoteAddress) (regex : K.Regex) :
    resolveFinalSource K base (some regex) =
      .call (I := Calls) (.httpGet base.requestUrl)
        fun answer => .ofExcept (targetOf K base regex answer) := by
  simp only [resolveFinalSource, fetchText, Task.httpGet, Program.call_bind, Program.ret_bind,
    Program.call.injEq, heq_eq_eq, true_and]
  funext answer
  simp only [targetOf, Program.ofExcept_bind, Program.ret_bind, Program.pure_eq, bind_assoc]
  rfl

theorem resolveFinalSource_remote (address : NormalizedRemoteAddress) (regex : Option K.Regex) :
    (resolveFinalSource K address regex).Makes Call.IsRemote := by
  cases regex with
  | none => trivial
  | some regex =>
    exact (fetchText_remote address).bind fun _ => (Program.makes_ofExcept _).bind fun _ => trivial

theorem retrieve_remote (policy : CIDRPolicy) (validated : ValidatedPolicy K) :
    (retrieve K policy validated).Makes Call.IsRemote := by
  unfold retrieve
  refine ((resolveFinalSource_remote _ _).mapError _).bind fun source => ?_
  refine ((fetchJson_remote _).mapError _).bind fun payload => ?_
  exact (Program.makes_ofExcept _).bind fun query => Program.makes_ofExcept _

/-- Resolution asks only remote endpoints. -/
theorem resolve_remote (policy : CIDRPolicy) : (resolve K policy).Makes Call.IsRemote := by
  unfold resolve
  refine (Program.makes_ofExcept _).bind fun validated => ?_
  refine (retrieve_remote policy validated).bind fun cidrs => ?_
  refine (Program.makes_ofExcept _).bind fun rendered => ?_
  exact (Program.makes_ofExcept _).bind fun ns => trivial

end Ipmaze
