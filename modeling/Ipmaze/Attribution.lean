import Ipmaze.Checks
import Ipmaze.Extraction.Exact
import Ipmaze.Reconcile.Stages

/-! Which stage a reconcile reports when it fails before it asks the cluster anything: the first
step of validation, retrieval, evaluation and extraction that could not be completed. -/
namespace Ipmaze
open Effects Checked

namespace HttpAnswer

/-- The request failed, was answered with a client or server error, or lost its body. -/
def Unusable : HttpAnswer → Prop
  | failed _ => True
  | response status body => (400 ≤ status ∧ status < 600) ∨ ∃ error, body = .error error

def Delivers (answer : HttpAnswer) (bytes : List UInt8) : Prop :=
  ∃ status, answer = .response status (.ok bytes) ∧ ¬ (400 ≤ status ∧ status < 600)

theorem successBody_ok_iff {answer : HttpAnswer} {bytes : List UInt8} :
    answer.successBody = .ok bytes ↔ answer.Delivers bytes := by
  cases answer with
  | failed error => simp [successBody, Delivers]
  | response status body =>
    simp only [successBody, Delivers, response.injEq]
    split_ifs with hstatus
    · simp [hstatus]
    · simp [hstatus]

theorem successBody_error_iff {answer : HttpAnswer} :
    (∃ error, answer.successBody = .error error) ↔ answer.Unusable := by
  cases answer with
  | failed error => simp [successBody, Unusable]
  | response status body =>
    simp only [successBody, Unusable]
    split_ifs with hstatus
    · simp [hstatus]
    · simp [hstatus]

end HttpAnswer

/-- A request to the API server. -/
def Call.OfKubernetes : Call → Prop
  | httpGet _ | utcNow => False
  | _ => True

/-- The pattern does not match, its first group is absent or blank, or what it captured is no
address. -/
def CaptureUnusable (K : Crates) (regex : K.Regex) (body : String) : Prop :=
  K.captures regex body = none ∨ ∃ captures, K.captures regex body = some captures ∧
    (captures 1 = none ∨ ∃ text, captures 1 = some text ∧
      (Text.trim text = "" ∨
        ∃ error, normalizeSourceAddress K (Text.trim text) = .error error))

section Pipeline
variable (K : Crates) (policy : CIDRPolicy) (w : World Calls Choice Cluster)

def Accepted : Prop := ∀ check : Check, check.run K policy.spec = .ok ()

/-- The answer to the request for the JSON document, which comes second if there is a pointer. -/
def finalAnswer : HttpAnswer :=
  if policy.spec.source.pointer.isSome then (w.choices 1).http else (w.choices 0).http

/-- Every step before the request for the JSON document was completed. -/
def ReachesFinal : Prop :=
  Accepted K policy ∧ ∀ pointer ∈ policy.spec.source.pointer, ∃ regex bytes,
    K.compileRegex pointer.regex = .ok regex ∧ (w.choices 0).http.Delivers bytes ∧
      ¬ CaptureUnusable K regex (K.decodeText bytes)

def Retrieves (payload : K.Value) : Prop :=
  ReachesFinal K policy w ∧ ∃ bytes, (finalAnswer policy w).Delivers bytes ∧
    K.parseJson bytes = .ok payload

def Evaluates (result : K.Variable) : Prop :=
  ∃ payload query, Retrieves K policy w payload ∧
    K.compileExpression policy.spec.source.jmesPath = .ok query ∧
      evaluateQuery K query payload = .ok result

/-- The first step that fails, with the stage it belongs to. -/
inductive FailsAt : ReconcileStage → Prop
  | jmesPathCompile (hcheck : Check.query.FailsFirst K policy.spec) : FailsAt .jmesPathCompile
  | validation {check : Check} (hcheck : check.FailsFirst K policy.spec)
      (hother : check ≠ .query) : FailsAt .validation
  | pointerRetrieval {pointer : PointerSpec} (hreach : Accepted K policy)
      (hpointer : policy.spec.source.pointer = some pointer)
      (hanswer : (w.choices 0).http.Unusable) : FailsAt .pointerRetrieval
  | pointerExtraction {pointer : PointerSpec} {regex : K.Regex} {bytes : List UInt8}
      (hreach : Accepted K policy) (hpointer : policy.spec.source.pointer = some pointer)
      (hregex : K.compileRegex pointer.regex = .ok regex)
      (hanswer : (w.choices 0).http.Delivers bytes)
      (hcapture : CaptureUnusable K regex (K.decodeText bytes)) : FailsAt .pointerExtraction
  | transport (hreach : ReachesFinal K policy w)
      (hanswer : (finalAnswer policy w).Unusable) : FailsAt .transport
  | jsonDecode {bytes : List UInt8} {error : String} (hreach : ReachesFinal K policy w)
      (hanswer : (finalAnswer policy w).Delivers bytes)
      (hjson : K.parseJson bytes = .error error) : FailsAt .jsonDecode
  | jmesPathEvaluate {payload : K.Value} {query : K.Expression} {error : ExtractionError}
      (hreach : Retrieves K policy w payload)
      (hquery : K.compileExpression policy.spec.source.jmesPath = .ok query)
      (hevaluate : evaluateQuery K query payload = .error error) : FailsAt .jmesPathEvaluate
  | notArray {result : K.Variable} (hreach : Evaluates K policy w result)
      (harray : K.asArray result = none) : FailsAt .resultShape
  | notString {result : K.Variable} {before after : List K.Variable} {value : K.Variable}
      (hreach : Evaluates K policy w result)
      (harray : K.asArray result = some (before ++ value :: after))
      (hbefore : ∀ usable ∈ before, ∃ net, K.Reads usable net)
      (hvalue : K.asString value = none) : FailsAt .resultShape
  | cidrValidation {result : K.Variable} {before after : List K.Variable} {value : K.Variable}
      {text : String} (hreach : Evaluates K policy w result)
      (harray : K.asArray result = some (before ++ value :: after))
      (hbefore : ∀ usable ∈ before, ∃ net, K.Reads usable net)
      (hvalue : K.asString value = some text) (hcidr : K.parseNet text = none) :
      FailsAt .cidrValidation

/-- The reconcile fails with this stage, and never got to ask the cluster anything. -/
def FailsEarly (applied : Apply) (stage : ReconcileStage) : Prop :=
  ∃ error w', (reconcile K policy).run (api applied) w = (.error error, w') ∧
    error.stage = stage ∧ ∀ call ∈ (reconcile K policy).calls (api applied) w, ¬ call.OfKubernetes

end Pipeline

section Steps
variable {K : Crates} {policy : CIDRPolicy} {w : World Calls Choice Cluster} {applied : Apply}
variable {P : ReconcileError → Prop}

/-- The pointer step, given the answer to its request. -/
def pointerStep (K : Crates) (base : NormalizedRemoteAddress) (answer : HttpAnswer) :
    Option K.Regex → Except ReconcileError NormalizedRemoteAddress
  | none => .ok base
  | some regex => do
    let body ← answer.successBody.mapError fun error => .fetch (.pointerRetrieval error)
    (resolvePointer K regex (K.decodeText body)).mapError .fetch

/-- The steps from the request for the JSON document on, given its answer. -/
def finalSteps (K : Crates) (policy : CIDRPolicy) (answer : HttpAnswer) :
    Except ReconcileError (List NormalizedCidr) := do
  let body ← answer.successBody.mapError fun error => .fetch (.finalRetrieval error)
  let payload ← (K.parseJson body).mapError fun error => .fetch (.invalidJson error)
  let query ← (compileQuery K policy.spec.source.jmesPath).mapError
    fun error => .validation (.invalidJmesPath error)
  (extractCidrs K query payload).mapError .extract

theorem run_final (address : NormalizedRemoteAddress) (v : World Calls Choice Cluster) :
    ((do
      let payload ← (fetchJson K address).mapError .fetch
      let query ← .ofExcept ((compileQuery K policy.spec.source.jmesPath).mapError
        fun error => .validation (.invalidJmesPath error))
      .ofExcept ((extractCidrs K query payload).mapError .extract) :
        Task ReconcileError (List NormalizedCidr)).run (api applied) v).1 =
      finalSteps K policy (v.choices 0).http := by
  have hanswer : v.answer (api applied) (.httpGet address.requestUrl) = (v.choices 0).http := rfl
  simp only [fetchJson, Task.httpGet, parseJsonBytes, Program.call_bind, Program.mapError_call,
    Program.run_call, hanswer, finalSteps, Program.ret_bind]
  cases (v.choices 0).http.successBody with
  | error error => rfl
  | ok bytes =>
    cases hjson : K.parseJson bytes with
    | error error => simp [hjson, Except.mapError, bind, Except.bind, Program.bind]
    | ok payload =>
      cases compileQuery K policy.spec.source.jmesPath with
      | error error => simp [hjson, Except.mapError, bind, Except.bind, Program.bind]
      | ok query => simp [hjson, Except.mapError, bind, Except.bind, Program.bind]

theorem targetOf_mapError (base : NormalizedRemoteAddress) (regex : K.Regex)
    (answer : HttpAnswer) : (targetOf K base regex answer).mapError ReconcileError.fetch =
      (pointerStep K base answer (some regex)).map fun final => ⟨base, final, true⟩ := by
  unfold targetOf pointerStep
  cases answer.successBody with
  | error error => rfl
  | ok bytes =>
    change (resolvePointer K regex (K.decodeText bytes) >>= _).mapError _ =
      ((resolvePointer K regex (K.decodeText bytes)).mapError _).map _
    cases resolvePointer K regex (K.decodeText bytes) <;> rfl

theorem run_retrieve (validated : ValidatedPolicy K) :
    ((retrieve K policy validated).run (api applied) w).1 =
      (pointerStep K validated.sourceAddress (w.choices 0).http validated.pointerRegex >>= fun _ =>
        finalSteps K policy
          (if validated.pointerRegex.isSome then (w.choices 1).http else (w.choices 0).http)) := by
  unfold retrieve
  cases hregex : validated.pointerRegex with
  | none => exact run_final _ w
  | some regex =>
    have hanswer : w.answer (api applied) (.httpGet validated.sourceAddress.requestUrl) =
        (w.choices 0).http := rfl
    rw [resolveFinalSource_eq, Program.mapError_call, Program.call_bind, Program.run_call, hanswer,
      Program.mapError_ofExcept, targetOf_mapError]
    cases pointerStep K validated.sourceAddress (w.choices 0).http (some regex) with
    | error error => rfl
    | ok final => exact run_final final _

theorem failsWith_resolve {ns : String} (hns : policy.metadata.ns = some ns) :
    FailsWith P ((resolve K policy).run (api applied) w).1 ↔
      FailsWith (fun e => P (.validation e)) (validatePolicy K policy) ∨
      ∃ validated, validatePolicy K policy = .ok validated ∧
        FailsWith P ((retrieve K policy validated).run (api applied) w).1 := by
  unfold resolve
  cases hvalid : validatePolicy K policy with
  | error e => simp [Except.mapError]
  | ok validated =>
    have hbuild := buildManagedNetworkPolicy_eq (validateSpec_wellFormed hvalid) hns
    simp only [Except.mapError, Program.ofExcept_ok, Program.ret_bind, failsWith_ok, false_or,
      Except.ok.injEq, exists_eq_left', Program.run_bind]
    cases hrun : (retrieve K policy validated).run (api applied) w with
    | mk result w₁ =>
      cases result with
      | error e => simp
      | ok cidrs => simp [hbuild, hns]

theorem failsEarly_iff_resolve (hlive : policy.metadata.deletionTimestamp = none)
    {stage : ReconcileStage} : FailsEarly K policy w applied stage ↔
      FailsWith (fun e => e.stage = stage) ((resolve K policy).run (api applied) w).1 := by
  cases hrun : (resolve K policy).run (api applied) w with
  | mk result w₁ =>
    unfold FailsEarly
    rw [reconcile_eq hlive]
    cases result with
    | error e =>
      rw [Program.run_bind_error _ hrun, Program.calls, Program.events_bind_error _ hrun]
      have hcalls : ∀ call ∈ ((resolve K policy).events (api applied) w).map Sigma.fst,
          ¬ Call.OfKubernetes call := by
        intro call hcall
        have hremote := (resolve_remote policy).calls (api applied) w call hcall
        cases call with
        | httpGet url => exact id
        | _ => exact hremote.elim
      constructor
      · rintro ⟨error, w', herror, hstage, -⟩
        cases herror
        exact ⟨_, rfl, hstage⟩
      · rintro ⟨error, herror, hstage⟩
        cases herror
        exact ⟨_, _, rfl, hstage, hcalls⟩
    | ok r =>
      refine iff_of_false ?_ (failsWith_ok r)
      rintro ⟨error, w', -, -, hcalls⟩
      refine hcalls (.getNetworkPolicy r.ns policy.managedNetworkPolicyName) ?_ trivial
      rw [Program.calls, Program.events_bind_ok _ hrun, List.map_append, publish,
        getManagedNetworkPolicy_bind]
      exact List.mem_append_right _ (List.mem_cons_self ..)

section Stages
variable {stage : ReconcileStage}

/-- All validation errors but one kind have the stage of validation. -/
def ValidationError.Plain (error : ValidationError) : Prop :=
  (ReconcileError.validation error).stage = .validation

theorem validateSelector_plain (selector : LabelSelector) :
    FailsOnlyWith ValidationError.Plain (validateSelector selector) := by
  unfold validateSelector
  split
  next requirements _ =>
    apply failsOnlyWith_forM
    intro requirement _
    unfold validateSelectorRequirement
    split
    · exact (failsOnlyWith_error _).mpr rfl
    · repeat' split
      all_goals first | exact failsOnlyWith_ok _ | exact (failsOnlyWith_error _).mpr rfl
  next => exact failsOnlyWith_ok _

theorem validateOptionalSelector_plain (selector : Option LabelSelector) :
    FailsOnlyWith ValidationError.Plain (validateOptionalSelector selector) := by
  cases selector with
  | none => exact failsOnlyWith_ok _
  | some selector => exact validateSelector_plain selector

theorem validateRule_plain (rule : RuleSpec) :
    FailsOnlyWith ValidationError.Plain (validateRule rule) := by
  unfold validateRule
  split_ifs
  · exact (failsOnlyWith_error _).mpr rfl
  · exact (failsOnlyWith_error _).mpr rfl
  · exact (validateOptionalSelector_plain _).bind fun _ _ => validateOptionalSelector_plain _

theorem check_plain {check : Check} (h : check ≠ .query) :
    FailsOnlyWith ValidationError.Plain (check.run K policy.spec) := by
  cases check with
  | query => exact absurd rfl h
  | rulesPresent =>
    unfold Check.run
    split_ifs
    · exact (failsOnlyWith_error _).mpr rfl
    · exact failsOnlyWith_ok _
  | sourceAddress =>
    refine FailsOnlyWith.bind ?_ fun _ _ => failsOnlyWith_ok _
    apply failsOnlyWith_mapError
    intro error
    rfl
  | pointerRegex =>
    refine FailsOnlyWith.bind ?_ fun _ _ => failsOnlyWith_ok _
    unfold validatePointerRegex
    split
    · exact failsOnlyWith_ok _
    · refine FailsOnlyWith.bind ?_ fun _ _ => failsOnlyWith_ok _
      apply failsOnlyWith_mapError
      intro error
      rfl
  | schedule =>
    refine FailsOnlyWith.bind ?_ fun _ _ => failsOnlyWith_ok _
    simp only [validateResyncSchedule]
    split_ifs
    · exact (failsOnlyWith_error _).mpr rfl
    · apply failsOnlyWith_mapError
      intro error
      rfl
  | target => exact validateSelector_plain _
  | rules => exact failsOnlyWith_forM fun rule _ => validateRule_plain rule

theorem query_failsWith {P : ValidationError → Prop} :
    FailsWith P (Check.query.run K policy.spec) ↔
      ∃ error, K.compileExpression policy.spec.source.jmesPath = .error error ∧
        P (.invalidJmesPath error) := by
  simp only [Check.run, compileQuery, failsWith_bind, failsWith_pure, and_false, exists_false,
    or_false, failsWith_mapError]
  rfl

/-- Whichever way a capture is of no use, the stage is that of extraction. -/
theorem failsWith_resolvePointer {regex : K.Regex} {body : String} :
    FailsWith (fun e => (ReconcileError.fetch e).stage = stage) (resolvePointer K regex body) ↔
      .pointerExtraction = stage ∧ CaptureUnusable K regex body := by
  unfold resolvePointer CaptureUnusable
  cases hcaptures : K.captures regex body with
  | none => simp [ReconcileError.stage]
  | some captures =>
    cases hgroup : captures 1 with
    | none => simp [hgroup, ReconcileError.stage]
    | some text =>
      by_cases hblank : Text.trim text = ""
      · simp [hgroup, hblank, Option.filter, ReconcileError.stage]
      · simp [hgroup, hblank, Option.filter, failsWith_mapError, ReconcileError.stage,
          failsWith_const]

theorem failsWith_pointerStep {base : NormalizedRemoteAddress} {answer : HttpAnswer}
    {regex : K.Regex} :
    FailsWith (fun e => e.stage = stage) (pointerStep K base answer (some regex)) ↔
      (.pointerRetrieval = stage ∧ answer.Unusable) ∨
      ∃ bytes, answer.Delivers bytes ∧ .pointerExtraction = stage ∧
        CaptureUnusable K regex (K.decodeText bytes) := by
  simp only [pointerStep, failsWith_bind, failsWith_mapError, mapError_ok_iff,
    HttpAnswer.successBody_ok_iff, failsWith_resolvePointer]
  simp only [ReconcileError.stage, failsWith_const, HttpAnswer.successBody_error_iff]

theorem pointerStep_ok_iff {base : NormalizedRemoteAddress} {answer : HttpAnswer}
    {regex : K.Regex} : (∃ address, pointerStep K base answer (some regex) = .ok address) ↔
      ∃ bytes, answer.Delivers bytes ∧ ¬ CaptureUnusable K regex (K.decodeText bytes) := by
  rw [exists_ok_iff ReconcileError.stage]
  simp only [failsWith_pointerStep, not_or, not_and, not_exists, forall_and, forall_eq']
  rw [← HttpAnswer.successBody_error_iff]
  simp only [← HttpAnswer.successBody_ok_iff]
  cases answer.successBody <;> simp

theorem failsWith_evaluateQuery {query : K.Expression} {payload : K.Value} :
    FailsWith (fun e => (ReconcileError.extract e).stage = stage) (evaluateQuery K query payload) ↔
      .jmesPathEvaluate = stage ∧ ∃ error, evaluateQuery K query payload = .error error := by
  rw [← failsWith_const]
  unfold evaluateQuery
  simp only [failsWith_bind, failsWith_mapError, ReconcileError.stage]

theorem failsWith_readArray {result : K.Variable} :
    FailsWith (fun e => (ReconcileError.extract e).stage = stage) (readArray K result) ↔
      .resultShape = stage ∧ K.asArray result = none := by
  unfold readArray
  cases K.asArray result <;> simp [ReconcileError.stage]

theorem failsWith_readNet {value : K.Variable} :
    FailsWith (fun e => (ReconcileError.extract e).stage = stage) (readNet K value) ↔
      (.resultShape = stage ∧ K.asString value = none) ∨
      (.cidrValidation = stage ∧ ∃ text, K.asString value = some text ∧
        K.parseNet text = none) := by
  unfold readNet
  cases hstring : K.asString value with
  | none => simp [ReconcileError.stage]
  | some text =>
    cases hnet : K.parseNet text with
    | none => simp [hnet, ReconcileError.stage]
    | some net => simp [hnet]

/-- Extraction fails over the evaluation, the shape of the result or its first unusable element. -/
theorem failsWith_extractCidrs {query : K.Expression} {payload : K.Value} :
    FailsWith (fun e => (ReconcileError.extract e).stage = stage) (extractCidrs K query payload) ↔
      (.jmesPathEvaluate = stage ∧ ∃ error, evaluateQuery K query payload = .error error) ∨
      ∃ result, evaluateQuery K query payload = .ok result ∧
        ((.resultShape = stage ∧ K.asArray result = none) ∨
        ∃ before value after, K.asArray result = some (before ++ value :: after) ∧
          (∀ usable ∈ before, ∃ net, K.Reads usable net) ∧
          ((.resultShape = stage ∧ K.asString value = none) ∨
          (.cidrValidation = stage ∧ ∃ text, K.asString value = some text ∧
            K.parseNet text = none))) := by
  simp only [extractCidrs_eq, failsWith_bind, failsWith_pure, and_false, exists_false, or_false,
    failsWith_evaluateQuery, failsWith_readArray, readArray_ok_iff, failsWith_mapM,
    failsWith_readNet, readNet_ok_iff]
  constructor
  · rintro (h | ⟨result, hresult, h | ⟨values, hvalues, before, value, after, rfl, h⟩⟩)
    · exact Or.inl h
    · exact Or.inr ⟨result, hresult, Or.inl h⟩
    · exact Or.inr ⟨result, hresult, Or.inr ⟨before, value, after, hvalues, h⟩⟩
  · rintro (h | ⟨result, hresult, h | ⟨before, value, after, hvalues, h⟩⟩)
    · exact Or.inl h
    · exact Or.inr ⟨result, hresult, Or.inl h⟩
    · exact Or.inr ⟨result, hresult, Or.inr ⟨_, hvalues, before, value, after, rfl, h⟩⟩

theorem failsWith_finalSteps {answer : HttpAnswer} {query : K.Expression}
    (hquery : K.compileExpression policy.spec.source.jmesPath = .ok query) :
    FailsWith (fun e => e.stage = stage) (finalSteps K policy answer) ↔
      (.transport = stage ∧ answer.Unusable) ∨
      ∃ bytes, answer.Delivers bytes ∧
        ((.jsonDecode = stage ∧ ∃ error, K.parseJson bytes = .error error) ∨
        ∃ payload, K.parseJson bytes = .ok payload ∧
          FailsWith (fun e => (ReconcileError.extract e).stage = stage)
            (extractCidrs K query payload)) := by
  simp only [finalSteps, compileQuery, hquery, failsWith_bind, failsWith_mapError, mapError_ok_iff,
    HttpAnswer.successBody_ok_iff, failsWith_ok, false_or, Except.ok.injEq, exists_eq_left']
  simp only [ReconcileError.stage, failsWith_const, HttpAnswer.successBody_error_iff]

end Stages
section Accepted
variable {ns : String} {validated : ValidatedPolicy K}

theorem accepted_iff : Accepted K policy ↔
    ∃ validated, validatePolicy K policy = .ok validated := exists_validateSpec_ok_iff.symm

theorem compiles_of_accepted (h : Accepted K policy) :
    ∃ query, K.compileExpression policy.spec.source.jmesPath = .ok query := by
  obtain ⟨query, hquery, -⟩ := bind_ok_iff.mp (h .query)
  exact ⟨query, mapError_ok_iff.mp hquery⟩

/-- The pattern validation compiled is there exactly if the spec has a pointer. -/
theorem pointerRegex_cases (hvalid : validatePolicy K policy = .ok validated) :
    (policy.spec.source.pointer = none ∧ validated.pointerRegex = none) ∨
      ∃ pointer regex, policy.spec.source.pointer = some pointer ∧
        K.compileRegex pointer.regex = .ok regex ∧ validated.pointerRegex = some regex := by
  obtain ⟨-, hregex, -⟩ := validateSpec_fields hvalid
  cases hpointer : policy.spec.source.pointer with
  | none =>
    rw [hpointer] at hregex
    exact Or.inl ⟨rfl, (Except.ok.inj hregex).symm⟩
  | some pointer =>
    rw [hpointer] at hregex
    obtain ⟨regex, hcompiled, h⟩ := bind_ok_iff.mp hregex
    exact Or.inr ⟨pointer, regex, rfl, mapError_ok_iff.mp hcompiled, (Except.ok.inj h).symm⟩

theorem reachesFinal_iff (hvalid : validatePolicy K policy = .ok validated) :
    ReachesFinal K policy w ↔ ∃ address,
      pointerStep K validated.sourceAddress (w.choices 0).http validated.pointerRegex =
        .ok address := by
  have haccepted : Accepted K policy := accepted_iff.mpr ⟨validated, hvalid⟩
  rcases pointerRegex_cases hvalid with
    ⟨hpointer, hregex⟩ | ⟨pointer, regex, hpointer, hcompiled, hregex⟩
  · rw [hregex]
    simp [ReachesFinal, haccepted, hpointer, pointerStep]
  · rw [hregex, pointerStep_ok_iff]
    simp [ReachesFinal, haccepted, hpointer, hcompiled]

end Accepted

section Main
variable {ns : String} {validated : ValidatedPolicy K} {stage : ReconcileStage}

theorem finalAnswer_eq (hvalid : validatePolicy K policy = .ok validated) :
    (if validated.pointerRegex.isSome then (w.choices 1).http else (w.choices 0).http) =
      finalAnswer policy w := by
  unfold finalAnswer
  rcases pointerRegex_cases hvalid with ⟨hpointer, hregex⟩ | ⟨pointer, regex, hpointer, -, hregex⟩
  · rw [hpointer, hregex]
    rfl
  · rw [hpointer, hregex]
    rfl

theorem failsAt_of_check {check : Check} (h : check.FailsFirst K policy.spec)
    (hstage : FailsWith (fun e => (ReconcileError.validation e).stage = stage)
      (check.run K policy.spec)) : FailsAt K policy w stage := by
  by_cases hcheck : check = .query
  · subst hcheck
    obtain ⟨error, -, rfl⟩ := query_failsWith.mp hstage
    exact .jmesPathCompile h
  · obtain ⟨error, herror, rfl⟩ := hstage
    rw [check_plain hcheck error herror]
    exact .validation h hcheck

theorem failsAt_of_pointerStep (hvalid : validatePolicy K policy = .ok validated)
    (h : FailsWith (fun e => e.stage = stage)
      (pointerStep K validated.sourceAddress (w.choices 0).http validated.pointerRegex)) :
    FailsAt K policy w stage := by
  have haccepted : Accepted K policy := accepted_iff.mpr ⟨validated, hvalid⟩
  rcases pointerRegex_cases hvalid with
    ⟨hpointer, hregex⟩ | ⟨pointer, regex, hpointer, hcompiled, hregex⟩
  · rw [hregex] at h
    exact absurd h (failsWith_ok _)
  · rw [hregex, failsWith_pointerStep] at h
    rcases h with ⟨rfl, hanswer⟩ | ⟨bytes, hanswer, rfl, hcapture⟩
    · exact .pointerRetrieval haccepted hpointer hanswer
    · exact .pointerExtraction haccepted hpointer hcompiled hanswer hcapture

theorem failsAt_of_finalSteps {query : K.Expression}
    (hquery : K.compileExpression policy.spec.source.jmesPath = .ok query)
    (hreach : ReachesFinal K policy w)
    (h : FailsWith (fun e => e.stage = stage) (finalSteps K policy (finalAnswer policy w))) :
    FailsAt K policy w stage := by
  rcases (failsWith_finalSteps hquery).mp h with
    ⟨rfl, hanswer⟩ | ⟨bytes, hanswer, ⟨rfl, error, hjson⟩ | ⟨payload, hjson, h⟩⟩
  · exact .transport hreach hanswer
  · exact .jsonDecode hreach hanswer hjson
  · have hretrieved : Retrieves K policy w payload := ⟨hreach, bytes, hanswer, hjson⟩
    rcases failsWith_extractCidrs.mp h with ⟨rfl, error, hevaluate⟩ | ⟨result, hresult, h⟩
    · exact .jmesPathEvaluate hretrieved hquery hevaluate
    · have hevaluated : Evaluates K policy w result :=
        ⟨payload, query, hretrieved, hquery, hresult⟩
      rcases h with ⟨rfl, harray⟩ | ⟨before, value, after, harray, hbefore, h⟩
      · exact .notArray hevaluated harray
      · rcases h with ⟨rfl, hvalue⟩ | ⟨rfl, text, hvalue, hcidr⟩
        · exact .notString hevaluated harray hbefore hvalue
        · exact .cidrValidation hevaluated harray hbefore hvalue hcidr

/-- A reconcile gets as far as its checks, the pointer and the document let it. -/
theorem failsEarly_cases (hlive : policy.metadata.deletionTimestamp = none)
    (hns : policy.metadata.ns = some ns) : FailsEarly K policy w applied stage ↔
      (∃ check : Check, check.FailsFirst K policy.spec ∧
        FailsWith (fun e => (ReconcileError.validation e).stage = stage)
          (check.run K policy.spec)) ∨
      ∃ validated, validatePolicy K policy = .ok validated ∧
        (FailsWith (fun e => e.stage = stage)
          (pointerStep K validated.sourceAddress (w.choices 0).http validated.pointerRegex) ∨
        ReachesFinal K policy w ∧
          FailsWith (fun e => e.stage = stage) (finalSteps K policy (finalAnswer policy w))) := by
  rw [failsEarly_iff_resolve hlive, failsWith_resolve hns, validatePolicy, failsWith_validateSpec]
  refine or_congr_right (exists_congr fun validated => and_congr_right fun hvalid => ?_)
  rw [run_retrieve, finalAnswer_eq hvalid, failsWith_bind, reachesFinal_iff hvalid]
  simp only [exists_and_right]

section Reached
variable (hlive : policy.metadata.deletionTimestamp = none) (hns : policy.metadata.ns = some ns)
include hlive hns

theorem failsEarly_of_pointer {pointer : PointerSpec} (haccepted : Accepted K policy)
    (hpointer : policy.spec.source.pointer = some pointer)
    (h : ∀ base regex, K.compileRegex pointer.regex = .ok regex →
      FailsWith (fun e => e.stage = stage)
        (pointerStep K base (w.choices 0).http (some regex))) :
    FailsEarly K policy w applied stage := by
  obtain ⟨validated, hvalid⟩ := accepted_iff.mp haccepted
  refine (failsEarly_cases hlive hns).mpr (Or.inr ⟨validated, hvalid, Or.inl ?_⟩)
  rcases pointerRegex_cases hvalid with ⟨hnone, -⟩ | ⟨pointer', regex, hsome, hcompiled, hregex⟩
  · rw [hpointer] at hnone
    cases hnone
  · cases hpointer.symm.trans hsome
    rw [hregex]
    exact h validated.sourceAddress regex hcompiled

theorem failsEarly_of_final (hreach : ReachesFinal K policy w)
    (h : FailsWith (fun e => e.stage = stage) (finalSteps K policy (finalAnswer policy w))) :
    FailsEarly K policy w applied stage := by
  obtain ⟨validated, hvalid⟩ := accepted_iff.mp hreach.1
  exact (failsEarly_cases hlive hns).mpr (Or.inr ⟨validated, hvalid, Or.inr ⟨hreach, h⟩⟩)

theorem failsEarly_of_evaluates {result : K.Variable} (h : Evaluates K policy w result)
    (hshape : (.resultShape = stage ∧ K.asArray result = none) ∨
      ∃ before value after, K.asArray result = some (before ++ value :: after) ∧
        (∀ usable ∈ before, ∃ net, K.Reads usable net) ∧
        ((.resultShape = stage ∧ K.asString value = none) ∨
        (.cidrValidation = stage ∧ ∃ text, K.asString value = some text ∧
          K.parseNet text = none))) :
    FailsEarly K policy w applied stage := by
  obtain ⟨payload, query, ⟨hreach, bytes, hanswer, hjson⟩, hquery, hresult⟩ := h
  refine failsEarly_of_final hlive hns hreach ((failsWith_finalSteps hquery).mpr ?_)
  have hextract := failsWith_extractCidrs.mpr (Or.inr ⟨result, hresult, hshape⟩)
  exact Or.inr ⟨bytes, hanswer, Or.inr ⟨payload, hjson, hextract⟩⟩

theorem FailsAt.failsEarly (h : FailsAt K policy w stage) :
    FailsEarly K policy w applied stage := by
  cases h with
  | jmesPathCompile hcheck =>
    obtain ⟨error, herror⟩ := hcheck.fails
    have hfails : FailsWith (fun _ => True) (Check.query.run K policy.spec) :=
      ⟨error, herror, trivial⟩
    obtain ⟨error', hcompile, -⟩ := query_failsWith.mp hfails
    refine (failsEarly_cases hlive hns).mpr (Or.inl ⟨.query, hcheck, ?_⟩)
    exact query_failsWith.mpr ⟨error', hcompile, rfl⟩
  | @validation check hcheck hother =>
    obtain ⟨error, herror⟩ := hcheck.fails
    have hstage := check_plain hother error herror
    exact (failsEarly_cases hlive hns).mpr (Or.inl ⟨check, hcheck, error, herror, hstage⟩)
  | pointerRetrieval haccepted hpointer hanswer =>
    apply failsEarly_of_pointer hlive hns haccepted hpointer
    intro base regex _
    exact failsWith_pointerStep.mpr (Or.inl ⟨rfl, hanswer⟩)
  | pointerExtraction haccepted hpointer hcompiled hanswer hcapture =>
    apply failsEarly_of_pointer hlive hns haccepted hpointer
    intro base regex hregex
    cases hcompiled.symm.trans hregex
    exact failsWith_pointerStep.mpr (Or.inr ⟨_, hanswer, rfl, hcapture⟩)
  | transport hreach hanswer =>
    obtain ⟨query, hquery⟩ := compiles_of_accepted hreach.1
    apply failsEarly_of_final hlive hns hreach
    exact (failsWith_finalSteps hquery).mpr (Or.inl ⟨rfl, hanswer⟩)
  | jsonDecode hreach hanswer hjson =>
    obtain ⟨query, hquery⟩ := compiles_of_accepted hreach.1
    apply failsEarly_of_final hlive hns hreach
    exact (failsWith_finalSteps hquery).mpr (Or.inr ⟨_, hanswer, Or.inl ⟨rfl, _, hjson⟩⟩)
  | @jmesPathEvaluate payload query error hretrieved hquery hevaluate =>
    obtain ⟨hreach, bytes, hanswer, hjson⟩ := hretrieved
    have hextract := failsWith_extractCidrs.mpr (Or.inl ⟨rfl, error, hevaluate⟩)
    apply failsEarly_of_final hlive hns hreach
    refine (failsWith_finalSteps hquery).mpr (Or.inr ⟨bytes, hanswer, Or.inr ?_⟩)
    exact ⟨payload, hjson, hextract⟩
  | notArray hevaluated harray =>
    exact failsEarly_of_evaluates hlive hns hevaluated (Or.inl ⟨rfl, harray⟩)
  | notString hevaluated harray hbefore hvalue =>
    apply failsEarly_of_evaluates hlive hns hevaluated
    exact Or.inr ⟨_, _, _, harray, hbefore, Or.inl ⟨rfl, hvalue⟩⟩
  | cidrValidation hevaluated harray hbefore hvalue hcidr =>
    apply failsEarly_of_evaluates hlive hns hevaluated
    exact Or.inr ⟨_, _, _, harray, hbefore, Or.inr ⟨rfl, _, hvalue, hcidr⟩⟩

/-- A live policy with a namespace fails early exactly at the first step that fails, and with the
stage of that step. -/
theorem failsEarly_iff (K : Crates) (applied : Apply) (w : World Calls Choice Cluster)
    (stage : ReconcileStage) :
    FailsEarly K policy w applied stage ↔ FailsAt K policy w stage := by
  refine ⟨fun h => ?_, fun h => h.failsEarly hlive hns⟩
  rcases (failsEarly_cases hlive hns).mp h with
    ⟨check, hfirst, hstage⟩ | ⟨validated, hvalid, hpointer | ⟨hreach, hfinal⟩⟩
  · exact failsAt_of_check hfirst hstage
  · exact failsAt_of_pointerStep hvalid hpointer
  · obtain ⟨query, hquery⟩ := compiles_of_accepted hreach.1
    exact failsAt_of_finalSteps hquery hreach hfinal

end Reached

end Main

end Steps
open Sample in
theorem failsEarly_iff_unavailable : FailsEarly crates policy
    { worldAt (cluster policy none) 0 with
      choices _ := { choice 0 with http := .response 503 (.ok []) } } replace .transport := by
  have haccepted : Accepted crates policy := by
    intro check
    cases check <;> rfl
  have hns : policy.metadata.ns = some "payments" := rfl
  refine (failsEarly_iff rfl hns crates replace _ .transport).mpr (.transport ⟨haccepted, ?_⟩ ?_)
  · intro pointer hpointer
    cases hpointer
  · exact Or.inl ⟨by decide, by decide⟩

end Ipmaze
