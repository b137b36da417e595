import Ipmaze.Addresses.Pointer
import Ipmaze.Reconcile.Clocks

/-! A pointer beside its target configured directly. The two reconciles take different routes to
the final address and are the same program from there on. -/
namespace Ipmaze
open Effects Checked

/-- The same policy with a text as its address and no pointer. -/
def CIDRPolicy.direct (policy : CIDRPolicy) (text : String) : CIDRPolicy :=
  { policy with spec := { policy.spec with
    source := { policy.spec.source with address := text, pointer := none } } }

section FromFinal
variable (K : Crates)

/-- A reconcile from the JSON document on. -/
def fromPayload (policy : CIDRPolicy) (schedule : K.Schedule) (final : NormalizedRemoteAddress)
    (payload : K.Value) : Task ReconcileError Action := do
  let query ← .ofExcept ((compileQuery K policy.spec.source.jmesPath).mapError
    fun error => .validation (.invalidJmesPath error))
  let cidrs ← .ofExcept ((extractCidrs K query payload).mapError .extract)
  let rendered ← .ofExcept ((buildManagedNetworkPolicy policy cidrs).mapError .render)
  let ns ← .ofExcept (policy.metadata.ns.elim (.error (.render .missingNamespace)) .ok)
  let validated := { sourceAddress := final, pointerRegex := none, resyncSchedule := schedule }
  publish K policy { validated, cidrs, rendered, ns }

/-- A reconcile from the final address on. -/
def fromFinal (policy : CIDRPolicy) (schedule : K.Schedule) (final : NormalizedRemoteAddress) :
    Task ReconcileError Action :=
  (fetchJson K final).mapError .fetch >>= fromPayload K policy schedule final

variable {K} {policy : CIDRPolicy} {validated : ValidatedPolicy K}

theorem reconcile_eq_fromFinal (hlive : policy.metadata.deletionTimestamp = none)
    (hvalid : validatePolicy K policy = .ok validated) :
    reconcile K policy =
      ((resolveFinalSource K validated.sourceAddress validated.pointerRegex).mapError .fetch >>=
        fun source => fromFinal K policy validated.resyncSchedule source.finalAddress) := by
  rw [reconcile_eq hlive, resolve, hvalid]
  simp only [retrieve, Except.mapError, Program.ofExcept_ok, Program.ret_bind, bind_assoc]
  rfl

theorem patchStatusForOutcome_direct (ns text : String) (outcome : ReconcileOutcome) :
    patchStatusForOutcome K ns (policy.direct text) outcome =
      patchStatusForOutcome K ns policy outcome := by
  cases outcome <;> rfl

theorem publishOutcomeEvent_direct (text : String) (managed : Option NetworkPolicy)
    (outcome : ReconcileOutcome) :
    publishOutcomeEvent (policy.direct text) managed outcome =
      publishOutcomeEvent policy managed outcome := by
  cases outcome <;> rfl

/-- Nothing after the final address depends on how it was found. -/
theorem fromFinal_direct (text : String) (schedule : K.Schedule)
    (final : NormalizedRemoteAddress) :
    fromFinal K (policy.direct text) schedule final = fromFinal K policy schedule final := by
  have hpayload : fromPayload K (policy.direct text) schedule final =
      fromPayload K policy schedule final := by
    funext payload
    simp only [fromPayload, publish, conclude, patchStatusForOutcome_direct,
      publishOutcomeEvent_direct]
    rfl
  rw [fromFinal, hpayload, fromFinal]

theorem fromFinal_coupled (policy : CIDRPolicy) (schedule : K.Schedule)
    (final : NormalizedRemoteAddress) :
    Program.Coupled clocks SameUnlessScheduling (fromFinal K policy schedule final)
      (fromFinal K policy schedule final) := by
  have hsame (e : ReconcileError) : SameUnlessScheduling (.error e) (.error e) :=
    fun _ _ => Iff.rfl
  have hremote (call : Call) (h : call.IsRemote) : call.Timeless := by
    cases call with
    | httpGet url => exact ⟨by simp, id⟩
    | _ => exact h.elim
  have hfetch := ((fetchJson_remote (K := K) final).mono hremote).mapError ReconcileError.fetch
  unfold fromFinal
  refine (coupled_self hfetch).bind_eq hsame fun payload => ?_
  unfold fromPayload
  refine (coupled_self (Program.makes_ofExcept _)).bind_eq hsame fun query => ?_
  refine (coupled_self (Program.makes_ofExcept _)).bind_eq hsame fun cidrs => ?_
  refine (coupled_self (Program.makes_ofExcept _)).bind_eq hsame fun rendered => ?_
  refine (coupled_self (Program.makes_ofExcept _)).bind_eq hsame fun ns => ?_
  exact publish_coupled policy _

/-- The JSON document is the only thing requested, and it is requested first. -/
theorem calls_fromFinal (policy : CIDRPolicy) (schedule : K.Schedule)
    (final : NormalizedRemoteAddress) (applied : Apply) (w : World Calls Choice Cluster) :
    ∃ rest, (fromFinal K policy schedule final).calls (api applied) w =
      .httpGet final.requestUrl :: rest ∧ ∀ call ∈ rest, call.IsLocal := by
  have hpayload (payload : K.Value) :
      (fromPayload K policy schedule final payload).Makes Call.IsLocal := by
    unfold fromPayload
    refine (Program.makes_ofExcept _).bind fun query => ?_
    refine (Program.makes_ofExcept _).bind fun cidrs => ?_
    refine (Program.makes_ofExcept _).bind fun rendered => ?_
    exact (Program.makes_ofExcept _).bind fun ns => publish_local policy _
  rw [fromFinal, fetchJson_eq]
  exact ⟨_, rfl, (((Program.makes_ofExcept _).mapError _).bind hpayload).calls _ _⟩

end FromFinal

section Routes
variable {K : Crates} {policy : CIDRPolicy} {validated : ValidatedPolicy K} {text : String}

/-- A policy is accepted with the target of its pointer as its address, if the target is. -/
theorem validatePolicy_direct {final : NormalizedRemoteAddress}
    (hvalid : validatePolicy K policy = .ok validated)
    (hfinal : normalizeSourceAddress K text = .ok final) :
    validatePolicy K (policy.direct text) =
      .ok { validated with sourceAddress := final, pointerRegex := none } := by
  obtain ⟨hrules, -, -, hquery, hschedule, htarget, hall⟩ := validateSpec_ok_iff.mp hvalid
  exact validateSpec_ok_iff.mpr ⟨hrules, hfinal, rfl, hquery, hschedule, htarget, hall⟩

theorem validatePolicy_direct_error {error : SourceAddressError}
    (hvalid : validatePolicy K policy = .ok validated)
    (herror : normalizeSourceAddress K text = .error error) :
    validatePolicy K (policy.direct text) = .error (.invalidSourceAddress error) := by
  obtain ⟨hrules, -⟩ := validateSpec_ok_iff.mp hvalid
  have hdirect : (policy.direct text).spec.rules ≠ [] := hrules
  have haddress : (policy.direct text).spec.source.address = text := rfl
  rw [validatePolicy, validateSpec, if_neg hdirect, haddress, herror]
  rfl

theorem reconcile_direct {final : NormalizedRemoteAddress}
    (hlive : policy.metadata.deletionTimestamp = none)
    (hvalid : validatePolicy K policy = .ok validated)
    (hfinal : normalizeSourceAddress K text = .ok final) :
    reconcile K (policy.direct text) = fromFinal K policy validated.resyncSchedule final := by
  have hdirect : (policy.direct text).metadata.deletionTimestamp = none := hlive
  rw [reconcile_eq_fromFinal hdirect (validatePolicy_direct hvalid hfinal)]
  simp only [resolveFinalSource, Program.pure_eq, Program.mapError_ret, Program.ret_bind,
    fromFinal_direct]

theorem reconcile_pointer {regex : K.Regex} (hlive : policy.metadata.deletionTimestamp = none)
    (hvalid : validatePolicy K policy = .ok validated)
    (hregex : validated.pointerRegex = some regex) :
    reconcile K policy = .call (I := Calls) (.httpGet validated.sourceAddress.requestUrl)
      fun answer => .ofExcept ((targetOf K validated.sourceAddress regex answer).mapError .fetch) >>=
        fun source => fromFinal K policy validated.resyncSchedule source.finalAddress := by
  rw [reconcile_eq_fromFinal hlive hvalid, hregex, resolveFinalSource_eq, Program.mapError_call,
    Program.call_bind]
  simp only [Program.mapError_ofExcept]

/-- Past the pointer body a reconcile is one of the address read from it. -/
theorem run_reconcile_pointer {regex : K.Regex} {applied : Apply}
    {w : World Calls Choice Cluster} {bytes : List UInt8}
    (hlive : policy.metadata.deletionTimestamp = none)
    (hvalid : validatePolicy K policy = .ok validated)
    (hregex : validated.pointerRegex = some regex)
    (hbody : (w.choices 0).http.Delivers bytes) :
    (reconcile K policy).run (api applied) w =
      (.ofExcept ((resolvePointer K regex (K.decodeText bytes)).mapError .fetch) >>=
        fromFinal K policy validated.resyncSchedule : Task ReconcileError Action).run (api applied)
          (w.after (api applied) (.httpGet validated.sourceAddress.requestUrl)) := by
  have hanswer : w.answer (api applied) (.httpGet validated.sourceAddress.requestUrl) =
      (w.choices 0).http := rfl
  rw [reconcile_pointer hlive hvalid hregex, Program.run_call, hanswer, targetOf_eq hbody]
  cases resolvePointer K regex (K.decodeText bytes) <;> rfl

theorem calls_reconcile_pointer {regex : K.Regex} {applied : Apply}
    {w : World Calls Choice Cluster} {bytes : List UInt8}
    (hlive : policy.metadata.deletionTimestamp = none)
    (hvalid : validatePolicy K policy = .ok validated)
    (hregex : validated.pointerRegex = some regex)
    (hbody : (w.choices 0).http.Delivers bytes) :
    (reconcile K policy).calls (api applied) w = .httpGet validated.sourceAddress.requestUrl ::
      (.ofExcept ((resolvePointer K regex (K.decodeText bytes)).mapError .fetch) >>=
        fromFinal K policy validated.resyncSchedule : Task ReconcileError Action).calls (api applied)
          (w.after (api applied) (.httpGet validated.sourceAddress.requestUrl)) := by
  have hanswer : w.answer (api applied) (.httpGet validated.sourceAddress.requestUrl) =
      (w.choices 0).http := rfl
  rw [reconcile_pointer hlive hvalid hregex, Program.calls_call, hanswer, targetOf_eq hbody]
  cases resolvePointer K regex (K.decodeText bytes) <;> rfl

/-- The same crates with another way to match. -/
abbrev Crates.capturing (K : Crates) (captures : K.Regex → String → Option (ℕ → Option String)) :
    Crates :=
  { K with captures }

section Captures
variable (captures : K.Regex → String → Option (ℕ → Option String))

theorem normalizeSourceAddress_captures (address : String) :
    normalizeSourceAddress (K.capturing captures) address = normalizeSourceAddress K address := by
  simp only [normalizeSourceAddress]

/-- Validation captures nothing. -/
theorem validatePolicy_captures (hvalid : validatePolicy K policy = .ok validated) :
    validatePolicy (K.capturing captures) policy =
      .ok ⟨validated.sourceAddress, validated.pointerRegex, validated.resyncSchedule⟩ := by
  obtain ⟨hrules, haddress, hregex, hquery, hschedule, htarget, hall⟩ :=
    validateSpec_ok_iff.mp hvalid
  rw [← normalizeSourceAddress_captures captures] at haddress
  exact validateSpec_ok_iff.mpr ⟨hrules, haddress, hregex, hquery, hschedule, htarget, hall⟩

theorem collectCidrs_captures (seen : BTreeSet String) (cidrs : List NormalizedCidr)
    (values : List K.Variable) :
    collectCidrs (K.capturing captures) seen cidrs values = collectCidrs K seen cidrs values := by
  have hnet (net : IpNet) :
      NormalizedCidr.ofNet (K.capturing captures) net = NormalizedCidr.ofNet K net := rfl
  induction values generalizing seen cidrs with
  | nil => rfl
  | cons value values ih => simp only [collectCidrs, ih, hnet]

theorem extractCidrs_captures (query : K.Expression) (payload : K.Value) :
    extractCidrs (K.capturing captures) query payload = extractCidrs K query payload := by
  unfold extractCidrs
  refine bind_congr fun payloadJson => bind_congr fun var => bind_congr fun result => ?_
  dsimp only
  cases K.asArray result with
  | none => rfl
  | some values =>
    change collectCidrs (K.capturing captures) _ _ _ >>= _ = collectCidrs K _ _ _ >>= _
    rw [collectCidrs_captures]

/-- Neither does anything from the final address on. -/
theorem fromFinal_captures (schedule : K.Schedule) (final : NormalizedRemoteAddress) :
    fromFinal (K.capturing captures) policy schedule final = fromFinal K policy schedule final := by
  have hpayload : fromPayload (K.capturing captures) policy schedule final =
      fromPayload K policy schedule final := by
    funext payload
    simp only [fromPayload, extractCidrs_captures]
    rfl
  rw [fromFinal, hpayload]
  rfl

theorem reconcile_direct_captures {final : NormalizedRemoteAddress}
    (hlive : policy.metadata.deletionTimestamp = none)
    (hvalid : validatePolicy K policy = .ok validated)
    (hfinal : normalizeSourceAddress K text = .ok final) :
    reconcile (K.capturing captures) (policy.direct text) = reconcile K (policy.direct text) := by
  have hfinal' := (normalizeSourceAddress_captures captures text).trans hfinal
  rw [reconcile_direct hlive hvalid hfinal,
    reconcile_direct hlive (validatePolicy_captures captures hvalid) hfinal', fromFinal_captures]

/-- The regex is matched against the pointer body alone. -/
theorem run_reconcile_captures {regex : K.Regex} {applied : Apply}
    {w : World Calls Choice Cluster} {bytes : List UInt8}
    (hlive : policy.metadata.deletionTimestamp = none)
    (hvalid : validatePolicy K policy = .ok validated)
    (hregex : validated.pointerRegex = some regex) (hbody : (w.choices 0).http.Delivers bytes)
    (hcaptures : captures regex (K.decodeText bytes) = K.captures regex (K.decodeText bytes)) :
    (reconcile (K.capturing captures) policy).run (api applied) w =
      (reconcile K policy).run (api applied) w := by
  have hpointer : resolvePointer (K.capturing captures) regex (K.decodeText bytes) =
      resolvePointer K regex (K.decodeText bytes) := by
    simp only [resolvePointer, hcaptures, normalizeSourceAddress_captures]
  have hfinal : fromFinal (K.capturing captures) policy validated.resyncSchedule =
      fromFinal K policy validated.resyncSchedule := funext (fromFinal_captures captures _)
  have hrun : (reconcile (K.capturing captures) policy).run (api applied) w = _ :=
    run_reconcile_pointer hlive (validatePolicy_captures captures hvalid) hregex hbody
  dsimp only at hrun
  rw [hpointer, hfinal] at hrun
  rw [hrun, run_reconcile_pointer hlive hvalid hregex hbody]

end Captures
end Routes

/-- The first match of the pointer regex in the body captures a text that is not blank. -/
structure ReadsPointer (K : Crates) (validated : ValidatedPolicy K) (regex : K.Regex)
    (body text : String) : Prop where
  pointer : validated.pointerRegex = some regex
  captured : ∃ captures, K.captures regex body = some captures ∧ captures 1 = some text
  nonblank : Text.trim text ≠ ""

/-- Past its first call the one world is as the other is from the start, whatever the clocks. -/
structure MeetsBehindPointer (w w' : World Calls Choice Cluster) : Prop where
  clusters : w.state.Alike w'.state
  choices : ∀ n, (w.choices (n+1)).Alike (w'.choices n)

section Equivalence
variable (K : Crates) (policy : CIDRPolicy) (validated : ValidatedPolicy K) (regex : K.Regex)
  (body text : String) (applied : Apply) (w w' : World Calls Choice Cluster)

/-- One more request, and then the same reconcile: the same final request and no other, the same
calls of the API but for the times they stamp, the same failure unless a next run cannot be
scheduled, and the same result and cluster if the clocks agree as well. -/
structure SameBehindPointer (final : NormalizedRemoteAddress) : Prop where
  calls : ∃ rest rest',
    (reconcile K policy).calls (api applied) w =
      .httpGet validated.sourceAddress.requestUrl :: .httpGet final.requestUrl :: rest ∧
    (reconcile K (policy.direct text)).calls (api applied) w' =
      .httpGet final.requestUrl :: rest' ∧
    rest.map Call.untimed = rest'.map Call.untimed ∧ ∀ call ∈ rest, call.IsLocal
  results : SameUnlessScheduling ((reconcile K policy).run (api applied) w).1
    ((reconcile K (policy.direct text)).run (api applied) w').1
  clusters : Cluster.Alike ((reconcile K policy).run (api applied) w).2.state
    ((reconcile K (policy.direct text)).run (api applied) w').2.state
  clocked : w.state = w'.state → (∀ n, w.choices (n+1) = w'.choices n) →
    ((reconcile K policy).run (api applied) w).1 =
      ((reconcile K (policy.direct text)).run (api applied) w').1 ∧
    ((reconcile K policy).run (api applied) w).2.state =
      ((reconcile K (policy.direct text)).run (api applied) w').2.state

/-- What the regexes match in any other text makes no difference. -/
structure ScansNothingElse : Prop where
  pointer : ∀ captures, captures regex body = K.captures regex body →
    (reconcile (K.capturing captures) policy).run (api applied) w =
      (reconcile K policy).run (api applied) w
  direct : ∀ captures,
    reconcile (K.capturing captures) (policy.direct text) = reconcile K (policy.direct text)

/-- Neither run gets to a final request or to the cluster. -/
structure BothRefused : Prop where
  calls : (reconcile K policy).calls (api applied) w =
    [.httpGet validated.sourceAddress.requestUrl]
  pointer : FailsWith (fun error : ReconcileError => error.stage = .pointerExtraction)
    ((reconcile K policy).run (api applied) w).1
  directCalls : (reconcile K (policy.direct text)).calls (api applied) w' = []
  direct : FailsWith (fun error : ReconcileError => error.stage = .validation)
    ((reconcile K (policy.direct text)).run (api applied) w').1

variable {K policy validated regex text applied w w'} {bytes : List UInt8}

theorem map_untimed {calls calls' : List Call} (h : List.Forall₂ clocks.Ops calls calls') :
    calls.map Call.untimed = calls'.map Call.untimed := by
  induction h with
  | nil => rfl
  | cons hcall _ ih => rw [List.map_cons, List.map_cons, hcall.1, ih]

theorem ReadsPointer.resolvePointer_eq {body : String}
    (hreads : ReadsPointer K validated regex body text) :
    resolvePointer K regex body =
      (normalizeSourceAddress K text).mapError .pointerResolvedAddress := by
  obtain ⟨captures, hcaptures, htext⟩ := hreads.captured
  rw [Ipmaze.resolvePointer_eq hcaptures htext hreads.nonblank, normalizeSourceAddress_trim]

theorem sameBehindPointer {final : NormalizedRemoteAddress}
    (hlive : policy.metadata.deletionTimestamp = none)
    (hvalid : validatePolicy K policy = .ok validated)
    (hreads : ReadsPointer K validated regex (K.decodeText bytes) text)
    (hbody : (w.choices 0).http.Delivers bytes) (hworlds : MeetsBehindPointer w w')
    (hfinal : normalizeSourceAddress K text = .ok final) :
    SameBehindPointer K policy validated text applied w w' final := by
  have hpointer : resolvePointer K regex (K.decodeText bytes) = .ok final := by
    rw [hreads.resolvePointer_eq, hfinal]
    rfl
  have hrun : (reconcile K policy).run (api applied) w = _ :=
    run_reconcile_pointer hlive hvalid hreads.pointer hbody
  have hcalls : (reconcile K policy).calls (api applied) w = _ :=
    calls_reconcile_pointer hlive hvalid hreads.pointer hbody
  rw [hpointer] at hrun hcalls
  have hdirect := reconcile_direct hlive hvalid hfinal
  let behind := w.after (api applied) (.httpGet validated.sourceAddress.requestUrl)
  obtain ⟨hresults, hclusters, hops⟩ :=
    (fromFinal_coupled policy validated.resyncSchedule final).run (clocks_respected applied)
      behind w' hworlds.clusters hworlds.choices
  obtain ⟨rest, hrest, hlocal⟩ :=
    calls_fromFinal policy validated.resyncSchedule final applied behind
  obtain ⟨rest', hrest', -⟩ :=
    calls_fromFinal policy validated.resyncSchedule final applied w'
  rw [hrest, hrest', List.forall₂_cons] at hops
  refine ⟨⟨rest, rest', ?_, ?_, map_untimed hops.2, hlocal⟩, ?_, ?_, fun hstate hchoices => ?_⟩
  · exact hcalls.trans (congrArg _ hrest)
  · rw [hdirect, hrest']
  · rw [hrun, hdirect]
    exact hresults
  · rw [hrun, hdirect]
    exact hclusters
  · rw [hrun, hdirect]
    exact Program.run_congr _ _ hstate hchoices

theorem bothRefused {error : SourceAddressError}
    (hlive : policy.metadata.deletionTimestamp = none)
    (hvalid : validatePolicy K policy = .ok validated)
    (hreads : ReadsPointer K validated regex (K.decodeText bytes) text)
    (hbody : (w.choices 0).http.Delivers bytes)
    (herror : normalizeSourceAddress K text = .error error) :
    BothRefused K policy validated text applied w w' := by
  have hpointer : resolvePointer K regex (K.decodeText bytes) =
      .error (.pointerResolvedAddress error) := by
    rw [hreads.resolvePointer_eq, herror]
    rfl
  have hdirect : reconcile K (policy.direct text) =
      .fail (.validation (.invalidSourceAddress error)) := by
    have hlive' : (policy.direct text).metadata.deletionTimestamp = none := hlive
    rw [reconcile_eq hlive', resolve, validatePolicy_direct_error hvalid herror]
    rfl
  refine ⟨?_, ?_, ?_, ?_⟩
  · rw [calls_reconcile_pointer hlive hvalid hreads.pointer hbody, hpointer]
    rfl
  · rw [run_reconcile_pointer hlive hvalid hreads.pointer hbody, hpointer]
    exact ⟨_, rfl, rfl⟩
  · rw [hdirect]
    rfl
  · rw [hdirect]
    exact ⟨_, rfl, rfl⟩

/-- A pointer is its target configured directly, one request later: wherever the target is
accepted the two reconciles are the same from the final request on, and where it is not neither
gets that far. A terminating policy is cleaned up the same way with either. -/
theorem pointer_equivalent_to_target (hvalid : validatePolicy K policy = .ok validated)
    (hreads : ReadsPointer K validated regex (K.decodeText bytes) text) :
    (policy.metadata.deletionTimestamp.isSome →
      reconcile K (policy.direct text) = reconcile K policy) ∧
    (policy.metadata.deletionTimestamp = none → ∀ applied w w',
      (w.choices 0).http.Delivers bytes → MeetsBehindPointer w w' →
        (∀ final, normalizeSourceAddress K text = .ok final →
          SameBehindPointer K policy validated text applied w w' final ∧
            ScansNothingElse K policy regex (K.decodeText bytes) text applied w) ∧
        ∀ error, normalizeSourceAddress K text = .error error →
          BothRefused K policy validated text applied w w') := by
  refine ⟨fun hterminating => ?_, fun hlive applied w w' hbody hworlds => ⟨?_, ?_⟩⟩
  · have hdirect : (policy.direct text).metadata.deletionTimestamp.isSome := hterminating
    rw [reconcile_terminating hterminating, reconcile_terminating hdirect]
    rfl
  · intro final hfinal
    refine ⟨sameBehindPointer hlive hvalid hreads hbody hworlds hfinal, ?_, ?_⟩
    · exact fun captures => run_reconcile_captures captures hlive hvalid hreads.pointer hbody
    · exact fun captures => reconcile_direct_captures captures hlive hvalid hfinal
  · exact fun error => bothRefused hlive hvalid hreads hbody

end Equivalence

namespace Sample

def target : NormalizedRemoteAddress where
  original := address
  remoteAddress := .url url
  requestUrl := url

/-- The crates, for a regex that captures the whole body. -/
abbrev capturing : Crates :=
  crates.capturing fun _ body => some fun i => if i ≤ 1 then some body else none

def pointed : CIDRPolicy :=
  { policy with spec := { policy.spec with
    source := { address, pointer := some ⟨"(.*)"⟩, jmesPath := "prefixes" } } }

def validatedPointed : ValidatedPolicy capturing where
  sourceAddress := target
  pointerRegex := some "(.*)"
  resyncSchedule := Schedule.daily

def pointerText : String := " https://lists.example/prefixes.json "

def pointerBody : List UInt8 := pointerText.toList.map fun c => UInt8.ofNat c.toNat

/-- The pointer is answered first, and the listing behind it. -/
def worldWithPointer (now : Instant) : World Calls Choice Cluster where
  state := cluster pointed none
  choices
    | 0 => { choice now with http := .response 200 (.ok pointerBody) }
    | _ + 1 => choice now
  log := []

end Sample

open Sample in
theorem pointer_equivalent_to_target_listing :
    SameBehindPointer capturing pointed validatedPointed pointerText replace (worldWithPointer 0)
      (worldAt (cluster pointed none) 1) target := by
  have hbytes : ((worldWithPointer 0).choices 0).http.Delivers pointerBody := ⟨200, rfl, by decide⟩
  have hreads : ReadsPointer capturing validatedPointed "(.*)" (capturing.decodeText pointerBody)
      pointerText := ⟨rfl, ⟨_, rfl, by decide⟩, by decide⟩
  have hworlds : MeetsBehindPointer (worldWithPointer 0) (worldAt (cluster pointed none) 1) :=
    ⟨⟨rfl, fun _ => rfl, rfl⟩, fun _ => ⟨rfl, rfl⟩⟩
  have hvalid : validatePolicy capturing pointed = .ok validatedPointed := rfl
  obtain ⟨-, hroutes⟩ := pointer_equivalent_to_target hvalid hreads
  exact ((hroutes rfl replace _ _ hbytes hworlds).1 target rfl).1

end Ipmaze
