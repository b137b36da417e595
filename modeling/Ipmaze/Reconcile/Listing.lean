import Ipmaze.Extraction.Exact
import Ipmaze.Reconcile.Phases

/-! The CIDRs that remote endpoints list for a policy, read off the requests of a round and their
answers. -/
namespace Ipmaze
open Effects Checked BTreeSet

/-- A request with its answer. -/
abbrev Exchange := Url × HttpAnswer

def Exchange.event (e : Exchange) : Calls.Event := ⟨.httpGet e.1, e.2⟩

section Sources
variable (K : Crates) (policy : CIDRPolicy) (validated : ValidatedPolicy K)

/-- The exchanges that lead to the address of the document: none, or the one that delivers the body
in which the pointer finds it. -/
inductive Leads : List Exchange → NormalizedRemoteAddress → Prop
  | direct (hregex : validated.pointerRegex = none) : Leads [] validated.sourceAddress
  | pointer {regex : K.Regex} {answer : HttpAnswer} {body : List UInt8}
      {final : NormalizedRemoteAddress} (hregex : validated.pointerRegex = some regex)
      (hbody : answer.successBody = .ok body)
      (hfinal : resolvePointer K regex (K.decodeText body) = .ok final) :
    Leads [(validated.sourceAddress.requestUrl, answer)] final

/-- In the last of these exchanges a document is delivered for which the query of the policy has
this result. -/
inductive QueryResult : List Exchange → K.Variable → Prop
  | intro {before : List Exchange} {final : NormalizedRemoteAddress} {answer : HttpAnswer}
      {body : List UInt8} {payload : K.Value} {query : K.Expression} {result : K.Variable}
      (hfinal : Leads K validated before final) (hbody : answer.successBody = .ok body)
      (hpayload : K.parseJson body = .ok payload)
      (hquery : compileQuery K policy.spec.source.jmesPath = .ok query)
      (hresult : evaluateQuery K query payload = .ok result) :
    QueryResult (before ++ [(final.requestUrl, answer)]) result

/-- The networks that a query result names, in the form in which they are published. -/
def ResultCidrs (result : K.Variable) (cidrs : List NormalizedCidr) : Prop :=
  ∃ values nets, K.asArray result = some values ∧ values.mapM (readNet K) = .ok nets ∧
    cidrs = normalizeNets K nets

/-- The CIDRs that the source of a policy lists in these exchanges. -/
def SourceLists (exchanges : List Exchange) (cidrs : List NormalizedCidr) : Prop :=
  ∃ result, QueryResult K policy validated exchanges result ∧ ResultCidrs K result cidrs

end Sources

variable {K : Crates} {policy : CIDRPolicy} {validated : ValidatedPolicy K}

theorem extractCidrs_resultCidrs_iff {query : K.Expression} {payload : K.Value}
    {cidrs : List NormalizedCidr} :
    extractCidrs K query payload = .ok cidrs ↔
      ∃ result, evaluateQuery K query payload = .ok result ∧ ResultCidrs K result cidrs := by
  constructor
  · intro h
    have hresult := h
    rw [extractCidrs_eq] at hresult
    obtain ⟨result, hresult, -⟩ := bind_ok_iff.mp hresult
    exact ⟨result, hresult, (extractCidrs_ok_iff hresult).mp h⟩
  · rintro ⟨result, hresult, h⟩
    exact (extractCidrs_ok_iff hresult).mpr h

/-- A call that completes a program is the only one on its path. -/
theorem call_ofExcept_trace_iff {ε α : Type} {call : Call} {f : call.Answer → Except ε α}
    {log : List Calls.Event} {a : α} :
    (Program.call (I := Calls) call fun answer => .ofExcept (f answer)).Trace log (.ret a) ↔
      ∃ answer, log = [⟨call, answer⟩] ∧ f answer = .ok a := by
  constructor
  · intro h
    cases h with
    | cons tail =>
      obtain ⟨rfl, hanswer⟩ := tail.ofExcept_inv
      exact ⟨_, rfl, hanswer⟩
  · rintro ⟨answer, rfl, hanswer⟩
    refine .cons ?_
    rw [hanswer]
    exact .nil _

/-- Which address a round reads is decided by the exchanges before. -/
theorem resolveFinalSource_trace_iff {log : List Calls.Event} {final : NormalizedRemoteAddress} :
    (∃ source, source.finalAddress = final ∧
      (resolveFinalSource K validated.sourceAddress validated.pointerRegex).Trace log
        (.ret source)) ↔
      ∃ exchanges, log = exchanges.map Exchange.event ∧ Leads K validated exchanges final := by
  cases hregex : validated.pointerRegex with
  | none =>
    constructor
    · rintro ⟨source, rfl, htrace⟩
      cases htrace
      exact ⟨[], rfl, .direct hregex⟩
    · rintro ⟨exchanges, rfl, hleads⟩
      cases hleads with
      | direct => exact ⟨_, rfl, .nil _⟩
      | pointer hregex' => cases hregex.symm.trans hregex'
  | some regex =>
    simp only [resolveFinalSource_eq, call_ofExcept_trace_iff, targetOf_ok_iff]
    constructor
    · rintro ⟨source, rfl, answer, rfl, body, final, hbody, hfinal, rfl⟩
      exact ⟨[(_, answer)], rfl, .pointer hregex hbody hfinal⟩
    · rintro ⟨exchanges, rfl, hleads⟩
      cases hleads with
      | direct hregex' => cases hregex.symm.trans hregex'
      | pointer hregex' hbody hfinal =>
        obtain rfl := Option.some.inj (hregex.symm.trans hregex')
        exact ⟨_, rfl, _, rfl, _, _, hbody, hfinal, rfl⟩

/-- A document is fetched in one exchange, which delivers a body that parses. -/
theorem fetchJson_trace_iff {log : List Calls.Event} {final : NormalizedRemoteAddress}
    {payload : K.Value} :
    (fetchJson K final).Trace log (.ret payload) ↔ ∃ answer body,
      log = [Exchange.event (final.requestUrl, answer)] ∧ answer.successBody = .ok body ∧
        K.parseJson body = .ok payload := by
  rw [fetchJson_eq, call_ofExcept_trace_iff]
  refine exists_congr fun answer => ?_
  rw [documentOf_ok_iff, ← exists_and_left]
  rfl

/-- The paths on which a source is retrieved are the exchanges in which it lists some CIDRs. -/
theorem retrieve_trace_iff {log : List Calls.Event} {cidrs : List NormalizedCidr} :
    (retrieve K policy validated).Trace log (.ret cidrs) ↔
      ∃ exchanges, log = exchanges.map Exchange.event ∧
        SourceLists K policy validated exchanges cidrs := by
  constructor
  · intro h
    obtain ⟨source, first, rest, rfl, hsource, hrest⟩ := h.bind_ret_inv
    obtain ⟨payload, second, last, rfl, hpayload, hlast⟩ := hrest.bind_ret_inv
    obtain ⟨query, third, fourth, rfl, hquery, hcidrs⟩ := hlast.bind_ret_inv
    obtain ⟨rfl, hcompiled⟩ := hquery.ofExcept_inv
    obtain ⟨rfl, hextract⟩ := hcidrs.ofExcept_inv
    rw [Program.Trace.mapError_ret_iff] at hsource hpayload
    obtain ⟨answer, body, rfl, hbody, hpayload⟩ := fetchJson_trace_iff.mp hpayload
    obtain ⟨before, rfl, hfinal⟩ := resolveFinalSource_trace_iff.mp ⟨source, rfl, hsource⟩
    obtain ⟨result, hresult, hcidrs⟩ := extractCidrs_resultCidrs_iff.mp (mapError_ok_iff.mp hextract)
    refine ⟨before ++ [(source.finalAddress.requestUrl, answer)], by simp [Exchange.event], ?_⟩
    exact ⟨result, .intro hfinal hbody hpayload (mapError_ok_iff.mp hcompiled) hresult, hcidrs⟩
  · rintro ⟨_, rfl, result, hdelivers, hcidrs⟩
    cases hdelivers with
    | @intro before final answer body payload query result hfinal hbody hpayload hquery hresult =>
      obtain ⟨source, rfl, hsource⟩ := resolveFinalSource_trace_iff.mpr ⟨before, rfl, hfinal⟩
      have hfetch : (fetchJson K source.finalAddress).Trace _ (.ret payload) :=
        fetchJson_trace_iff.mpr ⟨answer, body, rfl, hbody, hpayload⟩
      have hextract := extractCidrs_resultCidrs_iff.mpr ⟨result, hresult, hcidrs⟩
      rw [List.map_append, ← List.append_nil (List.map _ [_])]
      unfold retrieve
      refine (Program.Trace.mapError_ret_iff.mpr hsource).bind ?_
      refine (Program.Trace.mapError_ret_iff.mpr hfetch).bind ?_
      rw [hquery]
      change (Program.ofExcept ((extractCidrs K query payload).mapError .extract) :
        Task ReconcileError (List NormalizedCidr)).Trace [] (.ret cidrs)
      rw [hextract]
      exact .nil _

section Logs
variable (K policy)

/-- The CIDRs were listed by what the remote endpoints answered. -/
def Listed (log : List Calls.Event) (cidrs : List NormalizedCidr) : Prop :=
  ∃ (validated : ValidatedPolicy K) (answers later : List Calls.Event),
    validatePolicy K policy = .ok validated ∧ log = answers ++ later ∧
      (retrieve K policy validated).Trace answers (.ret cidrs)

/-- The document of the policy is the last thing that was requested at the beginning of the log, and
its query has this result. -/
def Queried (log : List Calls.Event) (result : K.Variable) : Prop :=
  ∃ (validated : ValidatedPolicy K) (exchanges : List Exchange),
    validatePolicy K policy = .ok validated ∧ exchanges.map Exchange.event <+: log ∧
      QueryResult K policy validated exchanges result

end Logs

variable {log log' : List Calls.Event} {cidrs : List NormalizedCidr}

theorem Listed.mono (h : Listed K policy log cidrs) (hlog : log <+: log') :
    Listed K policy log' cidrs := by
  obtain ⟨validated, answers, later, hvalid, rfl, hretrieve⟩ := h
  obtain ⟨rest, rfl⟩ := hlog
  exact ⟨validated, answers, later ++ rest, hvalid, List.append_assoc .., hretrieve⟩

/-- A resolution that completes has listed the CIDRs it hands on. -/
theorem resolve_listed {r : Resolved K} (h : (resolve K policy).Trace log (.ret r)) :
    Listed K policy log r.cidrs := by
  obtain ⟨validated, first, rest, rfl, hvalidated, hrest⟩ := h.bind_ret_inv
  obtain ⟨hfirst, hvalid⟩ := hvalidated.ofExcept_inv
  obtain ⟨cidrs, answers, later, rfl, hretrieve, hlater⟩ := hrest.bind_ret_inv
  obtain ⟨rendered, second, last, -, -, hlast⟩ := hlater.bind_ret_inv
  obtain ⟨ns, third, end_, -, -, hend⟩ := hlast.bind_ret_inv
  rw [hfirst, List.nil_append]
  cases hend
  exact ⟨validated, answers, later, mapError_ok_iff.mp hvalid, rfl, hretrieve⟩

theorem listed_iff_queried :
    Listed K policy log cidrs ↔
      ∃ result, Queried K policy log result ∧ ResultCidrs K result cidrs := by
  constructor
  · rintro ⟨validated, answers, later, hvalid, rfl, hretrieve⟩
    obtain ⟨exchanges, rfl, result, hresult, hcidrs⟩ := retrieve_trace_iff.mp hretrieve
    exact ⟨result, ⟨validated, exchanges, hvalid, List.prefix_append .., hresult⟩, hcidrs⟩
  · rintro ⟨result, ⟨validated, exchanges, hvalid, ⟨later, rfl⟩, hresult⟩, hcidrs⟩
    exact ⟨validated, _, later, hvalid, rfl,
      retrieve_trace_iff.mpr ⟨exchanges, rfl, result, hresult, hcidrs⟩⟩

/-- The form in which the networks of a readable result are published: sorted, without repetition,
and exactly the networks that the result names. -/
theorem resultCidrs_iff (hprint : ∀ net, K.parseNet (K.printNet net) = some net)
    {result : K.Variable} :
    ResultCidrs K result cidrs ↔ K.Readable result ∧
      cidrs.Pairwise (fun a b => a.rendered < b.rendered) ∧
      ∀ cidr, cidr ∈ cidrs ↔ ∃ net, K.Names result net ∧ NormalizedCidr.ofNet K net = cidr := by
  constructor
  · rintro ⟨values, nets, hvalues, hnets, rfl⟩
    refine ⟨⟨values, hvalues, fun value hv => ?_⟩, sortDistinct_pairwise rendered_monotone _, ?_⟩
    · obtain ⟨net, hnet⟩ := exists_mapM_ok_iff.mp ⟨nets, hnets⟩ value hv
      exact ⟨net, readNet_ok_iff.mp hnet⟩
    · intro cidr
      simp only [mem_normalizeNets_iff hprint, mem_nets_iff hvalues hnets]
  · rintro ⟨⟨values, hvalues, hread⟩, hsorted, hmem⟩
    have hread' : ∀ value ∈ values, ∃ net, readNet K value = .ok net :=
      fun value hv => (hread value hv).imp fun _ => readNet_ok_iff.mpr
    obtain ⟨nets, hnets⟩ := exists_mapM_ok_iff.mpr hread'
    refine ⟨values, nets, hvalues, hnets, ?_⟩
    refine (hsorted.imp rendered_monotone.reflect_lt).eq_of_mem_iff
      ((sortDistinct_pairwise rendered_monotone _).imp rendered_monotone.reflect_lt) fun cidr => ?_
    rw [hmem]
    exact (mem_normalizeNets_iff hprint nets cidr).trans
      (exists_congr fun net => and_congr_left' (mem_nets_iff hvalues hnets net)) |>.symm

/-- CIDRs are listed exactly if the body of the last request that leads to the document of the
policy is JSON for which its query names these networks. -/
theorem listed_iff (hprint : ∀ net, K.parseNet (K.printNet net) = some net) :
    Listed K policy log cidrs ↔ ∃ result, Queried K policy log result ∧ K.Readable result ∧
      cidrs.Pairwise (fun a b => a.rendered < b.rendered) ∧
      ∀ cidr, cidr ∈ cidrs ↔ ∃ net, K.Names result net ∧ NormalizedCidr.ofNet K net = cidr := by
  simp only [listed_iff_queried, resultCidrs_iff hprint]

end Ipmaze
