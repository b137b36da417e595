import Ipmaze.ControlLoop.Rounds

/-! What the status shows of the last success. A report writes back what it has read of it, so it
must not have read it too early. -/
namespace Ipmaze
open Effects

/-- What is shown is the success stamped by the latest round that stamped one. -/
def LastSuccess (K : Crates) (initial : Option String × List String) :
    List Round → Option String × List String → Prop
  | [], shown => shown = initial
  | round :: earlier, shown =>
    (∃ r now, round.Succeeds K r now ∧ shown = (some (K.rfc3339 now), r.observed)) ∨
      ((∀ r now, ¬ round.Succeeds K r now) ∧ LastSuccess K initial earlier shown)

/-- What the stored status shows of the last success. -/
def Cluster.success (s : Cluster) (policy : CIDRPolicy) : Option String × List String :=
  (s.stored policy).elim (none, []) CIDRPolicy.success

/-- The report has read the policy and is about to write this status. -/
def Report.Holds (report : Report) (status : CIDRPolicyStatus) : Prop :=
  ∃ ns name params next,
    report.task = .call (I := Calls) (.patchStatus ns name params status) next

/-- The status shows the last success, and so does every status a report is about to write. -/
structure Fresh (K : Crates) (subject : CIDRPolicy) (initial : Option String × List String)
    (L : ControlLoop) : Prop where
  shown : ∀ stored ∈ L.cluster.stored subject, LastSuccess K initial L.rounds stored.success
  held : ∀ report ∈ L.reports, ∀ status, report.Holds status →
    ∀ stored ∈ L.cluster.stored subject,
      (status.lastSuccessfulResolutionTime, status.lastObservedCidrs) = stored.success

/-- When a reconcile stamps its success, no report stands between its read and its write. -/
def Unraced (L : ControlLoop) : Label → Prop
  | .serve choice => ∀ task, L.active = some task → task.StandsAt Call.Tells →
    choice.delivery.arrives → ∀ report ∈ L.reports, ∀ status, ¬ report.Holds status
  | _ => True

section Steps
variable {K : Crates} {applied : Apply} {context : ControllerContext} {subject : CIDRPolicy}
variable {L : ControlLoop} {initial : Option String × List String}

theorem LastSuccess.push {round : Round} {earlier : List Round} {shown : Option String × List String}
    (h : LastSuccess K initial (round :: earlier) shown) {e : Served}
    (he : ∀ status, ¬ e.Writes status) :
    LastSuccess K initial (round.push e :: earlier) shown := by
  rcases h with ⟨r, now, hsucceeds, hshown⟩ | ⟨hnone, hearlier⟩
  · exact Or.inl ⟨r, now, hsucceeds.push e, hshown⟩
  · refine Or.inr ⟨fun r now hsucceeds => ?_, hearlier⟩
    rcases hsucceeds.of_push with hsucceeds | hwrites
    · exact hnone r now hsucceeds
    · exact he _ hwrites

theorem LastSuccess.begin {rounds : List Round} {shown : Option String × List String}
    (h : LastSuccess K initial rounds shown) (policy : CIDRPolicy) :
    LastSuccess K initial (⟨policy, [], none⟩ :: rounds) shown :=
  Or.inr ⟨fun r now => Round.not_succeeds_of_empty rfl r now, h⟩

/-- The status that a reconcile stamps is that of its own success. -/
theorem succeeds_of_write {round : Round} {ns name : String} {params : PatchParams}
    {status : CIDRPolicyStatus} {next : Except KubeError Unit → Task ReconcileError Action}
    (htrace : (reconcile K round.policy).Trace round.events
      (.call (I := Calls) (.patchStatus ns name params status) next))
    (answer : Except KubeError Unit) :
    ∃ r now, status = successStatus K r.observed now ∧
      (round.push ⟨⟨.patchStatus ns name params status, answer⟩, true⟩).Succeeds K r now := by
  cases hlive : round.policy.metadata.deletionTimestamp with
  | some deletion =>
    rw [reconcile_terminating (by rw [hlive]; rfl)] at htrace
    have hmakes := (cleanup_deletes round.policy).bind (f := fun _ => pure Action.awaitChange)
      fun _ => trivial
    rcases (htrace.makes hmakes).2.1 with hidle | ⟨_, _, he⟩
    · exact (hidle.2 trivial).elim
    · cases he
  | none =>
    obtain ⟨r, before, after, now, hlog, hresolved, rfl⟩ := reconcile_at_status hlive htrace
    obtain ⟨before, after, hsplit, rfl, rfl⟩ := List.map_eq_append_iff.mp hlog
    have hwrites : Served.Writes (successStatus K r.observed now)
        ⟨⟨.patchStatus ns name params (successStatus K r.observed now), answer⟩, true⟩ :=
      ⟨rfl, ns, name, params, rfl⟩
    have hresolves : round.Resolves K r after := ⟨hlive, before, hsplit, hresolved⟩
    exact ⟨r, now, rfl, _, hresolves.push _, _,
      List.mem_append_right _ (List.mem_singleton_self _), hwrites⟩

/-- A reconcile whose next call is served keeps the status fresh, unless it stamps it while a
report holds an older one. -/
theorem Fresh.served (h : Fresh K subject initial L) (htracked : L.Tracked K subject)
    {choice : Choice} {call : Call} {next : call.Answer → Task ReconcileError Action}
    {round : Round} {earlier : List Round} (hactive : L.active = some (.call call next))
    (hrounds : L.rounds = round :: earlier) (hunraced : Unraced L (.serve choice)) :
    Fresh K subject initial (L.served applied choice call next round earlier) := by
  have htrace := (htracked.position hactive hrounds).2
  have hwithin := htracked.within hactive hrounds
  have hshown := h.shown
  rw [hrounds] at hshown
  have hstored := serve_stored applied hwithin choice L.cluster
  by_cases htells : call.Tells ∧ choice.delivery.arrives
  · obtain ⟨htells, harrives⟩ := htells
    have hnone := hunraced _ hactive htells harrives
    refine ⟨?_, fun report hreport status hholds => (hnone report hreport status hholds).elim⟩
    cases call with
    | patchStatus ns name params status =>
      obtain ⟨r, now, rfl, hsucceeds⟩ :=
        succeeds_of_write htrace (serve applied choice (.patchStatus ns name params status) L.cluster).1
      intro stored hmem
      simp only [ControlLoop.served, hstored, harrives, if_true] at hmem
      obtain ⟨before, -, rfl⟩ := Option.map_eq_some_iff.mp hmem
      refine Or.inl ⟨r, now, ?_, rfl⟩
      rwa [← harrives] at hsucceeds
    | _ => exact htells.elim
  · have hkept : (L.served applied choice call next round earlier).cluster.stored subject =
        L.cluster.stored subject := serve_stored_kept applied hwithin htells L.cluster
    have hwrites (status : CIDRPolicyStatus) : ¬ Served.Writes status
        ⟨⟨call, (serve applied choice call L.cluster).1⟩, choice.delivery.arrives⟩ := by
      rintro ⟨hlanded, ns, name, params, hcall⟩
      refine htells ⟨?_, hlanded⟩
      rw [show call = _ from hcall]
      trivial
    refine ⟨fun stored hmem => ?_, fun report hreport status hholds stored hmem => ?_⟩
    · rw [hkept] at hmem
      exact (hshown stored hmem).push hwrites
    · rw [hkept] at hmem
      exact h.held report hreport status hholds stored hmem

/-- What a report holds once it has read the policy. -/
theorem Report.Holds.of_read {report : Report} {policy current : CIDRPolicy}
    {error : ReconcileError} {ns : String}
    (htask : report.task = writeFailure ns policy error (.ok current))
    {status : CIDRPolicyStatus} (h : report.Holds status) : status = failureStatus current error := by
  obtain ⟨ns', name, params, next, he⟩ := h
  rw [htask] at he
  cases he
  rfl

theorem Report.Holds.not_idle {report : Report} {status : CIDRPolicyStatus}
    (h : report.Holds status) : ¬ report.task.Makes Call.Idle := by
  obtain ⟨ns, name, params, next, he⟩ := h
  rw [he]
  exact fun hidle => hidle.1.2 trivial

/-- The other reports hold what they held, whatever the one that was served now holds. -/
theorem Fresh.set_report (h : Fresh K subject initial L) {i : ℕ} {report : Report} {s' : Cluster}
    {task' : Task KubeError Unit} (hsuccess : ∀ stored ∈ s'.stored subject,
      ∃ before ∈ L.cluster.stored subject, stored.success = before.success)
    (hown : ∀ status, Report.Holds { report with task := task' } status →
      ∀ stored ∈ s'.stored subject,
        (status.lastSuccessfulResolutionTime, status.lastObservedCidrs) = stored.success) :
    Fresh K subject initial { L with
      cluster := s', reports := L.reports.set i { report with task := task' } } := by
  refine ⟨fun stored hmem => ?_, fun other hother status hholds stored hmem => ?_⟩
  · obtain ⟨before, hbefore, he⟩ := hsuccess stored hmem
    rw [he]
    exact h.shown before hbefore
  · rcases List.mem_or_eq_of_mem_set hother with hother | rfl
    · obtain ⟨before, hbefore, he⟩ := hsuccess stored hmem
      rw [he]
      exact h.held other hother status hholds before hbefore
    · exact hown status hholds stored hmem

/-- A report writes back what the status shows of the last success. -/
theorem Fresh.reported (h : Fresh K subject initial L) (htracked : L.Tracked K subject) {i : ℕ}
    {choice : Choice} {report : Report} {call : Call} {next : call.Answer → Task KubeError Unit}
    (hreport : L.reports[i]? = some report) (htask : report.task = .call call next) :
    Fresh K subject initial (L.reported applied i choice report call next) := by
  have hmem := List.mem_of_getElem? hreport
  obtain ⟨hsame, hwithin, hreporting⟩ := htracked.reports report hmem
  rw [htask] at hwithin hreporting
  have hkept {s' : Cluster} (hstored : s'.stored subject = L.cluster.stored subject) :
      ∀ stored ∈ s'.stored subject,
        ∃ before ∈ L.cluster.stored subject, stored.success = before.success := by
    intro stored hmem'
    rw [hstored] at hmem'
    exact ⟨stored, hmem', rfl⟩
  have hdone {task' : Task KubeError Unit} (hidle : task'.Makes Call.Idle)
      (status : CIDRPolicyStatus) : ¬ Report.Holds { report with task := task' } status :=
    fun hholds => hholds.not_idle hidle
  cases hreporting.step hsame hwithin.1 choice L.cluster with
  | read hcurrent hstored htask' =>
    refine h.set_report (hkept hstored) fun status hholds stored hmem' => ?_
    rw [hstored, hcurrent] at hmem'
    obtain rfl := Option.some.inj hmem'
    rw [hholds.of_read htask']
    rfl
  | unread hreads hnone hstored hidle =>
    exact h.set_report (hkept hstored) fun status hholds => (hdone hidle status hholds).elim
  | write htask' hstored hidle =>
    refine h.set_report (fun stored hmem' => ?_) fun status hholds =>
      (hdone hidle status hholds).elim
    rw [hstored] at hmem'
    split at hmem'
    · obtain ⟨before, hbefore, rfl⟩ := Option.map_eq_some_iff.mp hmem'
      have hholds : report.Holds (failureStatus _ _) := ⟨_, _, _, _, htask.trans htask'⟩
      exact ⟨before, hbefore, h.held report hmem _ hholds before hbefore⟩
    · exact ⟨stored, hmem', rfl⟩
  | idle hidle hstored hidle' =>
    exact h.set_report (hkept hstored) fun status hholds => (hdone hidle' status hholds).elim

theorem Fresh.start (K : Crates) (subject : CIDRPolicy) (s : Cluster) :
    Fresh K subject (s.success subject) (ControlLoop.start s) where
  shown stored hmem := by
    change s.stored subject = some stored at hmem
    change stored.success = s.success subject
    rw [Cluster.success, hmem]
    rfl
  held := List.forall_mem_nil _

theorem Fresh.ended (h : Fresh K subject initial L) {round : Round} {earlier : List Round}
    (hrounds : L.rounds = round :: earlier) (outcome : Except ReconcileError Action) :
    ∀ stored ∈ L.cluster.stored subject, LastSuccess K initial
      ({ round with outcome := some outcome } :: earlier) stored.success := by
  have hshown := h.shown
  rw [hrounds] at hshown
  exact hshown

/-- A report that has just been spawned holds nothing yet. -/
theorem Fresh.failed (h : Fresh K subject initial L) {error : ReconcileError} {round : Round}
    {earlier : List Round} (hrounds : L.rounds = round :: earlier) :
    Fresh K subject initial (L.failed K error round earlier) := by
  refine ⟨h.ended hrounds (.error error), fun report hreport status hholds stored hmem => ?_⟩
  rcases List.mem_append.mp hreport with hreport | hreport
  · exact h.held report hreport status hholds stored hmem
  · rw [List.mem_singleton.mp hreport] at hholds
    obtain ⟨ns, name, params, next, htask⟩ := hholds
    change handleReconcileFailure K round.policy error.stage error.message = _ at htask
    cases hns : round.policy.metadata.ns with
    | none =>
      rw [handleReconcileFailure, hns] at htask
      cases htask
    | some ns =>
      rw [handleReconcileFailure_eq K hns] at htask
      cases htask

theorem Fresh.outside (h : Fresh K subject initial L) {change : Cluster → Cluster}
    (hkeeps : Keeps subject L.cluster (change L.cluster)) :
    Fresh K subject initial { L with cluster := change L.cluster } := by
  have hkept (stored : CIDRPolicy) (hmem : stored ∈ (change L.cluster).stored subject) :
      ∃ before ∈ L.cluster.stored subject, stored.success = before.success := by
    obtain ⟨before, hbefore, he⟩ := hkeeps.stored stored hmem
    exact ⟨before, hbefore, by rw [CIDRPolicy.success, CIDRPolicy.success, he]⟩
  refine ⟨fun stored hmem => ?_, fun report hreport status hholds stored hmem => ?_⟩
  · obtain ⟨before, hbefore, he⟩ := hkept stored hmem
    rw [he]
    exact h.shown before hbefore
  · obtain ⟨before, hbefore, he⟩ := hkept stored hmem
    rw [he]
    exact h.held report hreport status hholds before hbefore

/-- The last success is lost only where a reconcile stamps one while a report holds another. -/
theorem Fresh.step (h : Fresh K subject initial L) (htracked : L.Tracked K subject)
    {label : Label} (hadmits : Admits subject L label) (hunraced : Unraced L label) :
    Fresh K subject initial (L.step K applied context label) := by
  have hstep := ControlLoop.step_stepped K applied context L label
  generalize L.step K applied context label = L' at hstep ⊢
  cases hstep with
  | unfit => exact h
  | @begin policy hactive => exact ⟨fun stored hmem => (h.shown stored hmem).begin policy, h.held⟩
  | serve hactive hrounds => exact h.served htracked hactive hrounds hunraced
  | returns hactive hrounds => exact ⟨h.ended hrounds _, h.held⟩
  | fails hactive hrounds => exact h.failed hrounds
  | report hreport htask => exact h.reported htracked hreport htask
  | outside change => exact h.outside hadmits

end Steps
end Ipmaze
