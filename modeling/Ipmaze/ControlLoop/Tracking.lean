import Ipmaze.ControlLoop.Machine
import Ipmaze.Sample

/-! Where the reconcile and the reports of a loop stand, and what other parties may do to it. -/
namespace Ipmaze
open Effects

/-- What a status shows of the last success. -/
def CIDRPolicy.success (policy : CIDRPolicy) : Option String × List String :=
  let status := policy.status.getD {}
  (status.lastSuccessfulResolutionTime, status.lastObservedCidrs)

/-- The error a status shows. -/
def CIDRPolicy.shownError (policy : CIDRPolicy) : Option String :=
  (policy.status.getD {}).lastReconciliationError

def ReconcileError.text (error : ReconcileError) : String := failureText error.stage error.message

/-- The status of a failure: what was shown of the last success, and the error. -/
def failureStatus (current : CIDRPolicy) (error : ReconcileError) : CIDRPolicyStatus where
  lastSuccessfulResolutionTime := current.success.1
  lastObservedCidrs := current.success.2
  lastReconciliationError := some error.text

section Reports
variable (K : Crates) {policy : CIDRPolicy} {error : ReconcileError} {ns : String}

/-- What a report does with the policy it has read. -/
def writeFailure (ns : String) (policy : CIDRPolicy) (error : ReconcileError) :
    Except KubeError CIDRPolicy → Task KubeError Unit
  | .error e => .fail e
  | .ok current =>
    .call (I := Calls) (.patchStatus ns policy.nameAny (PatchParams.apply statusFieldManager)
      (failureStatus current error)) fun answer => do
        .ofExcept answer
        publishPolicyEvent policy .warning "ReconcileFailed" "Reconcile" (some error.text) none

theorem handleReconcileFailure_eq (hns : policy.metadata.ns = some ns) (error : ReconcileError) :
    handleReconcileFailure K policy error.stage error.message =
      .call (I := Calls) (.getPolicy ns policy.nameAny) (writeFailure ns policy error) := by
  rw [handleReconcileFailure, hns]
  simp only [patchStatusForOutcome, Task.getPolicy, Program.call_bind, Program.call.injEq,
    heq_eq_eq, true_and]
  funext answer
  cases answer with
  | error e => rfl
  | ok current => rfl

/-- Where a report can stand: it is about to read the policy, it has read it and is about to write
the status, or it writes nothing any more. -/
inductive Reporting (policy : CIDRPolicy) (error : ReconcileError) : Task KubeError Unit → Prop
  | reading {ns : String} (hns : policy.metadata.ns = some ns) :
    Reporting policy error
      (.call (I := Calls) (.getPolicy ns policy.nameAny) (writeFailure ns policy error))
  | writing {ns : String} (hns : policy.metadata.ns = some ns) (current : CIDRPolicy) :
    Reporting policy error (writeFailure ns policy error (.ok current))
  | done {task : Task KubeError Unit} (h : task.Makes Call.Idle) : Reporting policy error task

theorem reporting_handleReconcileFailure (policy : CIDRPolicy) (error : ReconcileError) :
    Reporting policy error (handleReconcileFailure K policy error.stage error.message) := by
  cases hns : policy.metadata.ns with
  | none =>
    rw [handleReconcileFailure, hns]
    exact .done trivial
  | some ns =>
    rw [handleReconcileFailure_eq K hns]
    exact .reading hns

theorem writeFailure_done (answer : Except KubeError Unit) :
    (Program.ofExcept answer >>= fun _ => publishPolicyEvent policy .warning "ReconcileFailed"
      "Reconcile" (some error.text) none : Task KubeError Unit).Makes Call.Idle :=
  (Program.makes_ofExcept answer).bind fun _ => publishPolicyEvent_idle policy _ _ _ _ _

theorem Reporting.next {call : Call} {next : call.Answer → Task KubeError Unit}
    (h : Reporting policy error (.call (I := Calls) call next)) (answer : call.Answer) :
    Reporting policy error (next answer) := by
  generalize he : Program.call (I := Calls) call next = task at h
  cases h with
  | reading hns =>
    cases he
    cases answer with
    | error e => exact .done trivial
    | ok current => exact .writing hns current
  | writing hns current =>
    cases he
    exact .done (writeFailure_done answer)
  | done h =>
    subst he
    exact .done (h.2 answer)

theorem Reporting.not_writes {call : Call} {next : call.Answer → Task KubeError Unit}
    (h : Reporting policy error (.call (I := Calls) call next)) : ¬ call.Writes := by
  generalize he : Program.call (I := Calls) call next = task at h
  cases h with
  | reading hns =>
    cases he
    exact id
  | writing hns current =>
    cases he
    exact id
  | done hidle =>
    subst he
    exact hidle.1.1

/-- What the next call of a report does to the stored policy and where it leaves the report. -/
inductive ReportStep (subject policy : CIDRPolicy) (error : ReconcileError) (delivery : Delivery)
    (s s' : Cluster) (task task' : Task KubeError Unit) : Prop
  | read {ns : String} {current : CIDRPolicy} (hcurrent : s.stored subject = some current)
    (hstored : s'.stored subject = s.stored subject)
    (htask' : task' = writeFailure ns policy error (.ok current))
  | unread (hreads : ¬ task.StandsAt Call.Tells)
    (hnone : delivery = .delivered → s.stored subject = none)
    (hstored : s'.stored subject = s.stored subject) (hdone : task'.Makes Call.Idle)
  | write {ns : String} {current : CIDRPolicy}
    (htask : task = writeFailure ns policy error (.ok current))
    (hstored : s'.stored subject = if delivery.arrives then
      (s.stored subject).map (·.withStatus (failureStatus current error)) else s.stored subject)
    (hdone : task'.Makes Call.Idle)
  | idle (hidle : task.Makes Call.Idle) (hstored : s'.stored subject = s.stored subject)
    (hdone : task'.Makes Call.Idle)

theorem Reporting.step {applied : Apply} {subject : CIDRPolicy} {call : Call}
    {next : call.Answer → Task KubeError Unit} (hsame : policy.SameObject subject)
    (hwithin : call.Within subject) (h : Reporting policy error (.call (I := Calls) call next))
    (choice : Choice) (s : Cluster) :
    ReportStep subject policy error choice.delivery s (serve applied choice call s).2
      (.call (I := Calls) call next) (next (serve applied choice call s).1) := by
  have hstored := serve_stored applied hwithin choice s
  generalize he : Program.call (I := Calls) call next = task at h
  cases h with
  | @reading ns hns =>
    cases he
    have hpolicy : s.policies (ns, policy.nameAny) = s.stored subject := by
      rw [Cluster.stored_eq (hsame.ns.symm.trans hns), ← hsame.nameAny]
    cases hcurrent : s.stored subject with
    | some current =>
      have hanswer : (serve applied choice (.getPolicy ns policy.nameAny) s).1 =
          choice.delivery.receive (.ok current) := by
        simp only [serve, hpolicy, hcurrent]
      rw [hanswer]
      cases choice.delivery with
      | delivered => exact .read hcurrent hstored rfl
      | lost error => exact .unread id (by simp) hstored trivial
      | unacknowledged error => exact .unread id (by simp) hstored trivial
    | none =>
      have hanswer : (serve applied choice (.getPolicy ns policy.nameAny) s).1 =
          choice.delivery.receive (.error notFound) := by
        simp only [serve, hpolicy, hcurrent]
      refine .unread id (fun _ => hcurrent) hstored ?_
      rw [hanswer]
      cases choice.delivery <;> trivial
  | writing hns current =>
    cases he
    exact .write rfl hstored (writeFailure_done _)
  | done hidle =>
    subst he
    refine .idle hidle ?_ (hidle.2 _)
    rw [hstored]
    cases call with
    | patchStatus ns name params status => exact (hidle.1.2 trivial).elim
    | _ => rfl

end Reports

namespace Report

/-- The report may still write the status. -/
def Pending (report : Report) : Prop := ¬ report.task.Makes fun call : Call => ¬ call.Tells

variable {report : Report}

theorem pending_of_standsAt (h : report.task.StandsAt Call.Tells) : report.Pending :=
  fun hmakes => hmakes.not_standsAt h

theorem not_pending_of_idle (h : report.task.Makes Call.Idle) : ¬ report.Pending :=
  fun hpending => hpending (h.mono fun _ hidle => hidle.2)

theorem not_pending_of_halted (h : report.task.Halted) : ¬ report.Pending := by
  intro hpending
  apply hpending
  cases htask : report.task with
  | ret done => trivial
  | fail error => trivial
  | call i next =>
    rw [htask] at h
    exact h.elim

/-- A report that may write later may write now. -/
theorem Pending.of_next {call : Call} {next : call.Answer → Task KubeError Unit}
    (htask : report.task = .call (I := Calls) call next) {answer : call.Answer}
    (h : Pending { report with task := next answer }) : report.Pending := by
  intro hmakes
  rw [htask] at hmakes
  exact h (hmakes.2 answer)

end Report

/-- Other parties leave the managed NetworkPolicy and the status alone. They may edit the rest of
the policy or remove it. -/
structure Keeps (policy : CIDRPolicy) (before after : Cluster) : Prop where
  managed : after.managed policy = before.managed policy
  stored : ∀ p ∈ after.stored policy, ∃ q ∈ before.stored policy, p.status = q.status

/-- Every snapshot is one of the same policy. -/
def Admits (subject : CIDRPolicy) (L : ControlLoop) : Label → Prop
  | .begin policy => policy.SameObject subject
  | .outside change => Keeps subject L.cluster (change L.cluster)
  | _ => True

instance (p q : CIDRPolicy) : Decidable (p.SameObject q) :=
  decidable_of_iff (p.metadata.name = q.metadata.name ∧
      p.metadata.generateName = q.metadata.generateName ∧ p.metadata.ns = q.metadata.ns ∧
      p.metadata.uid = q.metadata.uid)
    ⟨fun ⟨hname, hgenerate, hns, huid⟩ => ⟨hname, hgenerate, hns, huid⟩,
      fun ⟨hname, hgenerate, hns, huid⟩ => ⟨hname, hgenerate, hns, huid⟩⟩

/-- No other party acts, every failure of a live policy is reported to the end before the next
round begins, and a report loses no call. -/
def Inline (subject : CIDRPolicy) (L : ControlLoop) : Label → Prop
  | .begin policy => policy.SameObject subject ∧ ∀ report ∈ L.reports, report.task.Halted
  | .serve _ => ∀ report ∈ L.reports, report.task.Halted
  | .finish => ∀ round ∈ L.rounds, round.policy.metadata.deletionTimestamp = none
  | .report _ choice => choice.delivery = .delivered ∧ ∀ report ∈ L.reports, ∀ other ∈ L.reports,
    report.task.Halted ∨ other.task.Halted ∨ other.round = report.round
  | .outside _ => False

instance (subject : CIDRPolicy) (L : ControlLoop) :
    (label : Label) → Decidable (Inline subject L label)
  | .begin policy => inferInstanceAs (Decidable (policy.SameObject subject ∧ _))
  | .serve _ => inferInstanceAs (Decidable (∀ report ∈ L.reports, report.task.Halted))
  | .finish =>
    inferInstanceAs (Decidable (∀ round ∈ L.rounds, round.policy.metadata.deletionTimestamp = none))
  | .report _ choice => inferInstanceAs (Decidable (choice.delivery = .delivered ∧ _))
  | .outside _ => isFalse id

theorem Inline.admits {subject : CIDRPolicy} {L : ControlLoop} {label : Label}
    (h : Inline subject L label) : Admits subject L label := by
  cases label with
  | begin policy => exact h.1
  | outside change => exact h.elim
  | _ => trivial

/-- The server acts on a status write that it acknowledges. -/
def Served.Acknowledged (e : Served) : Prop :=
  match e.event with
  | ⟨.patchStatus _ _ _ _, answer⟩ => answer.isOk → e.landed
  | _ => True

/-- Each party stands where its program has taken it. -/
structure ControlLoop.Tracked (K : Crates) (subject : CIDRPolicy) (L : ControlLoop) : Prop where
  rounds : ∀ round ∈ L.rounds, round.policy.SameObject subject ∧ ∀ e ∈ round.log, e.Acknowledged
  active : ∀ task, L.active = some task → ∃ round earlier, L.rounds = round :: earlier ∧
    (reconcile K round.policy).Trace round.events task
  reports : ∀ report ∈ L.reports, report.policy.SameObject subject ∧
    report.task.Makes (Call.Within subject) ∧ Reporting report.policy report.error report.task

section Steps
variable {K : Crates} {applied : Apply} {context : ControllerContext} {subject : CIDRPolicy}
variable {L : ControlLoop}

/-- An acknowledged write has landed. -/
theorem serve_acknowledged (choice : Choice) (call : Call) (s : Cluster) :
    Served.Acknowledged ⟨⟨call, (serve applied choice call s).1⟩, choice.delivery.arrives⟩ := by
  cases call with
  | patchStatus ns name params status =>
    intro hok
    cases hdelivery : choice.delivery with
    | delivered => rfl
    | unacknowledged error => rfl
    | lost error =>
      simp only [serve] at hok
      split at hok
      · simp [Delivery.write, hdelivery, Delivery.receive, Except.isOk, Except.toBool] at hok
      · simp [hdelivery, Delivery.receive, Except.isOk, Except.toBool] at hok
  | _ => trivial

namespace ControlLoop.Tracked

theorem start (K : Crates) (subject : CIDRPolicy) (s : Cluster) :
    (ControlLoop.start s).Tracked K subject where
  rounds := List.forall_mem_nil _
  active := by simp [ControlLoop.start]
  reports := List.forall_mem_nil _

/-- The running reconcile is the one of the latest round. -/
theorem position (h : L.Tracked K subject) {task : Task ReconcileError Action} {round : Round}
    {earlier : List Round} (hactive : L.active = some task) (hrounds : L.rounds = round :: earlier) :
    round.policy.SameObject subject ∧ (reconcile K round.policy).Trace round.events task := by
  obtain ⟨round', earlier', hrounds', htrace⟩ := h.active _ hactive
  obtain ⟨rfl, rfl⟩ := List.cons.inj (hrounds.symm.trans hrounds')
  exact ⟨(h.rounds round (by rw [hrounds]; exact List.mem_cons_self ..)).1, htrace⟩

/-- It calls for the policy's own keys only. -/
theorem within (h : L.Tracked K subject) {call : Call}
    {next : call.Answer → Task ReconcileError Action} {round : Round} {earlier : List Round}
    (hactive : L.active = some (.call call next)) (hrounds : L.rounds = round :: earlier) :
    call.Within subject := by
  obtain ⟨hsame, htrace⟩ := h.position hactive hrounds
  exact hsame.within (htrace.makes (reconcile_within K round.policy)).2.1

theorem served (h : L.Tracked K subject) {choice : Choice} {call : Call}
    {next : call.Answer → Task ReconcileError Action} {round : Round} {earlier : List Round}
    (hactive : L.active = some (.call call next)) (hrounds : L.rounds = round :: earlier) :
    (L.served applied choice call next round earlier).Tracked K subject := by
  have hround := h.rounds
  rw [hrounds, List.forall_mem_cons] at hround
  refine ⟨?_, ?_, h.reports⟩
  · rw [ControlLoop.served, List.forall_mem_cons]
    refine ⟨⟨hround.1.1, ?_⟩, hround.2⟩
    intro e he
    rcases List.mem_append.mp he with he | he
    · exact hround.1.2 e he
    · rw [List.mem_singleton.mp he]
      exact serve_acknowledged choice call L.cluster
  · intro task htask
    obtain rfl := Option.some.inj htask
    have htrace := (h.position hactive hrounds).2.snoc (serve applied choice call L.cluster).1
    refine ⟨_, _, rfl, ?_⟩
    simpa [Round.events] using htrace

theorem begun (h : L.Tracked K subject) {policy : CIDRPolicy} (hsame : policy.SameObject subject) :
    (L.begun K policy).Tracked K subject := by
  refine ⟨?_, ?_, h.reports⟩
  · exact List.forall_mem_cons.mpr ⟨⟨hsame, List.forall_mem_nil _⟩, h.rounds⟩
  · intro task htask
    obtain rfl := Option.some.inj htask
    exact ⟨_, _, rfl, .nil _⟩

theorem ended (h : L.Tracked K subject) {round : Round} {earlier : List Round}
    (hrounds : L.rounds = round :: earlier) (outcome : Except ReconcileError Action) :
    ∀ other ∈ { round with outcome := some outcome } :: earlier,
      other.policy.SameObject subject ∧ ∀ e ∈ other.log, e.Acknowledged := by
  have hrounds' := h.rounds
  rw [hrounds, List.forall_mem_cons] at hrounds'
  exact List.forall_mem_cons.mpr hrounds'

theorem failed (h : L.Tracked K subject) {error : ReconcileError} {round : Round}
    {earlier : List Round} (hrounds : L.rounds = round :: earlier) :
    (L.failed K error round earlier).Tracked K subject := by
  have hended := h.ended hrounds (.error error)
  refine ⟨hended, by simp [ControlLoop.failed], ?_⟩
  intro report hreport
  rcases List.mem_append.mp hreport with hreport | hreport
  · exact h.reports report hreport
  · have hsame : round.policy.SameObject subject := (hended _ (List.mem_cons_self ..)).1
    have hwithin := (handleReconcileFailure_within K round.policy error.stage error.message).mono
      fun _ hcall => hsame.within hcall
    rw [List.mem_singleton.mp hreport]
    exact ⟨hsame, hwithin, reporting_handleReconcileFailure K round.policy error⟩

theorem reported (h : L.Tracked K subject) {i : ℕ} {choice : Choice} {report : Report}
    {call : Call} {next : call.Answer → Task KubeError Unit} (hreport : L.reports[i]? = some report)
    (htask : report.task = .call call next) :
    (L.reported applied i choice report call next).Tracked K subject := by
  obtain ⟨hsame, hwithin, hreporting⟩ := h.reports report (List.mem_of_getElem? hreport)
  rw [htask] at hwithin hreporting
  refine ⟨h.rounds, h.active, forall_reported applied h.reports ?_⟩
  exact ⟨hsame, hwithin.2 _, hreporting.next _⟩

/-- Every step that the setting admits keeps track of the parties. -/
theorem step (h : L.Tracked K subject) {label : Label} (hlabel : Admits subject L label) :
    (L.step K applied context label).Tracked K subject := by
  have hstep := step_stepped K applied context L label
  generalize L.step K applied context label = L' at hstep ⊢
  cases hstep with
  | unfit => exact h
  | begin hactive => exact h.begun hlabel
  | serve hactive hrounds => exact h.served hactive hrounds
  | returns hactive hrounds => exact ⟨h.ended hrounds _, by simp [returned], h.reports⟩
  | fails hactive hrounds => exact h.failed hrounds
  | report hreport htask => exact h.reported hreport htask
  | outside change => exact ⟨h.rounds, h.active, h.reports⟩

end ControlLoop.Tracked
end Steps

namespace Sample

/-- The endpoint does not answer. -/
def outage : Choice := { choice 0 with http := .failed "connection refused" }

/-- A round of the sample policy that fails to retrieve its CIDRs. -/
def failedRound : List Label := [.begin policy, .serve outage, .finish]

/-- A round of the sample policy that applies its rendering. -/
def goodRound : List Label := .begin policy :: List.replicate 7 (.serve (choice 0)) ++ [.finish]

/-- Calls of the first report. -/
def reportCalls (n : ℕ) : List Label := List.replicate n (.report 0 (choice 0))

def context : ControllerContext := ⟨60000000000⟩

def runLoop (labels : List Label) : ControlLoop :=
  (ControlLoop.start (cluster policy none)).exec crates replace context labels

end Sample
end Ipmaze
