import Ipmaze.ControlLoop.LastSuccess

/-! Reports that run beside later rounds. The status ends up right if it is written in the order
of the rounds: a write by which a round publishes how it went must leave no report of an earlier
round behind. -/
namespace Ipmaze
open Effects

/-- The error the status should show after the round. -/
def Round.error (round : Round) : Option String :=
  match round.outcome with
  | some (.error error) => some error.text
  | _ => none

/-- The status shows the success stamped last and, once everything is at rest, the error of the
latest round. -/
structure StatusShows (K : Crates) (subject : CIDRPolicy) (initial : Option String × List String)
    (L : ControlLoop) : Prop where
  success : ∀ stored ∈ L.cluster.stored subject, LastSuccess K initial L.rounds stored.success
  error : L.active = none → (∀ report ∈ L.reports, report.task.Halted) →
    ∀ round earlier, L.rounds = round :: earlier →
      ∀ stored ∈ L.cluster.stored subject, stored.shownError = round.error

/-- The status shows this error, and no report is going to replace it by another. -/
def Quiet (subject : CIDRPolicy) (error : Option String) (L : ControlLoop) : Prop :=
  ∀ stored ∈ L.cluster.stored subject, stored.shownError = error ∧
    ∀ report ∈ L.reports, report.Pending → some report.error.text = error

/-- A write of the status takes effect only when no report of an earlier round with another error
may still write. The report of the latest round gets its calls through, and a round that ends in a
cleanup, which publishes nothing, ends while no error is shown or still to come. -/
def Orderly (subject : CIDRPolicy) (L : ControlLoop) (label : Label) : Prop :=
  Admits subject L label ∧
  match label with
  | .serve choice => ∀ task, L.active = some task → task.StandsAt Call.Tells →
    choice.delivery.arrives → ∀ report ∈ L.reports, ¬ report.Pending
  | .finish => ∀ action round earlier, L.active = some (.ret action) → L.rounds = round :: earlier →
    round.policy.metadata.deletionTimestamp = none ∨ Quiet subject none L
  | .report i choice => ∀ report, L.reports[i]? = some report → report.Pending →
    (report.task.StandsAt Call.Tells → choice.delivery.arrives → ∀ other ∈ L.reports,
      other.Pending → other.round < report.round → other.error.text = report.error.text) ∧
    (report.round = L.rounds.length → choice.delivery = .delivered ∨
      report.task.StandsAt Call.Tells ∧ choice.delivery.arrives)
  | _ => True

/-- The report of the latest round may still write. -/
def Awaited (L : ControlLoop) : Prop :=
  ∃ report ∈ L.reports, report.round = L.rounds.length ∧ report.Pending

/-- Reports are numbered by the rounds that failed, and how the latest round went is shown, or
its report is still to come. -/
structure Numbered (K : Crates) (subject : CIDRPolicy) (L : ControlLoop) : Prop where
  bound : ∀ report ∈ L.reports, report.round ≤ L.rounds.length
  running : L.active.isSome → ∀ report ∈ L.reports, report.round < L.rounds.length
  latest : ∀ report ∈ L.reports, ∀ round earlier, L.rounds = round :: earlier →
    report.round = L.rounds.length → round.outcome = some (.error report.error)
  stamped : L.active.isSome → ∀ round earlier, L.rounds = round :: earlier →
    (∃ r now, round.Succeeds K r now) → Quiet subject none L
  ended : L.active = none → ∀ round earlier, L.rounds = round :: earlier →
    (∃ action, round.outcome = some (.ok action)) ∧ Quiet subject none L ∨
      ∃ error, round.outcome = some (.error error) ∧ (Awaited L ∨ Quiet subject (some error.text) L)

section Steps
variable {K : Crates} {applied : Apply} {context : ControllerContext} {subject : CIDRPolicy}
variable {L : ControlLoop}

theorem Orderly.unraced {label : Label} (h : Orderly subject L label) : Unraced L label := by
  cases label with
  | serve choice =>
    rintro task hactive hstands harrives report hreport status ⟨ns, name, params, next, htask⟩
    refine h.2 task hactive hstands harrives report hreport (Report.pending_of_standsAt ?_)
    rw [htask]
    trivial
  | _ => trivial

/-- Reports keep the quiet. -/
theorem Quiet.reported {error : Option String} (h : Quiet subject error L)
    (htracked : L.Tracked K subject) {i : ℕ} {choice : Choice} {report : Report} {call : Call}
    {next : call.Answer → Task KubeError Unit} (hreport : L.reports[i]? = some report)
    (htask : report.task = .call call next) :
    Quiet subject error (L.reported applied i choice report call next) := by
  have hmem := List.mem_of_getElem? hreport
  obtain ⟨hsame, hwithin, hreporting⟩ := htracked.reports report hmem
  rw [htask] at hwithin hreporting
  have hshown : ∀ stored ∈ (serve applied choice call L.cluster).2.stored subject,
      ∃ before ∈ L.cluster.stored subject, stored.shownError = error := by
    intro stored hstored
    cases hreporting.step hsame hwithin.1 choice L.cluster with
    | read hcurrent hkept htask' =>
      rw [hkept] at hstored
      exact ⟨stored, hstored, (h stored hstored).1⟩
    | unread hreads hnone hkept hdone =>
      rw [hkept] at hstored
      exact ⟨stored, hstored, (h stored hstored).1⟩
    | idle hidle hkept hdone =>
      rw [hkept] at hstored
      exact ⟨stored, hstored, (h stored hstored).1⟩
    | write htask' hwritten hdone =>
      rw [hwritten] at hstored
      split at hstored
      · obtain ⟨before, hbefore, rfl⟩ := Option.map_eq_some_iff.mp hstored
        have hpending : report.Pending := by
          apply Report.pending_of_standsAt
          rw [htask, htask']
          trivial
        exact ⟨before, hbefore, (h before hbefore).2 report hmem hpending⟩
      · exact ⟨stored, hstored, (h stored hstored).1⟩
  intro stored hstored
  obtain ⟨before, hbefore, herror⟩ := hshown stored hstored
  have hquiet := (h before hbefore).2
  exact ⟨herror, ControlLoop.forall_reported applied hquiet fun hpending =>
    hquiet report hmem (hpending.of_next htask)⟩

/-- The latest round is a number that only its own report has. -/
theorem Numbered.text_eq (h : Numbered K subject L) {round : Round} {earlier : List Round}
    (hrounds : L.rounds = round :: earlier) {error : ReconcileError}
    (houtcome : round.outcome = some (.error error)) {report : Report} (hmem : report ∈ L.reports)
    (hround : report.round = L.rounds.length) : report.error.text = error.text := by
  have hlatest := h.latest report hmem round earlier hrounds hround
  rw [houtcome] at hlatest
  rw [Except.error.inj (Option.some.inj hlatest)]

/-- Once the report of the latest round has written, no other report has anything else to say. -/
theorem Numbered.quiet_of_write (h : Numbered K subject L) {round : Round} {earlier : List Round}
    (hrounds : L.rounds = round :: earlier) {error : ReconcileError}
    (houtcome : round.outcome = some (.error error)) {i : ℕ} {choice : Choice} {report : Report}
    {call : Call} {next : call.Answer → Task KubeError Unit} (hmem : report ∈ L.reports)
    (hround : report.round = L.rounds.length)
    (horder : ∀ other ∈ L.reports, other.Pending → other.round < report.round →
      other.error.text = report.error.text)
    (hwritten : ∀ stored ∈ (serve applied choice call L.cluster).2.stored subject,
      stored.shownError = some report.error.text)
    (hdone : (next (serve applied choice call L.cluster).1).Makes Call.Idle) :
    Quiet subject (some error.text) (L.reported applied i choice report call next) := by
  have htext := h.text_eq hrounds houtcome hmem hround
  have hothers : ∀ other ∈ L.reports, other.Pending → some other.error.text = some error.text := by
    intro other hother hpending
    rcases (h.bound other hother).lt_or_eq with hlt | heq
    · rw [← hround] at hlt
      rw [horder other hother hpending hlt, htext]
    · rw [h.text_eq hrounds houtcome hother heq]
  intro stored hstored
  refine ⟨(hwritten stored hstored).trans (congrArg some htext), ?_⟩
  exact ControlLoop.forall_reported applied hothers fun hpending =>
    (Report.not_pending_of_idle hdone hpending).elim

/-- The awaited report stays awaited until it has written. -/
theorem Numbered.awaited (h : Numbered K subject L) (htracked : L.Tracked K subject) {i : ℕ}
    {choice : Choice} {report : Report} {call : Call} {next : call.Answer → Task KubeError Unit}
    (hreport : L.reports[i]? = some report) (htask : report.task = .call call next)
    (horderly : Orderly subject L (.report i choice)) {round : Round} {earlier : List Round}
    (hrounds : L.rounds = round :: earlier) {error : ReconcileError}
    (houtcome : round.outcome = some (.error error)) (hawaited : Awaited L) :
    Awaited (L.reported applied i choice report call next) ∨
      Quiet subject (some error.text) (L.reported applied i choice report call next) := by
  obtain ⟨awaited, hmem, hround, hpending⟩ := hawaited
  have hreportMem := List.mem_of_getElem? hreport
  obtain ⟨hsame, hwithin, hreporting⟩ := htracked.reports report hreportMem
  obtain ⟨j, hj⟩ := List.mem_iff_getElem?.mp hmem
  have hlt : i < L.reports.length := (List.getElem?_eq_some_iff.mp hreport).1
  by_cases hij : i = j
  · subst hij
    obtain rfl := Option.some.inj (hreport.symm.trans hj)
    have hself : { report with task := next (serve applied choice call L.cluster).1 } ∈
        (L.reported applied i choice report call next).reports :=
      List.mem_of_getElem? (List.getElem?_set_self hlt)
    obtain ⟨horder, hdelivered⟩ := horderly.2 report hreport hpending
    rw [htask] at hwithin hreporting
    cases hreporting.step hsame hwithin.1 choice L.cluster with
    | read hcurrent hkept htask' =>
      refine Or.inl ⟨_, hself, hround, Report.pending_of_standsAt ?_⟩
      rw [htask']
      trivial
    | unread hreads hnone hkept hdone =>
      right
      intro stored hstored
      rw [← htask] at hreads
      rcases hdelivered hround with hdelivered | ⟨hstands, -⟩
      · have hstored' : stored ∈ L.cluster.stored subject := by rwa [← hkept]
        rw [hnone hdelivered] at hstored'
        cases hstored'
      · exact (hreads hstands).elim
    | write htask' hwritten hdone =>
      right
      have hstands : report.task.StandsAt Call.Tells := by
        rw [htask, htask']
        trivial
      have harrives : choice.delivery.arrives := by
        rcases hdelivered hround with hdelivered | ⟨-, harrives⟩
        · rw [hdelivered]
          rfl
        · exact harrives
      refine h.quiet_of_write hrounds houtcome hreportMem hround (horder hstands harrives) ?_ hdone
      intro stored hstored
      rw [hwritten, if_pos harrives] at hstored
      obtain ⟨before, -, rfl⟩ := Option.map_eq_some_iff.mp hstored
      rfl
    | idle hidle hkept hdone =>
      rw [← htask] at hidle
      exact (Report.not_pending_of_idle hidle hpending).elim
  · refine Or.inl ⟨awaited, ?_, hround, hpending⟩
    exact List.mem_of_getElem? ((List.getElem?_set_ne hij).trans hj)

theorem Numbered.reported (h : Numbered K subject L) (htracked : L.Tracked K subject) {i : ℕ}
    {choice : Choice} {report : Report} {call : Call} {next : call.Answer → Task KubeError Unit}
    (hreport : L.reports[i]? = some report) (htask : report.task = .call call next)
    (horderly : Orderly subject L (.report i choice)) :
    Numbered K subject (L.reported applied i choice report call next) := by
  have hmem := List.mem_of_getElem? hreport
  have hquiet (error : Option String) (hq : Quiet subject error L) :
      Quiet subject error (L.reported applied i choice report call next) :=
    hq.reported htracked hreport htask
  refine ⟨?_, ?_, ?_, ?_, ?_⟩
  · exact ControlLoop.forall_reported applied h.bound (h.bound report hmem)
  · intro hactive
    have hrunning := h.running hactive
    exact ControlLoop.forall_reported applied hrunning (hrunning report hmem)
  · exact ControlLoop.forall_reported applied h.latest (h.latest report hmem)
  · intro hactive round earlier hrounds hsucceeds
    exact hquiet none (h.stamped hactive round earlier hrounds hsucceeds)
  · intro hactive round earlier hrounds
    rcases h.ended hactive round earlier hrounds with ⟨haction, hq⟩ | ⟨error, houtcome, hawaited | hq⟩
    · exact Or.inl ⟨haction, hquiet none hq⟩
    · exact Or.inr ⟨error, houtcome,
        h.awaited htracked hreport htask horderly hrounds houtcome hawaited⟩
    · exact Or.inr ⟨error, houtcome, Or.inr (hquiet _ hq)⟩

/-- A reconcile that stamps its success leaves no report behind. -/
theorem Numbered.served (h : Numbered K subject L) (htracked : L.Tracked K subject)
    {choice : Choice} {call : Call} {next : call.Answer → Task ReconcileError Action}
    {round : Round} {earlier : List Round} (hactive : L.active = some (.call call next))
    (hrounds : L.rounds = round :: earlier) (horderly : Orderly subject L (.serve choice)) :
    Numbered K subject (L.served applied choice call next round earlier) := by
  have hwithin := htracked.within hactive hrounds
  have hrunning : L.active.isSome := by
    rw [hactive]
    rfl
  have hlength : (L.served applied choice call next round earlier).rounds.length =
      L.rounds.length := by
    rw [hrounds]
    rfl
  refine ⟨?_, ?_, ?_, ?_, fun hidle => nomatch hidle⟩
  · rw [hlength]
    exact h.bound
  · rw [hlength]
    exact fun _ => h.running hrunning
  · intro report hreport round' earlier' hrounds' hround
    rw [hlength] at hround
    exact absurd hround (h.running hrunning report hreport).ne
  · rintro - round' earlier' hrounds' ⟨r, now, hsucceeds⟩
    obtain ⟨rfl, rfl⟩ := List.cons.inj hrounds'
    by_cases htells : call.Tells ∧ choice.delivery.arrives
    · obtain ⟨htells, harrives⟩ := htells
      have hstored := serve_stored applied hwithin choice L.cluster
      have htrace := (htracked.position hactive hrounds).2
      cases call with
      | patchStatus ns name params status =>
        obtain ⟨r, now, rfl, -⟩ := succeeds_of_write htrace (.ok ())
        intro stored hmem
        simp only [ControlLoop.served, hstored, harrives, if_true] at hmem
        obtain ⟨before, -, rfl⟩ := Option.map_eq_some_iff.mp hmem
        refine ⟨rfl, fun report hreport hpending => ?_⟩
        exact (horderly.2 _ hactive htells harrives report hreport hpending).elim
      | _ => exact htells.elim
    · have hkept := serve_stored_kept applied hwithin htells L.cluster
      have hbefore : round.Succeeds K r now := by
        rcases Round.Succeeds.of_push hsucceeds with hbefore | ⟨hlanded, ns, name, params, hcall⟩
        · exact hbefore
        · change call = _ at hcall
          subst hcall
          exact (htells ⟨trivial, hlanded⟩).elim
      intro stored hmem
      simp only [ControlLoop.served, hkept] at hmem
      exact h.stamped hrunning round earlier hrounds ⟨r, now, hbefore⟩ stored hmem

/-- A live reconcile that returns has stamped its success. -/
theorem succeeds_of_returned {round : Round} {action : Action}
    (hlive : round.policy.metadata.deletionTimestamp = none)
    (hacknowledged : ∀ e ∈ round.log, e.Acknowledged)
    (htrace : (reconcile K round.policy).Trace round.events (.ret action)) :
    ∃ r now, round.Succeeds K r now := by
  obtain ⟨r, before, after, now, hlog, hresolved, hmem⟩ := reconcile_returned hlive htrace
  obtain ⟨before, after, hsplit, rfl, rfl⟩ := List.map_eq_append_iff.mp hlog
  obtain ⟨e, he, hevent⟩ := List.mem_map.mp hmem
  have hlanded := hacknowledged e (by rw [hsplit]; exact List.mem_append_right _ he)
  rw [Served.Acknowledged, hevent] at hlanded
  refine ⟨r, now, after, ⟨hlive, before, hsplit, hresolved⟩, e, he, hlanded rfl, ?_⟩
  rw [hevent]
  exact ⟨_, _, _, rfl⟩

theorem Numbered.returned (h : Numbered K subject L) (htracked : L.Tracked K subject)
    {action : Action} {round : Round} {earlier : List Round}
    (hactive : L.active = some (.ret action)) (hrounds : L.rounds = round :: earlier)
    (hends : round.policy.metadata.deletionTimestamp = none ∨ Quiet subject none L) :
    Numbered K subject (L.returned action round earlier) := by
  have hrunning : L.active.isSome := by
    rw [hactive]
    rfl
  have hlength : (L.returned action round earlier).rounds.length = L.rounds.length := by
    rw [hrounds]
    rfl
  refine ⟨?_, fun hidle => (nomatch hidle), ?_, fun hidle => (nomatch hidle), ?_⟩
  · rw [hlength]
    exact h.bound
  · rintro report hreport round' earlier' - hround
    rw [hlength] at hround
    exact absurd hround (h.running hrunning report hreport).ne
  · rintro - round' earlier' hrounds'
    obtain ⟨rfl, rfl⟩ := List.cons.inj hrounds'
    refine Or.inl ⟨⟨action, rfl⟩, ?_⟩
    rcases hends with hlive | hquiet
    · have htrace := (htracked.position hactive hrounds).2
      have hmem : round ∈ L.rounds := by
        rw [hrounds]
        exact List.mem_cons_self ..
      have hsucceeds := succeeds_of_returned hlive (htracked.rounds round hmem).2 htrace
      exact h.stamped hrunning round earlier hrounds hsucceeds
    · exact hquiet

theorem Numbered.failed (h : Numbered K subject L) (htracked : L.Tracked K subject)
    {error : ReconcileError} {round : Round} {earlier : List Round}
    (hactive : L.active = some (.fail error)) (hrounds : L.rounds = round :: earlier) :
    Numbered K subject (L.failed K error round earlier) := by
  have hrunning : L.active.isSome := by
    rw [hactive]
    rfl
  have hlength : (L.failed K error round earlier).rounds.length = L.rounds.length := by
    rw [hrounds]
    rfl
  have hmem : round ∈ L.rounds := by
    rw [hrounds]
    exact List.mem_cons_self ..
  refine ⟨?_, fun hidle => (nomatch hidle), ?_, fun hidle => (nomatch hidle), ?_⟩
  · rw [hlength]
    intro report hreport
    rcases List.mem_append.mp hreport with hreport | hreport
    · exact h.bound report hreport
    · rw [List.mem_singleton.mp hreport]
  · intro report hreport round' earlier' hrounds' hround
    obtain ⟨rfl, rfl⟩ := List.cons.inj hrounds'
    rw [hlength] at hround
    rcases List.mem_append.mp hreport with hreport | hreport
    · exact absurd hround (h.running hrunning report hreport).ne
    · rw [List.mem_singleton.mp hreport]
  · rintro - round' earlier' hrounds'
    obtain ⟨rfl, rfl⟩ := List.cons.inj hrounds'
    refine Or.inr ⟨error, rfl, ?_⟩
    cases hns : round.policy.metadata.ns with
    | none =>
      right
      intro stored hstored
      have hsubject := (htracked.rounds round hmem).1.ns.symm.trans hns
      simp [ControlLoop.failed, Cluster.stored, hsubject] at hstored
    | some ns =>
      left
      refine ⟨_, List.mem_append_right _ (List.mem_singleton_self _), hlength.symm, ?_⟩
      intro hmakes
      rw [handleReconcileFailure_eq K hns] at hmakes
      exact (hmakes.2 (.ok round.policy)).1 trivial

theorem Numbered.start (K : Crates) (subject : CIDRPolicy) (s : Cluster) :
    Numbered K subject (ControlLoop.start s) where
  bound := List.forall_mem_nil _
  running := fun hidle => nomatch hidle
  latest := List.forall_mem_nil _
  stamped := fun hidle => nomatch hidle
  ended := by simp [ControlLoop.start]

theorem Numbered.begun (h : Numbered K subject L) (policy : CIDRPolicy) :
    Numbered K subject (L.begun K policy) := by
  have hlt (report : Report) (hreport : report ∈ L.reports) :
      report.round < L.rounds.length + 1 := by
    have := h.bound report hreport
    omega
  refine ⟨?_, ?_, ?_, ?_, by simp [ControlLoop.begun]⟩
  · intro report hreport
    exact (hlt report hreport).le
  · exact fun _ => hlt
  · rintro report hreport round earlier - hround
    exact absurd hround (hlt report hreport).ne
  · rintro - round earlier hrounds ⟨r, now, hsucceeds⟩
    obtain ⟨rfl, rfl⟩ := List.cons.inj hrounds
    exact (Round.not_succeeds_of_empty rfl r now hsucceeds).elim

theorem Numbered.outside (h : Numbered K subject L) {change : Cluster → Cluster}
    (hkeeps : Keeps subject L.cluster (change L.cluster)) :
    Numbered K subject { L with cluster := change L.cluster } := by
  have hquiet (error : Option String) (hq : Quiet subject error L) :
      Quiet subject error { L with cluster := change L.cluster } := by
    intro stored hstored
    obtain ⟨before, hbefore, hstatus⟩ := hkeeps.stored stored hstored
    refine ⟨?_, (hq before hbefore).2⟩
    rw [CIDRPolicy.shownError, hstatus]
    exact (hq before hbefore).1
  refine ⟨h.bound, h.running, h.latest, ?_, ?_⟩
  · intro hactive round earlier hrounds hsucceeds
    exact hquiet none (h.stamped hactive round earlier hrounds hsucceeds)
  · intro hactive round earlier hrounds
    rcases h.ended hactive round earlier hrounds with ⟨haction, hq⟩ | ⟨error, houtcome, hq⟩
    · exact Or.inl ⟨haction, hquiet none hq⟩
    · exact Or.inr ⟨error, houtcome, hq.imp_right (hquiet _)⟩

theorem Numbered.step (h : Numbered K subject L) (htracked : L.Tracked K subject)
    {label : Label} (horderly : Orderly subject L label) :
    Numbered K subject (L.step K applied context label) := by
  have hstep := ControlLoop.step_stepped K applied context L label
  generalize L.step K applied context label = L' at hstep ⊢
  cases hstep with
  | unfit => exact h
  | begin hactive => exact h.begun _
  | serve hactive hrounds => exact h.served htracked hactive hrounds horderly
  | returns hactive hrounds =>
    exact h.returned htracked hactive hrounds (horderly.2 _ _ _ hactive hrounds)
  | fails hactive hrounds => exact h.failed htracked hactive hrounds
  | report hreport htask => exact h.reported htracked hreport htask horderly
  | outside change => exact h.outside horderly.1

/-- Once everything is at rest, the status shows how the latest round went. -/
theorem Numbered.error (h : Numbered K subject L) (hidle : L.active = none)
    (hhalted : ∀ report ∈ L.reports, report.task.Halted) {round : Round} {earlier : List Round}
    (hrounds : L.rounds = round :: earlier) {stored : CIDRPolicy}
    (hstored : stored ∈ L.cluster.stored subject) : stored.shownError = round.error := by
  rcases h.ended hidle round earlier hrounds with ⟨⟨action, houtcome⟩, hq⟩ |
    ⟨error, houtcome, ⟨report, hreport, -, hpending⟩ | hq⟩
  · rw [(hq stored hstored).1, Round.error, houtcome]
  · exact (Report.not_pending_of_halted (hhalted report hreport) hpending).elim
  · rw [(hq stored hstored).1, Round.error, houtcome]

variable (K applied context) in
/-- In every run in which the status is written in the order of the rounds, no report of an
earlier round displaces a later success, and when all reports have ended the status shows the
error of the latest round. -/
theorem orderly_status_shows (subject : CIDRPolicy) (s : Cluster) (labels : List Label)
    (h : Along (ControlLoop.step K applied context) (Orderly subject) (ControlLoop.start s) labels) :
    StatusShows K subject (s.success subject)
      ((ControlLoop.start s).exec K applied context labels) := by
  have hend := h.invariant
    (J := fun L => L.Tracked K subject ∧ Fresh K subject (s.success subject) L ∧
      Numbered K subject L)
    (fun L label ⟨htracked, hfresh, hnumbered⟩ horderly =>
      ⟨htracked.step horderly.1, hfresh.step htracked horderly.1 horderly.unraced,
        hnumbered.step htracked horderly⟩)
    ⟨.start K subject s, .start K subject s, .start K subject s⟩
  obtain ⟨-, hfresh, hnumbered⟩ := hend
  exact ⟨hfresh.shown, fun hidle hhalted round earlier hrounds stored hstored =>
    hnumbered.error hidle hhalted hrounds hstored⟩

/-- Reports may run beside later rounds, but they end before one of these writes the status. -/
def Timely (subject : CIDRPolicy) (L : ControlLoop) : Label → Prop
  | .begin policy => policy.SameObject subject
  | .serve _ => ∀ task ∈ L.active, task.StandsAt Call.Tells →
    ∀ report ∈ L.reports, report.task.Halted
  | .finish => ∀ round ∈ L.rounds, round.policy.metadata.deletionTimestamp = none
  | .report _ choice => choice.delivery = .delivered ∧ ∀ report ∈ L.reports, ∀ other ∈ L.reports,
    report.task.Halted ∨ other.task.Halted ∨ other.round = report.round
  | .outside _ => False

instance {ε α : Type} : (task : Task ε α) → Decidable (task.StandsAt Call.Tells)
  | .ret _ | .fail _ => isFalse id
  | .call call _ => inferInstanceAs (Decidable call.Tells)

instance (subject : CIDRPolicy) (L : ControlLoop) :
    (label : Label) → Decidable (Timely subject L label)
  | .begin policy => inferInstanceAs (Decidable (policy.SameObject subject))
  | .serve _ =>
    inferInstanceAs (Decidable (∀ task ∈ L.active, task.StandsAt Call.Tells →
      ∀ report ∈ L.reports, report.task.Halted))
  | .finish =>
    inferInstanceAs (Decidable (∀ round ∈ L.rounds, round.policy.metadata.deletionTimestamp = none))
  | .report _ choice => inferInstanceAs (Decidable (choice.delivery = .delivered ∧ _))
  | .outside _ => isFalse id

theorem Timely.orderly {label : Label} (h : Timely subject L label) : Orderly subject L label := by
  cases label with
  | begin policy => exact ⟨h, trivial⟩
  | serve choice =>
    refine ⟨trivial, fun task hactive hstands _ report hreport => ?_⟩
    exact Report.not_pending_of_halted (h task hactive hstands report hreport)
  | finish =>
    refine ⟨trivial, fun action round earlier _ hrounds => Or.inl (h round ?_)⟩
    rw [hrounds]
    exact List.mem_cons_self ..
  | report i choice =>
    refine ⟨trivial, fun report hreport hpending => ⟨?_, fun _ => Or.inl h.1⟩⟩
    intro _ _ other hother hpending' hlt
    rcases h.2 report (List.mem_of_getElem? hreport) other hother with hhalted | hhalted | hround
    · exact (Report.not_pending_of_halted hhalted hpending).elim
    · exact (Report.not_pending_of_halted hhalted hpending').elim
    · exact absurd hround hlt.ne
  | outside change => exact h.elim

end Steps

namespace Sample

/-- The report of the first round reads the status before the second round begins, and writes it
before the second round does. -/
def overlappingRounds : List Label :=
  failedRound ++ reportCalls 1 ++ goodRound.take 5 ++ reportCalls 2 ++ goodRound.drop 5

end Sample

open Sample in
theorem orderly_status_shows_overlapping :
    StatusShows crates policy (none, []) (runLoop overlappingRounds) := by
  have htimely : Along (ControlLoop.step crates replace context) (Timely policy)
      (ControlLoop.start (cluster policy none)) overlappingRounds := by
    decide
  exact orderly_status_shows crates replace context policy (cluster policy none) _
    (htimely.mono fun _ _ h => h.orderly)

open Sample in
/-- A report reads the status, the next round succeeds, and then the report writes back what it
has read: the success is gone and the error of the earlier round is shown for good. -/
theorem late_report_not_statusShows :
    ((runLoop (failedRound ++ reportCalls 1 ++ goodRound)).cluster.stored policy).map
        CIDRPolicy.success = some (some "1970-01-01T00:00:00+00:00", ["10.0.0.0/24"]) ∧
      ((runLoop (failedRound ++ reportCalls 1 ++ goodRound ++ reportCalls 2)).cluster.stored
        policy).map CIDRPolicy.success = some (none, []) ∧
      ¬ StatusShows crates policy (none, [])
        (runLoop (failedRound ++ reportCalls 1 ++ goodRound ++ reportCalls 2)) := by
  refine ⟨by decide, by decide, fun h => ?_⟩
  have hidle : (runLoop (failedRound ++ reportCalls 1 ++ goodRound ++ reportCalls 2)).active =
      none := rfl
  have hround : (runLoop (failedRound ++ reportCalls 1 ++ goodRound ++ reportCalls 2)).rounds.head?.map
      Round.error = some none := by decide
  have hshown : ((runLoop (failedRound ++ reportCalls 1 ++ goodRound ++ reportCalls 2)).cluster.stored
      policy).map CIDRPolicy.shownError =
        some (some "transport: unable to retrieve final JSON source") := by
    decide
  obtain ⟨stored, hstored, herror⟩ := Option.map_eq_some_iff.mp hshown
  cases hrounds : (runLoop (failedRound ++ reportCalls 1 ++ goodRound ++ reportCalls 2)).rounds with
  | nil =>
    rw [hrounds] at hround
    cases hround
  | cons round earlier =>
    have hlatest := h.error hidle (by decide) round earlier hrounds stored hstored
    rw [hrounds] at hround
    rw [herror, Option.some.inj hround] at hlatest
    cases hlatest

end Ipmaze
