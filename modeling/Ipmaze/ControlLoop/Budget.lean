import Ipmaze.ControlLoop.Tracking
import Ipmaze.Reconcile.Expenses

/-! What the control loop can cost in calls, and that nothing in it goes on forever: rounds pay for
their calls and for the report of their failure in advance. -/
namespace Ipmaze
open Effects

namespace ControlLoop

/-- The call that a label has served. -/
def calling (L : ControlLoop) : Label → Option Call
  | .serve _ =>
    match L.active, L.rounds with
    | some (.call call _), _ :: _ => some call
    | _, _ => none
  | .report i _ =>
    match L.reports[i]? with
    | some report =>
      match report.task with
      | .call call _ => some call
      | _ => none
    | none => none
  | _ => none

section Calling
variable (K : Crates) (applied : Apply) (context : ControllerContext)
variable {L : ControlLoop} {choice : Choice} {i : ℕ} {call : Call}

theorem calling_serve (h : L.calling (.serve choice) = some call) :
    ∃ next round earlier, L.active = some (.call call next) ∧ L.rounds = round :: earlier := by
  simp only [calling] at h
  split at h
  · next next round earlier hactive hrounds =>
    cases h
    exact ⟨next, round, earlier, hactive, hrounds⟩
  · cases h

theorem calling_report (h : L.calling (.report i choice) = some call) :
    ∃ report next, L.reports[i]? = some report ∧ report.task = .call call next := by
  simp only [calling] at h
  split at h
  · next report hreport =>
    split at h
    · next next htask =>
      cases h
      exact ⟨report, next, hreport, htask⟩
    · cases h
  · cases h

/-- Serving where no call is waiting does nothing. -/
theorem step_serve_none (h : L.calling (.serve choice) = none) :
    L.step K applied context (.serve choice) = L := by
  cases hactive : L.active with
  | none => simp only [step, hactive]
  | some task =>
    cases task with
    | call call next =>
      cases hrounds : L.rounds with
      | nil => simp only [step, hactive, hrounds]
      | cons round earlier => simp [calling, hactive, hrounds] at h
    | _ => simp only [step, hactive]

theorem step_report_none (h : L.calling (.report i choice) = none) :
    L.step K applied context (.report i choice) = L := by
  cases hreport : L.reports[i]? with
  | none => simp only [step, hreport]
  | some report =>
    cases htask : report.task with
    | call call next => simp [calling, hreport, htask] at h
    | _ => simp only [step, hreport, htask]

theorem step_serve_call {next : call.Answer → Task ReconcileError Action} {round : Round}
    {earlier : List Round} (hactive : L.active = some (.call call next))
    (hrounds : L.rounds = round :: earlier) :
    L.step K applied context (.serve choice) = L.served applied choice call next round earlier := by
  simp only [step, hactive, hrounds]
  rfl

theorem step_report_call {report : Report} {next : call.Answer → Task KubeError Unit}
    (hreport : L.reports[i]? = some report) (htask : report.task = .call call next) :
    L.step K applied context (.report i choice) = L.reported applied i choice report call next := by
  simp only [step, hreport, htask]
  rfl

/-- The calls of a run, in the order in which they are served. -/
def calls (L : ControlLoop) : List Label → List Call
  | [] => []
  | label :: labels => (L.calling label).toList ++ (L.step K applied context label).calls labels

end Calling

section Funding
variable (K : Crates) (applied : Apply) (context : ControllerContext)
variable (prices : Prices) {L : ControlLoop} {n : ℕ}

/-- The credits pay for the running reconcile, for the report of its failure, and for all reports
under way. -/
def Funded (L : ControlLoop) (n : ℕ) : Prop :=
  ∃ own others, own + others ≤ n ∧
    (∀ task, L.active = some task → task.Affords prices.of (fun _ => prices.report) own) ∧
    Program.AffordAll prices.of (L.reports.map Report.task) others

theorem funded_start (s : Cluster) : (start s).Funded prices 0 :=
  ⟨0, 0, le_rfl, (fun _ h => nomatch h), trivial⟩

variable {prices}

theorem Funded.begun (h : L.Funded prices n) (policy : CIDRPolicy) :
    (L.begun K policy).Funded prices (n + prices.round) := by
  obtain ⟨own, others, hle, -, hreports⟩ := h
  refine ⟨prices.round, others, by omega, fun task htask => ?_, hreports⟩
  obtain rfl := Option.some.inj htask
  exact (reconcile_affords prices prices.report policy).mono (fun _ => le_rfl)
    (by unfold Prices.round; omega)

theorem Funded.served (h : L.Funded prices n) {call : Call}
    {next : call.Answer → Task ReconcileError Action} (hactive : L.active = some (.call call next))
    (choice : Choice) (round : Round) (earlier : List Round) :
    prices.of call ≤ n ∧
      (L.served applied choice call next round earlier).Funded prices (n - prices.of call) := by
  obtain ⟨own, others, hle, htasks, hreports⟩ := h
  obtain ⟨hprice, hnext⟩ := htasks _ hactive
  refine ⟨by omega, own - prices.of call, others, by omega, fun task htask => ?_, hreports⟩
  obtain rfl := Option.some.inj htask
  exact hnext _

theorem Funded.failed (h : L.Funded prices n) {error : ReconcileError}
    (hactive : L.active = some (.fail error)) (round : Round) (earlier : List Round) :
    (L.failed K error round earlier).Funded prices n := by
  obtain ⟨own, others, hle, htasks, hreports⟩ := h
  have hrest : prices.report ≤ own := htasks _ hactive
  have hreport : (handleReconcileFailure K round.policy error.stage error.message).Affords
      prices.of (fun _ => 0) own :=
    (handleReconcileFailure_affords prices 0 round.policy _ _).mono (fun _ => le_rfl) (by omega)
  refine ⟨0, others + own, by omega, (fun _ h => nomatch h), ?_⟩
  rw [ControlLoop.failed, List.map_append]
  exact hreports.concat hreport

theorem Funded.reported (h : L.Funded prices n) {i : ℕ} {report : Report} {call : Call}
    {next : call.Answer → Task KubeError Unit} (hreport : L.reports[i]? = some report)
    (htask : report.task = .call call next) (choice : Choice) :
    prices.of call ≤ n ∧
      (L.reported applied i choice report call next).Funded prices (n - prices.of call) := by
  obtain ⟨own, others, hle, htasks, hreports⟩ := h
  have hi : (L.reports.map Report.task)[i]? = some (.call (I := Calls) call next) := by
    rw [List.getElem?_map, hreport, Option.map_some, htask]
  obtain ⟨hprice, hset⟩ := hreports.call hi
  refine ⟨by omega, own, others - prices.of call, by omega, htasks, ?_⟩
  rw [ControlLoop.reported, List.map_set]
  exact hset _

/-- A step spends the price of the call it serves, and a round that begins pays in. -/
theorem Funded.step (h : L.Funded prices n) (label : Label) :
    ∃ m, (L.step K applied context label).Funded prices m ∧
      ((L.calling label).toList.map prices.of).sum + m + L.rounds.length*prices.round ≤
        n + (L.step K applied context label).rounds.length*prices.round := by
  cases label with
  | serve choice =>
    cases hcalling : L.calling (.serve choice) with
    | none =>
      rw [step_serve_none K applied context hcalling]
      exact ⟨n, h, by simp⟩
    | some call =>
      obtain ⟨next, round, earlier, hactive, hrounds⟩ := calling_serve hcalling
      rw [step_serve_call K applied context hactive hrounds]
      obtain ⟨hprice, hserved⟩ := h.served applied hactive choice round earlier
      refine ⟨_, hserved, ?_⟩
      have hlength : (L.served applied choice call next round earlier).rounds.length =
          L.rounds.length := by rw [hrounds]; rfl
      simp only [hlength, Option.toList_some, List.map_cons, List.map_nil, List.sum_cons,
        List.sum_nil]
      omega
  | report i choice =>
    cases hcalling : L.calling (.report i choice) with
    | none =>
      rw [step_report_none K applied context hcalling]
      exact ⟨n, h, by simp⟩
    | some call =>
      obtain ⟨report, next, hreport, htask⟩ := calling_report hcalling
      rw [step_report_call K applied context hreport htask]
      obtain ⟨hprice, hreported⟩ := h.reported applied hreport htask choice
      refine ⟨_, hreported, ?_⟩
      simp only [ControlLoop.reported, Option.toList_some, List.map_cons, List.map_nil,
        List.sum_cons, List.sum_nil]
      omega
  | begin policy =>
    have hstep := step_stepped K applied context L (.begin policy)
    generalize L.step K applied context (.begin policy) = L' at hstep ⊢
    cases hstep with
    | unfit => exact ⟨n, h, by simp [calling]⟩
    | begin hactive =>
      refine ⟨_, h.begun K policy, ?_⟩
      simp only [calling, ControlLoop.begun, List.length_cons, Option.toList_none, List.map_nil,
        List.sum_nil, Nat.succ_mul]
      omega
  | finish =>
    have hstep := step_stepped K applied context L .finish
    generalize L.step K applied context .finish = L' at hstep ⊢
    cases hstep with
    | unfit => exact ⟨n, h, by simp [calling]⟩
    | returns hactive hrounds =>
      obtain ⟨own, others, hle, -, hreports⟩ := h
      refine ⟨n, ⟨0, others, by omega, (fun _ h => nomatch h), hreports⟩, ?_⟩
      simp [calling, returned, hrounds]
    | fails hactive hrounds =>
      refine ⟨n, h.failed K hactive _ _, ?_⟩
      simp [calling, ControlLoop.failed, hrounds]
  | outside change => exact ⟨n, h, by simp [calling, ControlLoop.step]⟩

theorem Funded.exec (h : L.Funded prices n) (labels : List Label) :
    ∃ m, (L.exec K applied context labels).Funded prices m ∧
      ((L.calls K applied context labels).map prices.of).sum + m + L.rounds.length*prices.round ≤
        n + (L.exec K applied context labels).rounds.length*prices.round := by
  induction labels generalizing L n with
  | nil => exact ⟨n, h, by simp [calls, ControlLoop.exec]⟩
  | cons label labels ih =>
    obtain ⟨m, hm, hstep⟩ := h.step K applied context label
    obtain ⟨m', hm', hrest⟩ := ih hm
    refine ⟨m', hm', ?_⟩
    simp only [calls, List.map_append, List.sum_append]
    rw [ControlLoop.exec, List.foldl_cons, ← ControlLoop.exec]
    omega

end Funding
end ControlLoop

/-- However the rounds, the reports of their failures and other parties interleave, the calls of a
run cost no more than its rounds have paid: two requests, one check, one write, one read, two
status patches and two events each. -/
theorem calls_within_budget (K : Crates) (applied : Apply) (context : ControllerContext)
    (prices : Prices) (s : Cluster) (labels : List Label) :
    (((ControlLoop.start s).calls K applied context labels).map prices.of).sum ≤
      ((ControlLoop.start s).exec K applied context labels).rounds.length*prices.round := by
  obtain ⟨m, -, hspent⟩ := (ControlLoop.funded_start prices s).exec K applied context labels
  rw [show (ControlLoop.start s).rounds.length = 0 from rfl] at hspent
  omega

end Ipmaze
