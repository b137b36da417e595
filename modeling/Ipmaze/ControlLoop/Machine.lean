import Ipmaze.Effects.Steps
import Ipmaze.Reconcile.Answers
import Ipmaze.Runs

/-! The control loop of one CIDRPolicy. Its reconciles run one after the other, each on a
snapshot of the policy; a reconcile that fails spawns a task that reports the failure, and
such tasks run beside whatever the loop does next. -/
namespace Ipmaze
open Effects

/-- A call that was served, and whether the server got to act on it. -/
structure Served where
  event : Calls.Event
  landed : Bool

/-- A reconcile so far: the snapshot it was given, the calls it made, how it ended. -/
structure Round where
  policy : CIDRPolicy
  log : List Served
  outcome : Option (Except ReconcileError Action)

/-- The task spawned by the failure of a round, which is given by its number. -/
structure Report where
  round : ℕ
  policy : CIDRPolicy
  error : ReconcileError
  task : Task KubeError Unit

/-- The rounds are kept from the latest to the first, and numbered from one. -/
structure ControlLoop where
  cluster : Cluster
  rounds : List Round
  active : Option (Task ReconcileError Action)
  reports : List Report

inductive Label
  | begin (policy : CIDRPolicy)
  | serve (choice : Choice)
  | finish
  | report (i : ℕ) (choice : Choice)
  | outside (change : Cluster → Cluster)

def Round.events (round : Round) : List Calls.Event := round.log.map Served.event

namespace ControlLoop

def start (s : Cluster) : ControlLoop := ⟨s, [], none, []⟩

variable (K : Crates) (applied : Apply) (context : ControllerContext)

/-- A label that does not fit the state of the loop does nothing. -/
def step (L : ControlLoop) : Label → ControlLoop
  | .begin policy =>
    match L.active with
    | none =>
      { L with rounds := ⟨policy, [], none⟩ :: L.rounds, active := some (reconcile K policy) }
    | some _ => L
  | .serve choice =>
    match L.active, L.rounds with
    | some (.call call next), round :: earlier =>
      let served := serve applied choice call L.cluster
      { L with
        cluster := served.2
        rounds := { round with
          log := round.log ++ [⟨⟨call, served.1⟩, choice.delivery.arrives⟩] } :: earlier
        active := some (next served.1) }
    | _, _ => L
  | .finish =>
    match L.active, L.rounds with
    | some (.ret action), round :: earlier =>
      { L with rounds := { round with outcome := some (.ok action) } :: earlier, active := none }
    | some (.fail error), round :: earlier =>
      { L with
        rounds := { round with outcome := some (.error error) } :: earlier
        active := none
        reports := L.reports ++ [{
          round := L.rounds.length
          policy := round.policy
          error
          task := (errorPolicy K context round.policy error).1 }] }
    | _, _ => L
  | .report i choice =>
    match L.reports[i]? with
    | some report =>
      match report.task with
      | .call call next =>
        let served := serve applied choice call L.cluster
        { L with
          cluster := served.2
          reports := L.reports.set i { report with task := next served.1 } }
      | _ => L
    | none => L
  | .outside change => { L with cluster := change L.cluster }

def exec (L : ControlLoop) (labels : List Label) : ControlLoop :=
  labels.foldl (step K applied context) L

/-- A new round has begun. -/
def begun (L : ControlLoop) (policy : CIDRPolicy) : ControlLoop :=
  { L with rounds := ⟨policy, [], none⟩ :: L.rounds, active := some (reconcile K policy) }

/-- The next call of the running reconcile is served. -/
def served (L : ControlLoop) (choice : Choice) (call : Call)
    (next : call.Answer → Task ReconcileError Action) (round : Round) (earlier : List Round) :
    ControlLoop :=
  { L with
    cluster := (serve applied choice call L.cluster).2
    rounds := { round with
      log := round.log ++
        [⟨⟨call, (serve applied choice call L.cluster).1⟩, choice.delivery.arrives⟩] } :: earlier
    active := some (next (serve applied choice call L.cluster).1) }

/-- The next call of a report is served. -/
def reported (L : ControlLoop) (i : ℕ) (choice : Choice) (report : Report) (call : Call)
    (next : call.Answer → Task KubeError Unit) : ControlLoop :=
  { L with
    cluster := (serve applied choice call L.cluster).2
    reports := L.reports.set i { report with task := next (serve applied choice call L.cluster).1 } }

/-- What holds of all reports is kept if the one whose call was served keeps it. -/
theorem forall_reported {P : Report → Prop} {L : ControlLoop} {i : ℕ} {choice : Choice}
    {report : Report} {call : Call} {next : call.Answer → Task KubeError Unit}
    (h : ∀ other ∈ L.reports, P other)
    (hself : P { report with task := next (serve applied choice call L.cluster).1 }) :
    ∀ other ∈ (L.reported applied i choice report call next).reports, P other := by
  intro other hother
  rcases List.mem_or_eq_of_mem_set hother with hother | rfl
  · exact h other hother
  · exact hself

/-- The running reconcile has returned. -/
def returned (L : ControlLoop) (action : Action) (round : Round) (earlier : List Round) :
    ControlLoop :=
  { L with rounds := { round with outcome := some (.ok action) } :: earlier, active := none }

/-- The running reconcile has failed, and its failure is going to be reported. -/
def failed (L : ControlLoop) (error : ReconcileError) (round : Round) (earlier : List Round) :
    ControlLoop :=
  { L with
    rounds := { round with outcome := some (.error error) } :: earlier
    active := none
    reports := L.reports ++ [{
      round := L.rounds.length
      policy := round.policy
      error
      task := handleReconcileFailure K round.policy error.stage error.message }] }

/-- What a label does: nothing where it does not fit the loop, and otherwise one move of the party
it names. -/
inductive Stepped (L : ControlLoop) : Label → ControlLoop → Prop
  | unfit (label : Label) : Stepped L label L
  | begin {policy : CIDRPolicy} (hactive : L.active = none) :
    Stepped L (.begin policy) (L.begun K policy)
  | serve {choice : Choice} {call : Call} {next : call.Answer → Task ReconcileError Action}
    {round : Round} {earlier : List Round} (hactive : L.active = some (.call call next))
    (hrounds : L.rounds = round :: earlier) :
    Stepped L (.serve choice) (L.served applied choice call next round earlier)
  | returns {action : Action} {round : Round} {earlier : List Round}
    (hactive : L.active = some (.ret action)) (hrounds : L.rounds = round :: earlier) :
    Stepped L .finish (L.returned action round earlier)
  | fails {error : ReconcileError} {round : Round} {earlier : List Round}
    (hactive : L.active = some (.fail error)) (hrounds : L.rounds = round :: earlier) :
    Stepped L .finish (L.failed K error round earlier)
  | report {i : ℕ} {choice : Choice} {report : Report} {call : Call}
    {next : call.Answer → Task KubeError Unit} (hreport : L.reports[i]? = some report)
    (htask : report.task = .call call next) :
    Stepped L (.report i choice) (L.reported applied i choice report call next)
  | outside (change : Cluster → Cluster) :
    Stepped L (.outside change) { L with cluster := change L.cluster }

variable {K applied} in
theorem Stepped.of_eq {L L' : ControlLoop} {label : Label} (h : L' = L) :
    Stepped K applied L label L' := by
  rw [h]
  exact .unfit label

theorem step_stepped (L : ControlLoop) (label : Label) :
    Stepped K applied L label (L.step K applied context label) := by
  cases label with
  | begin policy =>
    cases hactive : L.active with
    | none =>
      simp only [step, hactive]
      exact .begin hactive
    | some task => exact .of_eq (by simp only [step, hactive])
  | serve choice =>
    cases hactive : L.active with
    | none => exact .of_eq (by simp only [step, hactive])
    | some task =>
      cases task with
      | call call next =>
        cases hrounds : L.rounds with
        | nil => exact .of_eq (by simp only [step, hactive, hrounds])
        | cons round earlier =>
          simp only [step, hactive, hrounds]
          exact .serve hactive hrounds
      | _ => exact .of_eq (by simp only [step, hactive])
  | finish =>
    cases hactive : L.active with
    | none => exact .of_eq (by simp only [step, hactive])
    | some task =>
      cases task with
      | call call next => exact .of_eq (by simp only [step, hactive])
      | ret action =>
        cases hrounds : L.rounds with
        | nil => exact .of_eq (by simp only [step, hactive, hrounds])
        | cons round earlier =>
          simp only [step, hactive, hrounds]
          exact .returns hactive hrounds
      | fail error =>
        cases hrounds : L.rounds with
        | nil => exact .of_eq (by simp only [step, hactive, hrounds])
        | cons round earlier =>
          simp only [step, hactive, hrounds]
          rw [← hrounds]
          exact .fails hactive hrounds
  | report i choice =>
    cases hreport : L.reports[i]? with
    | none => exact .of_eq (by simp only [step, hreport])
    | some report =>
      cases htask : report.task with
      | call call next =>
        simp only [step, hreport, htask]
        exact .report hreport htask
      | _ => exact .of_eq (by simp only [step, hreport, htask])
  | outside change => exact .outside change

end ControlLoop
end Ipmaze
