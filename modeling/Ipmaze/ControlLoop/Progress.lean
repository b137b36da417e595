import Ipmaze.ControlLoop.Budget

/-! The control loop comes to rest: a round ends once eight of its calls were served, and a report
once three were. -/
namespace Ipmaze
open Effects

/-- Every call counts. -/
def Prices.each : Prices := ⟨1, 1, 1, 1, 1, 1, 1⟩

theorem Prices.each_of (call : Call) : Prices.each.of call = 1 := by cases call <;> rfl

namespace Label

def serves : Label → Bool
  | serve _ => true
  | _ => false

def serveReport (i : ℕ) : Label → Bool
  | report j _ => j == i
  | _ => false

end Label

/-- The task ends within so many calls. -/
def EndsWithin {ε α : Type} (n : ℕ) (task : Task ε α) : Prop :=
  task.Affords Prices.each.of (fun _ => 0) n

section Tasks
variable {ε α : Type} {n : ℕ}

theorem EndsWithin.next {call : Call} {next : call.Answer → Task ε α}
    (h : EndsWithin n (.call (I := Calls) call next)) (answer : call.Answer) :
    1 ≤ n ∧ EndsWithin (n - 1) (next answer) := by
  obtain ⟨hprice, hnext⟩ := h
  rw [Prices.each_of] at hprice hnext
  exact ⟨hprice, hnext answer⟩

theorem EndsWithin.mono {m : ℕ} {task : Task ε α} (h : EndsWithin m task) (hmn : m ≤ n) :
    EndsWithin n task :=
  Program.Affords.mono h (fun _ => le_rfl) hmn

theorem EndsWithin.halted {task : Task ε α} (h : EndsWithin 0 task) : task.Halted := by
  cases task with
  | ret a => trivial
  | fail e => trivial
  | call i next =>
    have hprice := h.1
    rw [Prices.each_of] at hprice
    omega

theorem endsWithin_of_halted {task : Task ε α} (h : task.Halted) : EndsWithin n task := by
  cases task with
  | ret a => exact Nat.zero_le n
  | fail e => exact Nat.zero_le n
  | call i next => exact h.elim

end Tasks

theorem reconcile_endsWithin (K : Crates) (policy : CIDRPolicy) :
    EndsWithin 8 (reconcile K policy) :=
  reconcile_affords Prices.each 0 policy

theorem handleReconcileFailure_endsWithin (K : Crates) (policy : CIDRPolicy)
    (stage : ReconcileStage) (message : String) :
    EndsWithin 3 (handleReconcileFailure K policy stage message) :=
  handleReconcileFailure_affords Prices.each 0 policy stage message

namespace ControlLoop

/-- The running reconcile is that of the latest round and ends within so many calls. -/
def Ending (L : ControlLoop) (n : ℕ) : Prop :=
  ∀ task, L.active = some task → EndsWithin n task ∧ ∃ round earlier, L.rounds = round :: earlier

section Steps
variable (K : Crates) (applied : Apply) (context : ControllerContext)
variable {L : ControlLoop} {n : ℕ}

theorem Ending.mono {m : ℕ} (h : L.Ending m) (hmn : m ≤ n) : L.Ending n :=
  fun task htask => ⟨(h task htask).1.mono hmn, (h task htask).2⟩

theorem ending_of_idle (h : L.active = none) : L.Ending n := by
  intro task htask
  rw [h] at htask
  cases htask

/-- Serving brings a running reconcile one call closer to its end. -/
theorem Ending.serve (h : L.Ending n) (choice : Choice) :
    (L.step K applied context (.serve choice)).Ending (n - 1) := by
  cases hcalling : L.calling (.serve choice) with
  | none =>
    rw [step_serve_none K applied context hcalling]
    intro task htask
    obtain ⟨-, round, earlier, hrounds⟩ := h task htask
    refine ⟨endsWithin_of_halted ?_, round, earlier, hrounds⟩
    cases task with
    | ret a => trivial
    | fail e => trivial
    | call call next => simp [calling, htask, hrounds] at hcalling
  | some call =>
    obtain ⟨next, round, earlier, hactive, hrounds⟩ := calling_serve hcalling
    rw [step_serve_call K applied context hactive hrounds]
    intro task htask
    obtain rfl := Option.some.inj htask
    exact ⟨((h _ hactive).1.next _).2, _, _, rfl⟩

/-- While a round is running no other begins, so no step puts off its end. -/
theorem Ending.step (h : L.Ending n) (hactive : L.active ≠ none) (label : Label) :
    (L.step K applied context label).Ending (n - if label.serves then 1 else 0) := by
  cases label with
  | serve choice => exact h.serve K applied context choice
  | begin policy =>
    have hstep := step_stepped K applied context L (.begin policy)
    generalize L.step K applied context (.begin policy) = L' at hstep ⊢
    cases hstep with
    | unfit => exact h
    | begin hnone => exact (hactive hnone).elim
  | finish =>
    have hstep := step_stepped K applied context L .finish
    generalize L.step K applied context .finish = L' at hstep ⊢
    cases hstep with
    | unfit => exact h
    | returns => exact ending_of_idle rfl
    | fails => exact ending_of_idle rfl
  | report i choice =>
    have hstep := step_stepped K applied context L (.report i choice)
    generalize L.step K applied context (.report i choice) = L' at hstep ⊢
    cases hstep with
    | unfit => exact h
    | report hreport htask => exact h
  | outside change => exact h

/-- Every reachable round is eight calls from its end. -/
theorem ending_reachable (s : Cluster) (labels : List Label) :
    ((start s).exec K applied context labels).Ending 8 := by
  refine List.foldlRecOn (motive := fun L : ControlLoop => L.Ending 8) labels _
    (ending_of_idle rfl) fun L ih label _ => ?_
  by_cases hactive : L.active = none
  · have hstep := step_stepped K applied context L label
    generalize L.step K applied context label = L' at hstep ⊢
    cases hstep with
    | unfit => exact ih
    | @begin policy hnone =>
      intro task htask
      obtain rfl := Option.some.inj htask
      exact ⟨reconcile_endsWithin K policy, _, _, rfl⟩
    | serve hsome hrounds | returns hsome hrounds | fails hsome hrounds =>
      rw [hactive] at hsome
      cases hsome
    | report hreport htask => exact ih
    | outside change => exact ih
  · exact (ih.step K applied context hactive label).mono (Nat.sub_le 8 _)

/-- Finishing a reconcile that has no call left makes the loop idle. -/
theorem Ending.finish (h : L.Ending 0) : (L.step K applied context .finish).active = none := by
  cases hactive : L.active with
  | none => simp [ControlLoop.step, hactive]
  | some task =>
    obtain ⟨hends, round, earlier, hrounds⟩ := h task hactive
    cases task with
    | ret action => simp [ControlLoop.step, hactive, hrounds]
    | fail error => simp [ControlLoop.step, hactive, hrounds]
    | call call next => exact hends.halted.elim

theorem Ending.exec (h : L.Ending n) {more : List Label} (hserved : n ≤ more.countP Label.serves) :
    ∃ before after, more ++ [.finish] = before ++ after ∧
      (L.exec K applied context before).active = none := by
  induction more generalizing L n with
  | nil =>
    refine ⟨[.finish], [], rfl, ?_⟩
    exact (h.mono hserved).finish K applied context
  | cons label more ih =>
    by_cases hactive : L.active = none
    · exact ⟨[], _, rfl, hactive⟩
    · rw [List.countP_cons] at hserved
      obtain ⟨before, after, hsplit, hidle⟩ :=
        ih (h.step K applied context hactive label) (by omega)
      exact ⟨label :: before, after, congrArg _ hsplit, hidle⟩

/-- A report keeps its place, and serving it brings it closer to its end. -/
theorem report_step {i : ℕ} {report : Report} (hreport : L.reports[i]? = some report)
    (hends : EndsWithin n report.task) (label : Label) :
    ∃ report', (L.step K applied context label).reports[i]? = some report' ∧
      EndsWithin (n - if label.serveReport i then 1 else 0) report'.task := by
  cases label with
  | begin policy | serve choice =>
    refine ⟨report, ?_, hends⟩
    simp only [ControlLoop.step]
    split <;> exact hreport
  | outside change => exact ⟨report, hreport, hends⟩
  | finish =>
    refine ⟨report, ?_, hends⟩
    simp only [ControlLoop.step]
    split
    · exact hreport
    · rw [List.getElem?_append_left (List.getElem?_eq_some_iff.mp hreport).1]
      exact hreport
    · exact hreport
  | report j choice =>
    cases hcalling : L.calling (.report j choice) with
    | none =>
      rw [step_report_none K applied context hcalling]
      refine ⟨report, hreport, ?_⟩
      by_cases hj : j = i
      · subst hj
        apply endsWithin_of_halted
        cases htask : report.task with
        | ret done => trivial
        | fail error => trivial
        | call call next => simp [calling, hreport, htask] at hcalling
      · simpa [Label.serveReport, hj] using hends
    | some call =>
      obtain ⟨other, next, hother, htask⟩ := calling_report hcalling
      rw [step_report_call K applied context hother htask]
      by_cases hj : j = i
      · subst hj
        obtain rfl := Option.some.inj (hreport.symm.trans hother)
        rw [htask] at hends
        refine ⟨_, List.getElem?_set_self (List.getElem?_eq_some_iff.mp hreport).1, ?_⟩
        simpa [Label.serveReport] using (hends.next _).2
      · refine ⟨report, ?_, by simpa [Label.serveReport, hj] using hends⟩
        rw [ControlLoop.reported, List.getElem?_set_ne hj]
        exact hreport

theorem report_exec {i : ℕ} {report : Report} (hreport : L.reports[i]? = some report)
    (hends : EndsWithin n report.task) {more : List Label}
    (hserved : n ≤ more.countP (Label.serveReport i)) :
    ∃ report', (L.exec K applied context more).reports[i]? = some report' ∧
      report'.task.Halted := by
  induction more generalizing L n report with
  | nil => exact ⟨report, hreport, (hends.mono hserved).halted⟩
  | cons label more ih =>
    rw [List.countP_cons] at hserved
    obtain ⟨report', hreport', hends'⟩ := report_step K applied context hreport hends label
    exact ih hreport' hends' (by omega)

/-- Every report under way is three calls from its end. -/
theorem reports_endWithin (s : Cluster) (labels : List Label) :
    ∀ report ∈ ((start s).exec K applied context labels).reports, EndsWithin 3 report.task := by
  refine List.foldlRecOn (motive := fun L : ControlLoop => ∀ report ∈ L.reports,
    EndsWithin 3 report.task) labels _ (List.forall_mem_nil _) fun L ih label _ => ?_
  have hstep := step_stepped K applied context L label
  generalize L.step K applied context label = L' at hstep ⊢
  cases hstep with
  | unfit | begin | serve | returns | outside => exact ih
  | fails hactive hrounds =>
    intro report hreport
    rcases List.mem_append.mp hreport with hreport | hreport
    · exact ih report hreport
    · rw [List.mem_singleton.mp hreport]
      exact handleReconcileFailure_endsWithin K _ _ _
  | report hreport htask =>
    refine forall_reported applied ih ?_
    have hends := ih _ (List.mem_of_getElem? hreport)
    rw [htask] at hends
    exact (hends.next _).2.mono (Nat.sub_le 3 1)

end Steps
end ControlLoop

/-- From every reachable state, and whatever else happens meanwhile: the loop is idle by the time
eight calls of its reconcile were served and it was asked to finish, and a report has ended by the
time three of its calls were served. -/
theorem loop_comes_to_rest (K : Crates) (applied : Apply) (context : ControllerContext)
    (s : Cluster) (labels more : List Label) :
    (8 ≤ more.countP Label.serves → ∃ before after, more ++ [.finish] = before ++ after ∧
      (((ControlLoop.start s).exec K applied context labels).exec K applied context before).active =
        none) ∧
    ∀ i report, ((ControlLoop.start s).exec K applied context labels).reports[i]? = some report →
      3 ≤ more.countP (Label.serveReport i) →
      ∃ report', (((ControlLoop.start s).exec K applied context labels).exec K applied context
        more).reports[i]? = some report' ∧ report'.task.Halted := by
  refine ⟨fun hserved => ?_, fun i report hreport hserved => ?_⟩
  · exact (ControlLoop.ending_reachable K applied context s labels).exec K applied context hserved
  · have hends := ControlLoop.reports_endWithin K applied context s labels _
      (List.mem_of_getElem? hreport)
    exact ControlLoop.report_exec K applied context hreport hends hserved

end Ipmaze
