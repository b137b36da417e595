import Ipmaze.ControlLoop.Tracking
import Ipmaze.Effects.Warrants
import Ipmaze.Schedules

/-! When rounds are due. The schedule of a policy is kept as long as the runtime calls again when it
is asked to. -/
namespace Ipmaze
open Effects

section Due
variable {K : Crates} {policy : CIDRPolicy} {past : List Calls.Event}

/-- A reconcile that asks to be called again has read the clock last, and asks for the next moment
of its schedule after that; only a terminating policy is left alone. -/
def Due (K : Crates) (policy : CIDRPolicy) (past : List Calls.Event) :
    Except ReconcileError Action → Prop
  | .ok (.requeue after) => ∃ before, ∃ now : ℤ, ∃ validated, past = before ++ [⟨.utcNow, now⟩] ∧
      validatePolicy K policy = .ok validated ∧
      nextResyncAfter K validated.resyncSchedule now = .ok after
  | .ok .awaitChange => policy.metadata.deletionTimestamp.isSome
  | .error _ => True

theorem scheduleRequeueAfter_due {validated : ValidatedPolicy K}
    (h : validatePolicy K policy = .ok validated) :
    (scheduleRequeueAfter K validated.resyncSchedule >>= fun after => pure (.requeue after)).Warranted
      (fun _ _ => True) (Due K policy) past := by
  refine ⟨trivial, fun now => ?_⟩
  change (Program.ofExcept ((nextResyncAfter K validated.resyncSchedule now).mapError .scheduling) >>=
    _ : Task ReconcileError Action).Warranted _ _ _
  cases hafter : nextResyncAfter K validated.resyncSchedule now with
  | error e => trivial
  | ok after => exact ⟨past, now, validated, rfl, h, hafter⟩

/-- What comes before the end of a reconcile may do anything but return. -/
theorem bind_due {α : Type} {p : Task ReconcileError α} {f : α → Task ReconcileError Action}
    (hf : ∀ past a, (f a).Warranted (fun _ _ => True) (Due K policy) past) :
    (p >>= f).Warranted (fun _ _ => True) (Due K policy) past := by
  have hp : p.Warranted (fun _ _ => True) (fun _ _ => True) past := by
    induction p generalizing past with
    | ret a => trivial
    | fail e => trivial
    | call i next ih => exact ⟨trivial, fun a => ih a⟩
  exact hp.bind (fun past a _ => hf past a) fun _ _ _ => trivial

theorem publish_due {r : Resolved K} (h : r.Sound policy) :
    (publish K policy r).Warranted (fun _ _ => True) (Due K policy) past := by
  unfold publish conclude
  refine bind_due fun _ _ => bind_due fun _ _ => bind_due fun _ _ => bind_due fun _ _ => ?_
  exact scheduleRequeueAfter_due h.validated

theorem reconcile_due (K : Crates) (policy : CIDRPolicy) :
    (reconcile K policy).Warranted (fun _ _ => True) (Due K policy) [] := by
  cases hlive : policy.metadata.deletionTimestamp with
  | some deletion =>
    have hterminating : policy.metadata.deletionTimestamp.isSome := by rw [hlive]; rfl
    rw [reconcile_terminating hterminating]
    exact bind_due fun _ _ => hterminating
  | none =>
    rw [reconcile_eq hlive]
    have hresolve : (resolve K policy).Warranted (fun _ _ => True)
        (fun _ r => ∀ a, r = .ok a → a.Sound policy) [] :=
      (resolve_remote policy).warranted (resolve_sound policy) fun _ _ _ => trivial
    exact hresolve.bind (fun past r hr => publish_due (hr r rfl)) fun _ _ _ => trivial

end Due

namespace ControlLoop

/-- Each round stands where its program has taken it, and only the latest may be running. -/
structure Traced (K : Crates) (L : ControlLoop) : Prop where
  ended : ∀ round ∈ L.rounds, ∀ result, round.outcome = some result →
    (reconcile K round.policy).Trace round.events (.ofExcept result)
  idle : L.active = none → ∀ round ∈ L.rounds, round.outcome.isSome
  active : ∀ task, L.active = some task → ∃ round earlier, L.rounds = round :: earlier ∧
    round.outcome = none ∧ (∀ other ∈ earlier, other.outcome.isSome) ∧
    (reconcile K round.policy).Trace round.events task

section Steps
variable {K : Crates} {applied : Apply} {context : ControllerContext} {L : ControlLoop}

theorem Traced.position (h : L.Traced K) {task : Task ReconcileError Action} {round : Round}
    {earlier : List Round} (hactive : L.active = some task) (hrounds : L.rounds = round :: earlier) :
    round.outcome = none ∧ (∀ other ∈ earlier, other.outcome.isSome) ∧
      (reconcile K round.policy).Trace round.events task := by
  obtain ⟨round', earlier', hrounds', hposition⟩ := h.active task hactive
  obtain ⟨rfl, rfl⟩ := List.cons.inj (hrounds.symm.trans hrounds')
  exact hposition

/-- A round ends with the result of its program. -/
theorem Traced.finished (h : L.Traced K) (result : Except ReconcileError Action) {round : Round}
    {earlier : List Round} (hactive : L.active = some (.ofExcept result))
    (hrounds : L.rounds = round :: earlier) (reports : List Report) :
    ({ L with
      rounds := { round with outcome := some result } :: earlier
      active := none
      reports } : ControlLoop).Traced K := by
  obtain ⟨-, hearlier, htrace⟩ := h.position hactive hrounds
  have hall := h.ended
  rw [hrounds, List.forall_mem_cons] at hall
  refine ⟨List.forall_mem_cons.mpr ⟨?_, hall.2⟩, fun _ => ?_, fun _ h => by cases h⟩
  · rintro _ ⟨⟩
    exact htrace
  · exact List.forall_mem_cons.mpr ⟨rfl, hearlier⟩

theorem Traced.step (h : L.Traced K) (label : Label) :
    (L.step K applied context label).Traced K := by
  have hstep := step_stepped K applied context L label
  generalize L.step K applied context label = L' at hstep ⊢
  cases hstep with
  | unfit => exact h
  | @begin policy hactive =>
    refine ⟨List.forall_mem_cons.mpr ⟨fun _ h => (by cases h), h.ended⟩, fun h => (by cases h), ?_⟩
    intro task htask
    obtain rfl := Option.some.inj htask
    exact ⟨_, _, rfl, rfl, h.idle hactive, .nil _⟩
  | @serve choice call next round earlier hactive hrounds =>
    obtain ⟨hrunning, hearlier, htrace⟩ := h.position hactive hrounds
    have hall := h.ended
    rw [hrounds, List.forall_mem_cons] at hall
    refine ⟨List.forall_mem_cons.mpr ⟨?_, hall.2⟩, fun h => (by cases h), ?_⟩
    · intro result hresult
      cases hrunning.symm.trans hresult
    · intro task htask
      obtain rfl := Option.some.inj htask
      refine ⟨_, _, rfl, hrunning, hearlier, ?_⟩
      simpa [Round.events] using htrace.snoc _
  | @returns action round earlier hactive hrounds =>
    exact h.finished (.ok action) hactive hrounds L.reports
  | @fails error round earlier hactive hrounds =>
    exact h.finished (.error error) hactive hrounds _
  | report hreport htask => exact ⟨h.ended, h.idle, h.active⟩
  | outside change => exact ⟨h.ended, h.idle, h.active⟩

theorem traced_exec (K : Crates) (applied : Apply) (context : ControllerContext) (s : Cluster)
    (labels : List Label) : ((start s).exec K applied context labels).Traced K := by
  have hstart : (start s).Traced K :=
    ⟨List.forall_mem_nil _, fun _ => List.forall_mem_nil _, fun _ h => by cases h⟩
  exact List.foldlRecOn labels _ hstart fun _ hL label _ => hL.step label

/-- Every round but the latest has ended. -/
theorem Traced.outcome_isSome (h : L.Traced K) {n : ℕ} {round : Round}
    (hround : L.rounds.reverse[n]? = some round) (hn : n + 1 < L.rounds.length) :
    round.outcome.isSome := by
  cases hactive : L.active with
  | none => exact h.idle hactive round (List.mem_reverse.mp (List.mem_of_getElem? hround))
  | some task =>
    obtain ⟨latest, earlier, hrounds, -, hearlier, -⟩ := h.active task hactive
    rw [hrounds] at hround hn
    have hlt : n < earlier.reverse.length := by simpa using hn
    rw [List.reverse_cons, List.getElem?_append_left hlt] at hround
    exact hearlier round (List.mem_reverse.mp (List.mem_of_getElem? hround))

end Steps

end ControlLoop

section Timelines
variable (K : Crates) (context : ControllerContext)

/-- What the runtime is told when a round has ended. -/
def Round.action (round : Round) : Option Action :=
  match round.outcome with
  | some (.ok action) => some action
  | some (.error error) => some (errorPolicy K context round.policy error).2
  | none => none

/-- When the rounds of a loop begin and end, counted from the first. One that is due again is not
begun later than `delay` after that. -/
structure ControlLoop.Timeline (L : ControlLoop) (delay : Duration) where
  begun : ℕ → ℤ
  ended : ℕ → ℤ
  reads : ∀ n round before (now : ℤ) (after : Duration), L.rounds.reverse[n]? = some round →
    round.events = before ++ [⟨.utcNow, now⟩] → round.outcome = some (.ok (.requeue after)) →
      ended n = now
  requeues : ∀ n round (after : Duration), L.rounds.reverse[n]? = some round →
    round.action K context = some (.requeue after) → begun (n+1) ≤ ended n + after + delay

end Timelines

/-- The first round that has not ended by a moment comes after one that has. -/
theorem exists_last_ended {ended : ℕ → ℤ} {t : ℤ} {last : ℕ} (hfirst : ended 0 < t)
    (hlast : t ≤ ended last) : ∃ n < last, ended n < t ∧ t ≤ ended (n+1) := by
  induction last with
  | zero => omega
  | succ last ih =>
    by_cases h : t ≤ ended last
    · obtain ⟨n, hn, hended⟩ := ih h
      exact ⟨n, by omega, hended⟩
    · exact ⟨last, by omega, by omega, hlast⟩

/-- No scheduled moment passes by. As long as the schedule is not edited and the runtime calls again
when it is asked to, each moment after the first round finds a round that is running, or that is
going to begin no later than `delay` after it, or than a retry after it if a round has failed. -/
theorem scheduled_moments_meet_rounds (K : Crates) (applied : Apply) (context : ControllerContext)
    (s : Cluster) (labels : List Label) {schedule : K.Schedule} {P : ℤ → Prop}
    (hnext : ∀ now t : ℤ, K.nextAfter schedule now = some t ↔ IsLeast {t | now < t ∧ P t} t)
    (hrounds : ∀ round ∈ ((ControlLoop.start s).exec K applied context labels).rounds,
      round.policy.metadata.deletionTimestamp = none ∧ ∀ validated,
        validatePolicy K round.policy = .ok validated → validated.resyncSchedule = schedule)
    {delay : Duration}
    (timeline : ((ControlLoop.start s).exec K applied context labels).Timeline K context delay)
    {t : ℤ} (hP : P t) (hfirst : timeline.ended 0 < t) {last : ℕ}
    (hlast : last < ((ControlLoop.start s).exec K applied context labels).rounds.length)
    (ht : t ≤ timeline.ended last) :
    ∃ n < last, t ≤ timeline.ended (n+1) ∧ (timeline.begun (n+1) ≤ t + delay ∨
      timeline.begun (n+1) ≤ t + context.requeueAfter + delay ∧ ∃ round error,
        ((ControlLoop.start s).exec K applied context labels).rounds.reverse[n]? = some round ∧
          round.outcome = some (.error error)) := by
  obtain ⟨n, hn, hended, hrunning⟩ := exists_last_ended hfirst ht
  refine ⟨n, hn, hrunning, ?_⟩
  have htraced := ControlLoop.traced_exec K applied context s labels
  generalize (ControlLoop.start s).exec K applied context labels = L at *
  have hlength : n < L.rounds.reverse.length := by
    rw [List.length_reverse]
    omega
  have hround : L.rounds.reverse[n]? = some L.rounds.reverse[n] := List.getElem?_eq_getElem hlength
  generalize L.rounds.reverse[n] = round at hround
  have hmem := List.mem_reverse.mp (List.mem_of_getElem? hround)
  obtain ⟨result, hresult⟩ := Option.isSome_iff_exists.mp
    (htraced.outcome_isSome hround (by omega))
  obtain ⟨hlive, hschedule⟩ := hrounds round hmem
  obtain ⟨-, hdue⟩ := (htraced.ended round hmem result hresult).warranted
    (reconcile_due K round.policy)
  cases result with
  | error error =>
    have hretry := timeline.requeues n round context.requeueAfter hround (by
      simp [Round.action, hresult, errorPolicy])
    exact Or.inr ⟨by omega, round, error, hround, hresult⟩
  | ok action =>
    cases action with
    | awaitChange => simp [Program.ofExcept, Program.Warranted, Due, hlive] at hdue
    | requeue after =>
      obtain ⟨before, now, validated, hevents, hvalidated, hafter⟩ := hdue
      rw [List.nil_append] at hevents
      have hread := timeline.reads n round before now after hround hevents hresult
      have hagain := timeline.requeues n round after hround (by simp [Round.action, hresult])
      rw [hschedule validated hvalidated] at hafter
      have hlt (next : ℤ) (h : K.nextAfter schedule now = some next) : now < next :=
        ((hnext now next).mp h).1.1
      have hleast := (hnext now _).mp ((nextResyncAfter_ok_iff hlt).mp hafter)
      have hnow : now < t := by omega
      have hle : now + after ≤ t := hleast.2 ⟨hnow, hP⟩
      exact Or.inl (by omega)

namespace Sample

/-- A round of the sample policy at some instant. -/
def roundAt (now : Instant) : List Label :=
  .begin policy :: List.replicate 7 (.serve (choice now)) ++ [.finish]

def dailyLoop : ControlLoop := runLoop (roundAt 0 ++ roundAt day)

theorem dailyLoop_rounds : dailyLoop.rounds.reverse.map (fun round =>
      (round.events.getLast?, round.outcome)) =
    [0, day].map fun now : ℤ =>
      (some ⟨.utcNow, now⟩, some (.ok (.requeue 86400000000000))) := by
  rfl

/-- A round of the daily loop, by its number. -/
theorem dailyLoop_round {n : ℕ} {round : Round} (h : dailyLoop.rounds.reverse[n]? = some round) :
    round.events.getLast? = some ⟨.utcNow, day*n⟩ ∧
      round.outcome = some (.ok (.requeue 86400000000000)) := by
  have hmap := congrArg (Option.map fun round : Round => (round.events.getLast?, round.outcome)) h
  rw [← List.getElem?_map, dailyLoop_rounds] at hmap
  rcases n with _ | _ | n
  · simpa [eq_comm] using hmap
  · simpa [eq_comm] using hmap
  · simp at hmap

def dailyTimeline : dailyLoop.Timeline crates context 0 where
  begun n := day*n
  ended n := day*n
  reads n round before now after hround hevents _ := by
    have hlast := (dailyLoop_round hround).1
    rw [hevents, List.getLast?_concat] at hlast
    simpa [eq_comm] using hlast
  requeues n round after hround haction := by
    rw [Round.action, (dailyLoop_round hround).2] at haction
    obtain rfl : 86400000000000 = after := Action.requeue.inj (Option.some.inj haction)
    simp only [day]
    omega

theorem daily_isLeast (now t : ℤ) : crates.nextAfter .daily now = some t ↔
    IsLeast {t | now < t ∧ day ∣ t} t := by
  have hleast : IsLeast {t | now < t ∧ day ∣ t} (day*(now / day + 1)) := by
    refine ⟨⟨?_, Dvd.intro _ rfl⟩, ?_⟩
    · simp only [day]
      omega
    · rintro _ ⟨hlt, k, rfl⟩
      simp only [day] at hlt ⊢
      omega
  change some (day*(now / day + 1)) = some t ↔ _
  rw [Option.some.injEq]
  constructor
  · rintro rfl
    exact hleast
  · exact hleast.unique

end Sample

open Sample in
/-- The second midnight finds the second round. -/
theorem scheduled_moments_meet_rounds_daily : ∃ n < 1, day ≤ dailyTimeline.ended (n+1) ∧
    (dailyTimeline.begun (n+1) ≤ day + (0 : Duration) ∨
      dailyTimeline.begun (n+1) ≤ day + context.requeueAfter + (0 : Duration) ∧ ∃ round error,
        dailyLoop.rounds.reverse[n]? = some round ∧ round.outcome = some (.error error)) := by
  have hrounds : ∀ round ∈ dailyLoop.rounds, round.policy.metadata.deletionTimestamp = none ∧
      ∀ validated, validatePolicy crates round.policy = .ok validated →
        validated.resyncSchedule = .daily := by
    intro round hround
    have hpolicies : dailyLoop.rounds.map Round.policy = [policy, policy] := rfl
    have hpolicy : round.policy = policy := by
      simpa [hpolicies] using List.mem_map_of_mem (f := Round.policy) hround
    rw [hpolicy]
    refine ⟨rfl, fun validated hvalidated => ?_⟩
    obtain rfl := Except.ok.inj hvalidated
    rfl
  exact scheduled_moments_meet_rounds crates replace context (cluster policy none)
    (roundAt 0 ++ roundAt day) daily_isLeast hrounds dailyTimeline (Dvd.intro 1 rfl) (by decide)
    (by decide) (by decide)

end Ipmaze
