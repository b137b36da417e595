import Ipmaze.ControlLoop.Rounds
import Ipmaze.Reconcile.Grounds

/-! The rounds of a control loop under audit: whatever a round wrote or announced, it had grounds to
in what it had seen, and what was acknowledged to it has happened. -/
namespace Ipmaze
open Effects

/-- The server acts on a write or an event that it acknowledges. -/
def Served.Honest (e : Served) : Prop :=
  match e.event with
  | ⟨.patchNetworkPolicy _ _ _ _, answer⟩ | ⟨.deleteNetworkPolicy _ _, answer⟩
  | ⟨.patchStatus _ _ _ _, answer⟩ | ⟨.publishEvent _ _, answer⟩ => answer = .ok () → e.landed
  | _ => True

theorem serve_honest (applied : Apply) (choice : Choice) (call : Call) (s : Cluster) :
    Served.Honest ⟨⟨call, (serve applied choice call s).1⟩, choice.delivery.arrives⟩ := by
  cases call with
  | patchNetworkPolicy ns name params patch | publishEvent event reference =>
    exact Delivery.arrives_of_receive
  | deleteNetworkPolicy ns name | patchStatus ns name params status =>
    intro hok
    simp only [serve] at hok
    split at hok <;> exact Delivery.arrives_of_receive hok
  | _ => trivial

/-- Every call of the round had its grounds, every acknowledgement was honest, and the round ended
with what it had achieved. -/
structure Round.Audited (K : Crates) (round : Round) : Prop where
  grounds : ∀ before e after, round.log = before ++ e :: after →
    Grounds K round.policy (before.map Served.event) e.event.1
  honest : ∀ e ∈ round.log, e.Honest
  achieved : ∀ result, round.outcome = some result → Achieved K round.policy round.events result

theorem Round.Audited.push {K : Crates} {round : Round} (h : round.Audited K) {e : Served}
    (hgrounds : Grounds K round.policy round.events e.event.1) (hhonest : e.Honest)
    (hrunning : round.outcome = none) : (round.push e).Audited K where
  grounds before e' after hsplit := by
    rw [push_log] at hsplit
    rcases after.eq_nil_or_concat' with rfl | ⟨after, last, rfl⟩
    · obtain ⟨rfl, he⟩ := List.append_inj' hsplit rfl
      obtain rfl := List.singleton_inj.mp he
      exact hgrounds
    · rw [← List.cons_append, ← List.append_assoc] at hsplit
      exact h.grounds before e' after (List.append_inj' hsplit rfl).1
  honest e' he' := by
    rcases List.mem_append.mp he' with he' | he'
    · exact h.honest e' he'
    · rw [List.mem_singleton.mp he']
      exact hhonest
  achieved result hresult := by
    change round.outcome = _ at hresult
    rw [hrunning] at hresult
    cases hresult

namespace ControlLoop

/-- All rounds stand the audit, and the running one can only go on with grounds. -/
structure Audited (K : Crates) (L : ControlLoop) : Prop where
  rounds : ∀ round ∈ L.rounds, round.Audited K
  active : ∀ task, L.active = some task → ∃ round earlier, L.rounds = round :: earlier ∧
    round.outcome = none ∧
    task.Warranted (Grounds K round.policy) (Achieved K round.policy) round.events

section Steps
variable {K : Crates} {applied : Apply} {context : ControllerContext} {L : ControlLoop}

theorem Audited.position (h : L.Audited K) {task : Task ReconcileError Action} {round : Round}
    {earlier : List Round} (hactive : L.active = some task) (hrounds : L.rounds = round :: earlier) :
    round.Audited K ∧ (∀ other ∈ earlier, other.Audited K) ∧ round.outcome = none ∧
      task.Warranted (Grounds K round.policy) (Achieved K round.policy) round.events := by
  obtain ⟨round', earlier', hrounds', houtcome, htask⟩ := h.active task hactive
  obtain ⟨rfl, rfl⟩ := List.cons.inj (hrounds.symm.trans hrounds')
  have hall := h.rounds
  rw [hrounds, List.forall_mem_cons] at hall
  exact ⟨hall.1, hall.2, houtcome, htask⟩

theorem Audited.served (h : L.Audited K) {call : Call}
    {next : call.Answer → Task ReconcileError Action} {round : Round} {earlier : List Round}
    (hactive : L.active = some (.call call next)) (hrounds : L.rounds = round :: earlier)
    (choice : Choice) : (L.served applied choice call next round earlier).Audited K := by
  obtain ⟨hround, hearlier, hrunning, hgrounds, hnext⟩ := h.position hactive hrounds
  have hhonest := serve_honest applied choice call L.cluster
  refine ⟨List.forall_mem_cons.mpr ⟨hround.push hgrounds hhonest hrunning, hearlier⟩, ?_⟩
  intro task htask
  obtain rfl := Option.some.inj htask
  refine ⟨_, _, rfl, hrunning, ?_⟩
  simpa [Round.events] using hnext (serve applied choice call L.cluster).1

/-- A round ends with the result of its program. -/
theorem Audited.ended (h : L.Audited K) (result : Except ReconcileError Action) {round : Round}
    {earlier : List Round} (hactive : L.active = some (.ofExcept result))
    (hrounds : L.rounds = round :: earlier) :
    ∀ other ∈ { round with outcome := some result } :: earlier, other.Audited K := by
  obtain ⟨hround, hearlier, -, htask⟩ := h.position hactive hrounds
  refine List.forall_mem_cons.mpr ⟨⟨hround.grounds, hround.honest, ?_⟩, hearlier⟩
  rintro _ ⟨⟩
  cases result <;> exact htask

theorem Audited.step (h : L.Audited K) (label : Label) :
    (L.step K applied context label).Audited K := by
  have hstep := step_stepped K applied context L label
  generalize L.step K applied context label = L' at hstep ⊢
  cases hstep with
  | unfit => exact h
  | @begin policy hactive =>
    refine ⟨List.forall_mem_cons.mpr ⟨⟨by simp, by simp, fun _ h => nomatch h⟩, h.rounds⟩, ?_⟩
    intro task htask
    obtain rfl := Option.some.inj htask
    exact ⟨_, _, rfl, rfl, reconcile_warranted K policy⟩
  | serve hactive hrounds => exact h.served hactive hrounds _
  | @returns action round earlier hactive hrounds =>
    exact ⟨h.ended (.ok action) hactive hrounds, fun _ h => nomatch h⟩
  | @fails error round earlier hactive hrounds =>
    exact ⟨h.ended (.error error) hactive hrounds, fun _ h => nomatch h⟩
  | report hreport htask => exact ⟨h.rounds, h.active⟩
  | outside change => exact ⟨h.rounds, h.active⟩

end Steps
end ControlLoop

/-- In every run of the loop, whatever other parties do and whichever calls fail: each write and
each announcement of a round had its grounds in the answers before it, an acknowledged one has
taken effect, and a round that returned has published and stamped, or cleaned up. -/
theorem rounds_stand_audit (K : Crates) (applied : Apply) (context : ControllerContext)
    (s : Cluster) (labels : List Label) :
    ((ControlLoop.start s).exec K applied context labels).Audited K := by
  have hstart : (ControlLoop.start s).Audited K :=
    ⟨List.forall_mem_nil _, fun _ h => nomatch h⟩
  exact List.foldlRecOn labels _ hstart fun _ hL label _ => hL.step label

end Ipmaze
