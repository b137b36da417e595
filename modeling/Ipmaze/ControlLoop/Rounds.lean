import Ipmaze.ControlLoop.Tracking
import Ipmaze.Reconcile.Round

/-! What a round has done so far, read off its calls: resolved, published or removed the managed
NetworkPolicy, stamped the status as a success. -/
namespace Ipmaze
open Effects

namespace Served

/-- The server has acted on an apply of this rendering. -/
def Applies (rendered : NetworkPolicy) (e : Served) : Prop :=
  e.landed ∧ ∃ ns name params, e.event.1 = .patchNetworkPolicy ns name params rendered

/-- The server has acted on a deletion. -/
def Deletes (e : Served) : Prop :=
  e.landed ∧ ∃ ns name, e.event.1 = .deleteNetworkPolicy ns name

/-- The server has acted on a patch that writes this status. -/
def Writes (status : CIDRPolicyStatus) (e : Served) : Prop :=
  e.landed ∧ ∃ ns name params, e.event.1 = .patchStatus ns name params status

end Served

namespace Round

/-- The round has made one more call. -/
def push (round : Round) (e : Served) : Round := { round with log := round.log ++ [e] }

@[simp] theorem push_log (round : Round) (e : Served) : (round.push e).log = round.log ++ [e] := rfl
@[simp] theorem push_policy (round : Round) (e : Served) : (round.push e).policy = round.policy := rfl

/-- The policy is live and its validation, retrieval, extraction and rendering have succeeded;
`rest` are the calls made since. -/
def Resolves (K : Crates) (round : Round) (r : Resolved K) (rest : List Served) : Prop :=
  round.policy.metadata.deletionTimestamp = none ∧ ∃ before, round.log = before ++ rest ∧
    (resolve K round.policy).Trace (before.map Served.event) (.ret r)

/-- The check has found the managed name free or owned, and the rendering was either found
there or applied. -/
def Publishes (K : Crates) (round : Round) (r : Resolved K) : Prop :=
  ∃ check rest found, round.Resolves K r (check :: rest) ∧
    check.event = ⟨.getNetworkPolicy r.ns round.policy.managedNetworkPolicyName, .ok found⟩ ∧
    (∀ np ∈ found, isManagedNetworkPolicyFor round.policy np) ∧
    ((∃ np ∈ found, managedPolicyMatches np r.rendered) ∨ ∃ e ∈ rest, e.Applies r.rendered)

/-- The policy is terminating and the managed NetworkPolicy was deleted. -/
def Removes (round : Round) : Prop :=
  round.policy.metadata.deletionTimestamp.isSome ∧ ∃ e ∈ round.log, e.Deletes

/-- The status was stamped as a success of this instant. -/
def Succeeds (K : Crates) (round : Round) (r : Resolved K) (now : Instant) : Prop :=
  ∃ rest, round.Resolves K r rest ∧ ∃ e ∈ rest, e.Writes (successStatus K r.observed now)

section Push
variable {K : Crates} {round : Round} {r : Resolved K} {rest : List Served} {e : Served}

theorem Resolves.sound (h : round.Resolves K r rest) : r.Sound round.policy := by
  obtain ⟨-, before, -, htrace⟩ := h
  exact htrace.yields (resolve_sound round.policy)

theorem Resolves.push (h : round.Resolves K r rest) (e : Served) :
    (round.push e).Resolves K r (rest ++ [e]) := by
  obtain ⟨hlive, before, hlog, htrace⟩ := h
  refine ⟨hlive, before, ?_, htrace⟩
  rw [push_log, hlog, List.append_assoc]

/-- The last call of a round comes after its resolution, or belongs to it. -/
theorem Resolves.of_push (h : (round.push e).Resolves K r rest) :
    rest = [] ∨ ∃ rest', rest = rest' ++ [e] ∧ round.Resolves K r rest' := by
  obtain ⟨hlive, before, hlog, htrace⟩ := h
  rcases rest.eq_nil_or_concat' with rfl | ⟨rest', last, rfl⟩
  · exact Or.inl rfl
  · rw [push_log, ← List.append_assoc] at hlog
    obtain ⟨hlog', he⟩ := List.append_inj' hlog rfl
    obtain rfl := List.singleton_inj.mp he
    exact Or.inr ⟨rest', rfl, hlive, before, hlog', htrace⟩

theorem Publishes.push (h : round.Publishes K r) (e : Served) :
    (round.push e).Publishes K r := by
  obtain ⟨check, rest, found, hresolves, hcheck, howned, hpublished⟩ := h
  refine ⟨check, rest ++ [e], found, hresolves.push e, hcheck, howned, hpublished.imp_right ?_⟩
  rintro ⟨e', he', happlies⟩
  exact ⟨e', List.mem_append_left _ he', happlies⟩

/-- A round that publishes has done so before its last call, or that call is the check that
found the rendering in place, or an apply of it. -/
theorem Publishes.of_push (h : (round.push e).Publishes K r) :
    round.Publishes K r ∨
      (∃ found, e.event =
          ⟨.getNetworkPolicy r.ns round.policy.managedNetworkPolicyName, .ok found⟩ ∧
        ∃ np ∈ found, managedPolicyMatches np r.rendered) ∨
      e.Applies r.rendered := by
  obtain ⟨check, rest, found, hresolves, hcheck, howned, hpublished⟩ := h
  rcases hresolves.of_push with hnil | ⟨rest', hrest, hresolves'⟩
  · cases hnil
  · rcases rest.eq_nil_or_concat' with rfl | ⟨rest, last, rfl⟩
    · rw [← List.nil_append [check]] at hrest
      obtain ⟨rfl, he⟩ := List.append_inj' hrest rfl
      obtain rfl := List.singleton_inj.mp he
      rcases hpublished with hmatches | ⟨e', he', -⟩
      · exact Or.inr (Or.inl ⟨found, hcheck, hmatches⟩)
      · cases he'
    · rw [← List.cons_append] at hrest
      obtain ⟨rfl, he⟩ := List.append_inj' hrest rfl
      obtain rfl := List.singleton_inj.mp he
      rcases hpublished with hmatches | ⟨e', he', happlies⟩
      · exact Or.inl ⟨check, rest, found, hresolves', hcheck, howned, Or.inl hmatches⟩
      · rcases List.mem_append.mp he' with he' | he'
        · exact Or.inl
            ⟨check, rest, found, hresolves', hcheck, howned, Or.inr ⟨e', he', happlies⟩⟩
        · obtain rfl := List.mem_singleton.mp he'
          exact Or.inr (Or.inr happlies)

theorem Removes.push (h : round.Removes) (e : Served) : (round.push e).Removes := by
  obtain ⟨hterminating, e', he', hdeletes⟩ := h
  exact ⟨hterminating, e', List.mem_append_left _ he', hdeletes⟩

theorem Removes.of_push (h : (round.push e).Removes) : round.Removes ∨ e.Deletes := by
  obtain ⟨hterminating, e', he', hdeletes⟩ := h
  rcases List.mem_append.mp he' with he' | he'
  · exact Or.inl ⟨hterminating, e', he', hdeletes⟩
  · obtain rfl := List.mem_singleton.mp he'
    exact Or.inr hdeletes

theorem Succeeds.push {now : Instant} (h : round.Succeeds K r now) (e : Served) :
    (round.push e).Succeeds K r now := by
  obtain ⟨rest, hresolves, e', he', hwrites⟩ := h
  exact ⟨rest ++ [e], hresolves.push e, e', List.mem_append_left _ he', hwrites⟩

theorem Succeeds.of_push {now : Instant} (h : (round.push e).Succeeds K r now) :
    round.Succeeds K r now ∨ e.Writes (successStatus K r.observed now) := by
  obtain ⟨rest, hresolves, e', he', hwrites⟩ := h
  rcases hresolves.of_push with rfl | ⟨rest, rfl, hresolves'⟩
  · cases he'
  · rcases List.mem_append.mp he' with he' | he'
    · exact Or.inl ⟨rest, hresolves', e', he', hwrites⟩
    · obtain rfl := List.mem_singleton.mp he'
      exact Or.inr hwrites

end Push

/-- A round that has made no call has done nothing yet. -/
theorem not_publishes_of_empty {K : Crates} {round : Round} (h : round.log = []) (r : Resolved K) :
    ¬ round.Publishes K r := by
  rintro ⟨check, rest, found, ⟨-, before, hlog, -⟩, -⟩
  rw [h] at hlog
  simp at hlog

theorem not_removes_of_empty {round : Round} (h : round.log = []) : ¬ round.Removes := by
  rintro ⟨-, e, he, -⟩
  rw [h] at he
  cases he

theorem not_succeeds_of_empty {K : Crates} {round : Round} (h : round.log = []) (r : Resolved K)
    (now : Instant) : ¬ round.Succeeds K r now := by
  rintro ⟨rest, ⟨-, before, hlog, -⟩, e, he, -⟩
  rw [h] at hlog
  obtain ⟨-, rfl⟩ := List.append_eq_nil_iff.mp hlog.symm
  cases he

end Round
end Ipmaze
