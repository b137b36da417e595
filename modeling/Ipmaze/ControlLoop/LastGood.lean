import Ipmaze.ControlLoop.LastSuccess

/-! Rounds that run one after the other, each reported to the end if it failed. Whatever fails in
them, the stored NetworkPolicy is the last good one and the status shows the last success. -/
namespace Ipmaze
open Effects

/-- The stored object has the spec and the metadata of the rendering, and no other. -/
structure NetworkPolicy.Shows (stored rendered : NetworkPolicy) : Prop where
  spec : stored.spec = rendered.spec
  labels : stored.metadata.labels = rendered.metadata.labels
  annotations : stored.metadata.annotations = rendered.metadata.annotations
  ownerReferences : stored.metadata.ownerReferences = rendered.metadata.ownerReferences

/-- An apply stores the spec and the metadata that are sent. -/
def Apply.Exact (applied : Apply) : Prop := ∀ old patch, (applied old patch).Shows patch

/-- What is stored under the managed name was published by the latest round that published
anything, unless a later round of the terminating policy has removed it. -/
def LastGood (K : Crates) (initial : Option NetworkPolicy) :
    List Round → Option NetworkPolicy → Prop
  | [], stored => stored = initial
  | round :: earlier, stored =>
    (∃ r np, round.Publishes K r ∧ r.Sound round.policy ∧ stored = some np ∧ np.Shows r.rendered) ∨
      (round.Removes ∧ stored = none) ∨
      ((∀ r, ¬ round.Publishes K r) ∧ ¬ round.Removes ∧ LastGood K initial earlier stored)

/-- A round begins when the failure of the round before was reported to the end. -/
def Sequential (subject : CIDRPolicy) (L : ControlLoop) (label : Label) : Prop :=
  Admits subject L label ∧
    ∀ policy, label = .begin policy → ∀ report ∈ L.reports, report.task.Halted

section Steps
variable {K : Crates} {applied : Apply} {context : ControllerContext} {subject : CIDRPolicy}
variable {L : ControlLoop} {initial : Option NetworkPolicy} {round : Round} {earlier : List Round}

theorem Round.Publishes.sound {r : Resolved K} (h : round.Publishes K r) : r.Sound round.policy := by
  obtain ⟨_, _, _, hresolves, -⟩ := h
  exact hresolves.sound

theorem NetworkPolicy.Shows.of_matches {stored rendered : NetworkPolicy}
    (h : managedPolicyMatches stored rendered) : stored.Shows rendered := by
  obtain ⟨hspec, hlabels, hannotations, howners⟩ := managedPolicyMatches_iff.mp h
  exact ⟨hspec, hlabels, hannotations, howners⟩

/-- An apply that a reconcile gets to publishes its round. -/
theorem publishes_of_apply {ns name : String} {params : PatchParams} {patch : NetworkPolicy}
    {next : Except KubeError Unit → Task ReconcileError Action}
    (htrace : (reconcile K round.policy).Trace round.events
      (.call (I := Calls) (.patchNetworkPolicy ns name params patch) next))
    (answer : Except KubeError Unit) :
    ∃ r : Resolved K, patch = r.rendered ∧
      (round.push ⟨⟨.patchNetworkPolicy ns name params patch, answer⟩, true⟩).Publishes K r := by
  cases hlive : round.policy.metadata.deletionTimestamp with
  | some deletion =>
    rw [reconcile_terminating (by rw [hlive]; rfl)] at htrace
    have hmakes := (cleanup_deletes round.policy).bind (f := fun _ => pure Action.awaitChange)
      fun _ => trivial
    rcases (htrace.makes hmakes).2.1 with hidle | ⟨_, _, he⟩
    · exact (hidle.1 trivial).elim
    · cases he
  | none =>
    have hwrites : (Call.patchNetworkPolicy ns name params patch).Writes := trivial
    obtain ⟨before, r, found, hresolved, hlog, howned, _, _, hcall⟩ :=
      reconcile_at_write hlive hwrites htrace
    obtain ⟨before, after, hsplit, rfl, hafter⟩ := List.map_eq_append_iff.mp hlog
    obtain ⟨check, rest, rfl, hcheck, hrest⟩ := List.map_eq_cons_iff.mp hafter
    obtain rfl := List.map_eq_nil_iff.mp hrest
    obtain ⟨-, -, -, rfl⟩ := Call.patchNetworkPolicy.inj hcall
    refine ⟨r, rfl, check, _, found, Round.Resolves.push ⟨hlive, before, hsplit, hresolved⟩ _,
      hcheck, howned, Or.inr ⟨_, List.mem_singleton_self _, rfl, ns, name, params, rfl⟩⟩

/-- A deletion that a reconcile gets to is that of a terminating policy. -/
theorem removes_of_delete {ns name : String}
    {next : Except KubeError Unit → Task ReconcileError Action}
    (htrace : (reconcile K round.policy).Trace round.events
      (.call (I := Calls) (.deleteNetworkPolicy ns name) next))
    (answer : Except KubeError Unit) :
    (round.push ⟨⟨.deleteNetworkPolicy ns name, answer⟩, true⟩).Removes := by
  cases hlive : round.policy.metadata.deletionTimestamp with
  | some deletion =>
    refine ⟨by rw [Round.push_policy, hlive]; rfl, _, List.mem_append_right _
      (List.mem_singleton_self _), rfl, ns, name, rfl⟩
  | none =>
    have hwrites : (Call.deleteNetworkPolicy ns name).Writes := trivial
    obtain ⟨_, _, _, _, _, _, _, _, hcall⟩ := reconcile_at_write hlive hwrites htrace
    cases hcall

/-- A call that neither applies nor deletes leaves the last good object where it is. -/
theorem LastGood.push {stored : Option NetworkPolicy}
    (h : LastGood K initial (round :: earlier) stored) {e : Served}
    (happlies : ∀ rendered, ¬ e.Applies rendered) (hdeletes : ¬ e.Deletes)
    (hfound : ∀ ns found, round.policy.metadata.ns = some ns →
      e.event = ⟨.getNetworkPolicy ns round.policy.managedNetworkPolicyName, .ok found⟩ →
      found = stored) :
    LastGood K initial (round.push e :: earlier) stored := by
  rcases h with ⟨r, np, hpublishes, hsound, hstored, hshows⟩ | ⟨hremoves, hstored⟩ |
    ⟨hnone, hremoves, hearlier⟩
  · exact Or.inl ⟨r, np, hpublishes.push e, hsound, hstored, hshows⟩
  · exact Or.inr (Or.inl ⟨hremoves.push e, hstored⟩)
  · by_cases hpublishes : ∃ r, (round.push e).Publishes K r
    · obtain ⟨r, hpublishes⟩ := hpublishes
      have hsound := hpublishes.sound
      rcases hpublishes.of_push with hearlier' | ⟨found, hevent, np, hnp, hmatches⟩ | happlied
      · exact (hnone r hearlier').elim
      · have hstored := hfound _ _ hsound.ns hevent
        rw [← hstored]
        exact Or.inl ⟨r, np, hpublishes, hsound, hnp, .of_matches hmatches⟩
      · exact (happlies _ happlied).elim
    · refine Or.inr (Or.inr ⟨fun r hr => hpublishes ⟨r, hr⟩, fun hr => ?_, hearlier⟩)
      exact hr.of_push.elim hremoves hdeletes

theorem LastGood.begin {rounds : List Round} {stored : Option NetworkPolicy}
    (h : LastGood K initial rounds stored) (policy : CIDRPolicy) :
    LastGood K initial (⟨policy, [], none⟩ :: rounds) stored :=
  Or.inr (Or.inr ⟨Round.not_publishes_of_empty rfl, Round.not_removes_of_empty rfl, h⟩)

/-- A served call publishes, removes, or leaves the last good object where it is. -/
theorem LastGood.served (hexact : applied.Exact) (hsame : round.policy.SameObject subject)
    {choice : Choice} {call : Call} {next : call.Answer → Task ReconcileError Action}
    (htrace : (reconcile K round.policy).Trace round.events (.call (I := Calls) call next))
    {s : Cluster} (h : LastGood K initial (round :: earlier) (s.managed subject)) :
    LastGood K initial
      (round.push ⟨⟨call, (serve applied choice call s).1⟩, choice.delivery.arrives⟩ :: earlier)
      ((serve applied choice call s).2.managed subject) := by
  have hwithin := hsame.within (htrace.makes (reconcile_within K round.policy)).2.1
  have hmanaged := serve_managed applied hwithin choice s
  by_cases hlands : call.Writes ∧ choice.delivery.arrives
  · obtain ⟨hwrites, harrives⟩ := hlands
    cases call with
    | patchNetworkPolicy ns name params patch =>
      obtain ⟨r, rfl, hpublishes⟩ := publishes_of_apply htrace
        (serve applied choice (.patchNetworkPolicy ns name params patch) s).1
      simp only [hmanaged, harrives, if_true]
      exact Or.inl ⟨r, _, hpublishes, hpublishes.sound, rfl, hexact _ _⟩
    | deleteNetworkPolicy ns name =>
      have hremoves := removes_of_delete htrace
        (serve applied choice (.deleteNetworkPolicy ns name) s).1
      simp only [hmanaged, harrives, if_true]
      exact Or.inr (Or.inl ⟨hremoves, rfl⟩)
    | _ => exact hwrites.elim
  · rw [serve_managed_kept applied hwithin hlands]
    apply h.push
    · rintro rendered ⟨hlanded, ns, name, params, hcall⟩
      change call = _ at hcall
      subst hcall
      exact hlands ⟨trivial, hlanded⟩
    · rintro ⟨hlanded, ns, name, hcall⟩
      change call = _ at hcall
      subst hcall
      exact hlands ⟨trivial, hlanded⟩
    · intro ns found hns hevent
      rw [hsame.managedNetworkPolicyName] at hevent
      obtain ⟨rfl, hanswer⟩ := Sigma.mk.inj hevent
      exact serve_found applied (hsame.ns.symm.trans hns) (eq_of_heq hanswer)

/-- The state of a loop whose rounds run one after the other. -/
structure InOrder (K : Crates) (subject : CIDRPolicy) (s : Cluster) (L : ControlLoop) : Prop where
  tracked : L.Tracked K subject
  fresh : Fresh K subject (s.success subject) L
  good : LastGood K (s.managed subject) L.rounds (L.cluster.managed subject)
  halted : L.active.isSome → ∀ report ∈ L.reports, report.task.Halted

theorem InOrder.unraced {s : Cluster} (h : InOrder K subject s L) (label : Label) :
    Unraced L label := by
  cases label with
  | serve choice =>
    rintro task hactive - - report hreport status ⟨ns, name, params, next, htask⟩
    have hhalted := h.halted (by rw [hactive]; rfl) report hreport
    rw [htask] at hhalted
    exact hhalted
  | _ => trivial

theorem InOrder.good_step (hexact : applied.Exact) {s : Cluster} (h : InOrder K subject s L)
    {label : Label} (hadmits : Admits subject L label) :
    LastGood K (s.managed subject) (L.step K applied context label).rounds
      ((L.step K applied context label).cluster.managed subject) := by
  have hgood := h.good
  have hstep := ControlLoop.step_stepped K applied context L label
  generalize L.step K applied context label = L' at hstep ⊢
  cases hstep with
  | unfit => exact hgood
  | @begin policy hactive => exact hgood.begin policy
  | serve hactive hrounds =>
    obtain ⟨hsame, htrace⟩ := h.tracked.position hactive hrounds
    rw [hrounds] at hgood
    exact hgood.served hexact hsame htrace
  | returns hactive hrounds | fails hactive hrounds =>
    rw [hrounds] at hgood
    exact hgood
  | @report i choice report call next hreport htask =>
    obtain ⟨-, -, hreporting⟩ := h.tracked.reports report (List.mem_of_getElem? hreport)
    rw [htask] at hreporting
    have hkept : (L.reported applied i choice report call next).cluster.managed subject =
        L.cluster.managed subject :=
      serve_managed_of_not_writes applied hreporting.not_writes choice L.cluster
    rw [hkept]
    exact hgood
  | outside change =>
    rw [hadmits.managed]
    exact hgood

/-- A round begins when every report has ended, and no report is spawned while one runs. -/
theorem InOrder.halted_step {s : Cluster} (h : InOrder K subject s L) {label : Label}
    (hbegin : ∀ policy, label = .begin policy → ∀ report ∈ L.reports, report.task.Halted)
    (hactive' : (L.step K applied context label).active.isSome) :
    ∀ report ∈ (L.step K applied context label).reports, report.task.Halted := by
  have hhalted := h.halted
  have hstep := ControlLoop.step_stepped K applied context L label
  generalize L.step K applied context label = L' at hstep hactive' ⊢
  cases hstep with
  | unfit => exact hhalted hactive'
  | begin hactive => exact hbegin _ rfl
  | serve hactive hrounds => exact hhalted (by rw [hactive]; rfl)
  | returns hactive hrounds | fails hactive hrounds => cases hactive'
  | report hreport htask =>
    have hcall := hhalted hactive' _ (List.mem_of_getElem? hreport)
    rw [htask] at hcall
    exact hcall.elim
  | outside change => exact hhalted hactive'

theorem InOrder.step (hexact : applied.Exact) {s : Cluster} (h : InOrder K subject s L)
    {label : Label} (hlabel : Sequential subject L label) :
    InOrder K subject s (L.step K applied context label) where
  tracked := h.tracked.step hlabel.1
  fresh := h.fresh.step h.tracked hlabel.1 (h.unraced label)
  good := h.good_step hexact hlabel.1
  halted := h.halted_step hlabel.2

variable (K applied context) in
/-- Over any number of rounds, with the spec edited between them and any call failing: what is
stored is the initial object, or exactly the rendering of the latest round that published one, or
gone after a cleanup of the terminating policy; and the status shows the success stamped last. -/
theorem rounds_keep_last_good (hexact : applied.Exact) (subject : CIDRPolicy) (s : Cluster)
    (labels : List Label) (h : Along (ControlLoop.step K applied context) (Sequential subject)
      (ControlLoop.start s) labels) :
    LastGood K (s.managed subject)
        ((ControlLoop.start s).exec K applied context labels).rounds
        (((ControlLoop.start s).exec K applied context labels).cluster.managed subject) ∧
      ∀ stored ∈ ((ControlLoop.start s).exec K applied context labels).cluster.stored subject,
        LastSuccess K (s.success subject)
          ((ControlLoop.start s).exec K applied context labels).rounds stored.success := by
  have hstart : InOrder K subject s (ControlLoop.start s) :=
    ⟨.start K subject s, .start K subject s, rfl, fun hactive => nomatch hactive⟩
  have hend := h.invariant (J := InOrder K subject s) (fun _ _ hL hlabel => hL.step hexact hlabel)
    hstart
  exact ⟨hend.good, hend.fresh.shown⟩

theorem Inline.sequential {label : Label} (h : Inline subject L label) :
    Sequential subject L label := by
  refine ⟨h.admits, ?_⟩
  rintro policy rfl
  exact h.2

end Steps

open Sample in
theorem rounds_keep_last_good_after_outage :
    LastGood crates none (runLoop (goodRound ++ failedRound ++ reportCalls 3)).rounds
        ((runLoop (goodRound ++ failedRound ++ reportCalls 3)).cluster.managed policy) ∧
      ∀ stored ∈ (runLoop (goodRound ++ failedRound ++ reportCalls 3)).cluster.stored policy,
        LastSuccess crates (none, []) (runLoop (goodRound ++ failedRound ++ reportCalls 3)).rounds
          stored.success := by
  have hinline : Along (ControlLoop.step crates replace context) (Inline policy)
      (ControlLoop.start (cluster policy none)) (goodRound ++ failedRound ++ reportCalls 3) := by
    decide
  have hexact : Apply.Exact replace := fun _ _ => ⟨rfl, rfl, rfl, rfl⟩
  exact rounds_keep_last_good crates replace context hexact policy (cluster policy none) _
    (hinline.mono fun _ _ h => h.sequential)

end Ipmaze
