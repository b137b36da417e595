import Ipmaze.Effects.Credits
import Ipmaze.Reconcile.Phases

/-! What one reconcile, and the report of its failure, can cost in calls. -/
namespace Ipmaze
open Effects

/-- What a call of each kind counts. -/
structure Prices where
  request : ℕ
  clock : ℕ
  check : ℕ
  write : ℕ
  read : ℕ
  status : ℕ
  event : ℕ
  deriving DecidableEq, Repr

namespace Prices
variable (prices : Prices)

def of : Call → ℕ
  | .httpGet _ => prices.request
  | .utcNow => prices.clock
  | .getNetworkPolicy _ _ => prices.check
  | .patchNetworkPolicy _ _ _ _ | .deleteNetworkPolicy _ _ => prices.write
  | .getPolicy _ _ => prices.read
  | .patchStatus _ _ _ _ => prices.status
  | .publishEvent _ _ => prices.event

/-- Publishing a resolution that turned out to be new. -/
def publication : ℕ :=
  prices.check + prices.write + prices.status + prices.event + 2*prices.clock

/-- A pointer and the list it leads to, and the publication of what the list says. -/
def reconcile : ℕ := 2*prices.request + prices.publication

def report : ℕ := prices.read + prices.status + prices.event

/-- A reconcile that fails at its very end. -/
def round : ℕ := prices.reconcile + prices.report

end Prices

/-- What is left once a check has passed: it owes no event. -/
def Prices.afterCheck (prices : Prices) (n : ℕ) {ε α : Type} : Except ε α → ℕ
  | .ok _ => n + prices.event
  | .error _ => n

@[simp] theorem Prices.afterCheck_ok (prices : Prices) (n : ℕ) {ε α : Type} (a : α) :
    prices.afterCheck n (.ok a : Except ε α) = n + prices.event := rfl
@[simp] theorem Prices.afterCheck_error (prices : Prices) (n : ℕ) {ε α : Type} (e : ε) :
    prices.afterCheck n (.error e : Except ε α) = n := rfl

section Programs
variable {K : Crates} {policy : CIDRPolicy} {ns : String} (prices : Prices) (n : ℕ)

theorem affords_once {ε α : Type} (call : Call) (r : call.Answer → Except ε α) :
    (.call (I := Calls) call fun answer => .ofExcept (r answer) : Task ε α).Affords prices.of
      (fun _ => n) (n + prices.of call) := by
  refine ⟨Nat.le_add_left .., fun answer => ?_⟩
  rw [Nat.add_sub_cancel, Program.affords_ofExcept]

theorem affords_ofExcept_rest {ε α : Type} (r : Except ε α) :
    (.ofExcept r : Task ε α).Affords prices.of (fun _ => n) n :=
  Program.affords_ofExcept.mpr le_rfl

theorem publishPolicyEvent_affords (policy : CIDRPolicy) (eventType : EventType)
    (reason action : String) (note : Option String) (secondary : Option NetworkPolicy) :
    (publishPolicyEvent policy eventType reason action note secondary).Affords prices.of
      (fun _ => n) (n + prices.event) :=
  affords_once prices n (.publishEvent _ _) id

theorem resolveFinalSource_affords (address : NormalizedRemoteAddress) (regex : Option K.Regex) :
    (resolveFinalSource K address regex).Affords prices.of (fun _ => n) (n + prices.request) := by
  cases regex with
  | none => exact Nat.le_add_right n _
  | some regex =>
    rw [resolveFinalSource_eq]
    exact affords_once prices n (.httpGet _) (targetOf K address regex)

theorem fetchJson_affords (address : NormalizedRemoteAddress) :
    (fetchJson K address).Affords prices.of (fun _ => n) (n + prices.request) := by
  rw [fetchJson_eq]
  exact affords_once prices n (.httpGet _) (documentOf K)

theorem retrieve_affords (validated : ValidatedPolicy K) :
    (retrieve K policy validated).Affords prices.of (fun _ => n) (n + 2*prices.request) := by
  have hsource := resolveFinalSource_affords (K := K) prices (n + prices.request)
    validated.sourceAddress validated.pointerRegex
  rw [show n + prices.request + prices.request = n + 2*prices.request by omega] at hsource
  unfold retrieve
  refine (hsource.mapError _).bind (fun source => ?_) fun _ => Nat.le_add_right ..
  refine ((fetchJson_affords prices n _).mapError _).bind (fun payload => ?_) fun _ => le_rfl
  refine (affords_ofExcept_rest prices n _).bind (fun query => ?_) fun _ => le_rfl
  exact affords_ofExcept_rest prices n _

theorem resolve_affords :
    (resolve K policy).Affords prices.of (fun _ => n) (n + 2*prices.request) := by
  unfold resolve
  refine (affords_ofExcept_rest prices _ _).bind (fun validated => ?_) fun _ => Nat.le_add_right ..
  refine (retrieve_affords prices n validated).bind (fun cidrs => ?_) fun _ => le_rfl
  refine (affords_ofExcept_rest prices n _).bind (fun rendered => ?_) fun _ => le_rfl
  exact (affords_ofExcept_rest prices n _).bind (fun _ => le_refl n) fun _ => le_rfl

/-- A check that is refused announces the collision, and one that passes owes no event. -/
theorem getManagedNetworkPolicy_affords (ns : String) (policy : CIDRPolicy) (action : String) :
    (getManagedNetworkPolicy ns policy action).Affords prices.of (prices.afterCheck n)
      (n + prices.event + prices.check) := by
  rw [← bind_pure (getManagedNetworkPolicy ns policy action), getManagedNetworkPolicy_bind]
  refine ⟨Nat.le_add_left .., fun answer => ?_⟩
  rw [show prices.of (.getNetworkPolicy ns policy.managedNetworkPolicyName) = prices.check from rfl,
    Nat.add_sub_cancel]
  cases answer with
  | error e => exact Nat.le_add_right ..
  | ok found =>
    cases found with
    | none => exact le_refl (n + prices.event)
    | some np =>
      by_cases howned : isManagedNetworkPolicyFor policy np = true
      · simp only [checked, howned, if_true]
        exact le_refl (n + prices.event)
      · simp only [checked, howned]
        have hevent := publishPolicyEvent_affords prices n policy .warning
          "ManagedPolicyCollision" action
          (some ("Refusing to " ++ Text.toLowercase action ++ " NetworkPolicy " ++
            policy.managedNetworkPolicyName ++
            " because an existing resource with that name is not owned by this CIDRPolicy"))
          (some np)
        exact (hevent.mapError _).bind (fun _ => le_refl n) fun _ => le_refl n

theorem deleteManagedNetworkPolicy_affords (exists_ : Bool) :
    (deleteManagedNetworkPolicy ns policy exists_).Affords prices.of (fun _ => n)
      (n + prices.write) := by
  cases exists_ with
  | false => exact Nat.le_add_right ..
  | true =>
    rw [← bind_pure (deleteManagedNetworkPolicy ns policy true), deleteManagedNetworkPolicy_bind]
    refine ⟨Nat.le_add_left .., fun answer => ?_⟩
    rw [show prices.of (.deleteNetworkPolicy ns policy.managedNetworkPolicyName) = prices.write
      from rfl, Nat.add_sub_cancel]
    unfold deleted
    split <;> exact le_refl n

theorem patchStatusForOutcome_affords {outcome : ReconcileOutcome} {observed : List String}
    (h : outcome = .reconciled observed ∨ outcome = .noChange observed) :
    (patchStatusForOutcome K ns policy outcome).Affords prices.of (fun _ => n)
      (n + prices.status + prices.clock) := by
  rcases h with rfl | rfl
  all_goals
    refine ⟨Nat.le_add_left .., fun now => ?_⟩
    rw [show prices.of .utcNow = prices.clock from rfl, Nat.add_sub_cancel]
    exact affords_once prices n (.patchStatus _ _ _ _) id

theorem publishOutcomeEvent_affords (outcome : ReconcileOutcome) (managed : Option NetworkPolicy) :
    (publishOutcomeEvent policy managed outcome).Affords prices.of (fun _ => n)
      (n + prices.event) := by
  cases outcome with
  | reconciled observed => exact publishPolicyEvent_affords prices n _ _ _ _ _ _
  | noChange observed | failed stage message => exact Nat.le_add_right ..

theorem conclude_affords (policy : CIDRPolicy) {r : Resolved K} {outcome : ReconcileOutcome}
    (h : outcome = .reconciled r.observed ∨ outcome = .noChange r.observed) :
    (conclude K policy r outcome).Affords prices.of (fun _ => n)
      (n + prices.clock + prices.event + prices.status + prices.clock) := by
  unfold conclude
  refine ((patchStatusForOutcome_affords prices _ h).mapError _).bind (fun _ => ?_)
    fun _ => (Nat.le_add_right ..).trans (Nat.le_add_right ..)
  refine ((publishOutcomeEvent_affords prices _ _ _).mapError _).bind (fun _ => ?_)
    fun _ => Nat.le_add_right ..
  have hnow := affords_once prices n .utcNow
    fun now => (nextResyncAfter K r.validated.resyncSchedule now).mapError ReconcileError.scheduling
  exact hnow.bind (fun _ => le_refl n) fun _ => le_rfl

theorem publish_affords (r : Resolved K) :
    (publish K policy r).Affords prices.of (fun _ => n) (n + prices.publication) := by
  have hcheck := getManagedNetworkPolicy_affords prices
    (n + prices.clock + prices.status + prices.clock + prices.write) r.ns policy "Reconcile"
  have hpublish : (publish K policy r).Affords prices.of (fun _ => n)
      (n + prices.clock + prices.status + prices.clock + prices.write + prices.event +
        prices.check) := by
    refine hcheck.bind (fun existing => ?_) fun e => ?_
    · have hcases := classifyOutcome_cases existing r.rendered r.observed
      have hconclude := conclude_affords prices n policy hcases
      have happly : (if (classifyOutcome existing r.rendered r.observed).isReconciled then
          (applyManagedNetworkPolicy r.ns r.rendered).mapError ReconcileError.kubernetesApi
          else .ret ()).Affords prices.of
            (fun _ => n + prices.clock + prices.event + prices.status + prices.clock)
            (n + prices.clock + prices.event + prices.status + prices.clock + prices.write) := by
        split
        · exact (affords_once prices _ (.patchNetworkPolicy _ _ _ _) id).mapError _
        · exact Nat.le_add_right ..
      refine (happly.bind (fun _ => hconclude) fun _ => ?_).mono (fun _ => le_rfl) ?_
      · omega
      · rw [Prices.afterCheck_ok]
        omega
    · rw [Prices.afterCheck_error]
      omega
  exact hpublish.mono (fun _ => le_rfl) (by unfold Prices.publication; omega)

theorem cleanup_affords :
    (cleanup policy).Affords prices.of (fun _ => n)
      (n + prices.check + prices.write + prices.event) := by
  unfold cleanup
  refine (affords_ofExcept_rest prices _ _).bind (fun ns => ?_) fun _ => by omega
  have hcheck := getManagedNetworkPolicy_affords prices (n + prices.write) ns policy "Cleanup"
  refine Program.Affords.mono (m := n + prices.write + prices.event + prices.check)
    (hcheck.bind (fun existing => ?_) fun e => Nat.le_add_right ..) (fun _ => le_rfl) (by omega)
  rw [Prices.afterCheck_ok, Nat.add_right_comm]
  exact (deleteManagedNetworkPolicy_affords prices _ _).bind
    (fun deleted => (publishPolicyEvent_affords prices n _ _ _ _ _ _).mapError _)
    fun _ => Nat.le_add_right ..

/-- A reconcile makes at most two requests, one check, one write, one status patch and one event. -/
theorem reconcile_affords (policy : CIDRPolicy) :
    (reconcile K policy).Affords prices.of (fun _ => n) (n + prices.reconcile) := by
  cases hlive : policy.metadata.deletionTimestamp with
  | some deletion =>
    rw [reconcile_terminating (by rw [hlive]; rfl)]
    have hcleanup : (cleanup policy >>= fun _ => pure Action.awaitChange).Affords prices.of
        (fun _ => n) (n + prices.check + prices.write + prices.event) :=
      (cleanup_affords prices n).bind (fun _ => le_refl n) fun _ => le_rfl
    exact hcleanup.mono (fun _ => le_rfl) (by unfold Prices.reconcile Prices.publication; omega)
  | none =>
    rw [reconcile_eq hlive]
    refine ((resolve_affords prices (n + prices.publication)).bind
      (fun r => publish_affords prices n r) fun _ => Nat.le_add_right ..).mono (fun _ => le_rfl) ?_
    unfold Prices.reconcile
    omega

theorem handleReconcileFailure_affords (policy : CIDRPolicy) (stage : ReconcileStage)
    (message : String) :
    (handleReconcileFailure K policy stage message).Affords prices.of (fun _ => n)
      (n + prices.report) := by
  unfold handleReconcileFailure Prices.report
  cases policy.metadata.ns with
  | none => exact Nat.le_add_right ..
  | some ns =>
    have hread := affords_once prices (n + prices.event + prices.status)
      (.getPolicy ns policy.nameAny) id
    have hstatus : (patchStatusForOutcome K ns policy (.failed stage message)).Affords prices.of
        (fun _ => n + prices.event) (n + prices.event + prices.status + prices.read) :=
      hread.bind (fun current => affords_once prices _ (.patchStatus _ _ _ _) id)
        fun _ => Nat.le_add_right ..
    refine (hstatus.bind (fun _ => publishPolicyEvent_affords prices n _ _ _ _ _ _)
      fun _ => Nat.le_add_right ..).mono (fun _ => le_rfl) (by omega)

end Programs
end Ipmaze
