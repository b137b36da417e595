import Ipmaze.Effects.Warrants
import Ipmaze.Isolation
import Ipmaze.Reconcile.Declares
import Ipmaze.Rendering.Meaning

/-! What the controller is for, as a machine of its own: a firewall that holds one access for each
key, in which the access of a live policy is published for CIDRs that its source has listed, and
that of a policy that goes is retracted. The controller's runs refine it. -/
namespace Ipmaze
open Effects

/-- What the NetworkPolicy stored under each key means. -/
abbrev Firewall := Key → Option Access

section Machine
variable (K : Crates) {τ : Type} (runs : τ → Run)

/-- A run that takes the NetworkPolicy of its policy away. -/
def Run.Retires : Run → Prop
  | cleanup _ => True
  | reconcile policy | failure policy _ _ | attempt _ policy =>
    policy.metadata.deletionTimestamp.isSome

/-- A step of the firewall, given the CIDRs that were listed for each run. -/
inductive Firewall.Step (listed : τ → List NormalizedCidr → Prop) : Firewall → Firewall → Prop
  | publish {t : τ} {ns : String} {cidrs : List NormalizedCidr} (f : Firewall)
      (hlive : (runs t).policy.metadata.deletionTimestamp = none)
      (hns : (runs t).policy.metadata.ns = some ns) (hlisted : listed t cidrs) :
    Step listed f (Function.update f (ns, (runs t).policy.managedNetworkPolicyName)
      (some ((runs t).policy.spec.access K ns cidrs)))
  | retract {t : τ} {ns : String} (f : Firewall) (hretires : (runs t).Retires)
      (hns : (runs t).policy.metadata.ns = some ns) :
    Step listed f (Function.update f (ns, (runs t).policy.managedNetworkPolicyName) none)
  | other {f f' : Firewall}
      (hkept : ∀ t ns, (runs t).policy.metadata.ns = some ns →
        f' (ns, (runs t).policy.managedNetworkPolicyName) =
          f (ns, (runs t).policy.managedNetworkPolicyName)) : Step listed f f'

/-- The firewall that a cluster implements. -/
def Cluster.firewall (s : Cluster) : Firewall := fun key =>
  (s.networkPolicies key).bind fun np => np.spec.map fun spec => spec.access K key.1

/-- What allows a run to write a NetworkPolicy after what it was answered. -/
def Permitted (policy : CIDRPolicy) (retires : Prop) (past : List Calls.Event) : Call → Prop
  | .patchNetworkPolicy ns name _ patch =>
    policy.metadata.deletionTimestamp = none ∧ policy.metadata.ns = some ns ∧
      name = policy.managedNetworkPolicyName ∧ ∃ cidrs, Listed K policy past cidrs ∧
        patch.spec = some (policy.spec.rendered cidrs)
  | .deleteNetworkPolicy ns name =>
    retires ∧ policy.metadata.ns = some ns ∧ name = policy.managedNetworkPolicyName
  | _ => True

end Machine

section Programs
variable {K : Crates} {policy : CIDRPolicy} {retires : Prop} {past : List Calls.Event}

theorem permitted_of_not_writes {call : Call} (h : ¬ call.Writes) :
    Permitted K policy retires past call := by
  cases call with
  | patchNetworkPolicy ns name params patch => exact (h trivial).elim
  | deleteNetworkPolicy ns name => exact (h trivial).elim
  | _ => trivial

theorem publish_permitted (hlive : policy.metadata.deletionTimestamp = none) {r : Resolved K}
    (hsound : r.Sound policy) (hlisted : Listed K policy past r.cidrs) :
    (publish K policy r).Makes fun call => ∀ l, Permitted K policy retires (past ++ l) call := by
  refine publish_makes (fun _ => trivial) (fun _ => trivial) (fun _ _ _ => trivial) ?_
    fun outcome _ => patchStatusForOutcome_makes (fun _ => trivial) (fun _ => trivial)
      (fun _ _ _ => trivial) outcome
  rw [hsound.apply_eq]
  refine ⟨fun l => ⟨hlive, hsound.ns, rfl, r.cidrs, ?_, ?_⟩, fun _ => Program.makes_ofExcept _⟩
  · exact hlisted.mono (List.prefix_append past l)
  · rw [hsound.rendered_eq]
    rfl

theorem cleanup_permitted (policy : CIDRPolicy) (hretires : retires) :
    (cleanup policy).Makes fun call => ∀ l, Permitted K policy retires ([] ++ l) call :=
  cleanup_makes (fun _ _ _ => trivial) (fun _ hns _ => ⟨hretires, hns, rfl⟩) fun _ _ _ => trivial

theorem failure_permitted (policy : CIDRPolicy) (stage : ReconcileStage) (message : String) :
    (handleReconcileFailure K policy stage message).Warranted (Permitted K policy retires)
      (fun _ _ => True) past := by
  have hidle := handleReconcileFailure_writes_nothing (K := K) policy stage message
  exact (hidle.warranted_along fun _ _ => permitted_of_not_writes).mono fun _ _ _ => trivial

theorem reconcile_permitted (policy : CIDRPolicy) :
    (reconcile K policy).Warranted
      (Permitted K policy (policy.metadata.deletionTimestamp.isSome)) (fun _ _ => True) [] := by
  cases hdeletion : policy.metadata.deletionTimestamp with
  | some deletion =>
    have hterminating : policy.metadata.deletionTimestamp.isSome := by rw [hdeletion]; rfl
    rw [reconcile_terminating hterminating]
    exact Program.Warranted.bind ((cleanup_permitted policy rfl).warranted_along fun l _ h => h l)
      (fun _ _ _ => trivial) fun _ _ _ => trivial
  | none =>
    rw [reconcile_eq hdeletion]
    refine Program.Warranted.bind ((resolve_remote policy).warranted_along fun _ _ h =>
      permitted_of_not_writes (Call.Idle.of_isRemote h).1) (fun answers r hr => ?_)
      fun _ _ _ => trivial
    obtain ⟨l, rfl, htrace⟩ := hr r rfl
    have hsound := htrace.yields (resolve_sound policy)
    exact ((publish_permitted hdeletion hsound (resolve_listed htrace)).warranted_along
      fun l _ h => h l).mono fun _ _ _ => trivial

theorem Run.permitted (run : Run) :
    (run.task K).Warranted (Permitted K run.policy run.Retires) (fun _ _ => True) [] := by
  cases run with
  | reconcile policy => exact (reconcile_permitted policy).discard
  | cleanup policy =>
    exact ((cleanup_permitted policy trivial).warranted_along fun l _ h => h l).discard
  | failure policy stage message => exact (failure_permitted policy stage message).discard
  | attempt context policy =>
    refine Program.Warranted.discard (Q := fun _ _ => True)
      ((reconcile_permitted policy).rescue (fun _ _ _ => trivial) fun past e _ => ?_)
    exact (failure_permitted policy _ _).bind (fun _ _ _ => trivial) fun _ _ _ => trivial

end Programs

section Refinement
variable {K : Crates} {τ η : Type} {runs : τ → Run} {applied : Apply}

theorem firewall_setNetworkPolicy (s : Cluster) (key : Key) (stored : Option NetworkPolicy) :
    (s.setNetworkPolicy key stored).firewall K = Function.update (s.firewall K) key
      (stored.bind fun np => np.spec.map fun spec => spec.access K key.1) := by
  funext key'
  by_cases hkey : key' = key
  · subst hkey
    simp [Cluster.firewall]
  · simp [Cluster.firewall, Function.update_of_ne hkey, s.setNetworkPolicy_of_ne stored hkey]

/-- A call that writes no NetworkPolicy leaves the firewall as it is. -/
theorem firewall_of_not_writes {call : Call} (h : ¬ call.Writes) (choice : Choice) (s : Cluster) :
    (serve applied choice call s).2.firewall K = s.firewall K := by
  funext key
  have hkey : call.writtenNetworkPolicy ≠ some key := fun hw => h (Call.writes_of_written hw)
  simp only [Cluster.firewall, serve_networkPolicies applied choice call s key hkey]

/-- A permitted call is a step of the firewall, or none. -/
theorem firewall_serve (hsets : Apply.Sets applied) {t : τ} {past : List Calls.Event} {call : Call}
    (h : Permitted K (runs t).policy (runs t).Retires past call) (choice : Choice) (s : Cluster)
    {listed : τ → List NormalizedCidr → Prop}
    (hlisted : ∀ cidrs, Listed K (runs t).policy past cidrs → listed t cidrs) :
    (serve applied choice call s).2.firewall K = s.firewall K ∨
      Firewall.Step K runs listed (s.firewall K) ((serve applied choice call s).2.firewall K) := by
  cases call with
  | patchNetworkPolicy ns name params patch =>
    obtain ⟨hlive, hns, rfl, cidrs, hcidrs, hpatch⟩ := h
    simp only [serve, Delivery.write]
    cases choice.delivery.arrives with
    | false => exact Or.inl rfl
    | true =>
      have hspec (old : Option NetworkPolicy) :
          (applied old patch).spec = some ((runs t).policy.spec.rendered cidrs) :=
        (hsets _ _).spec.trans hpatch
      right
      simp only [if_true, firewall_setNetworkPolicy, Option.bind_some, hspec, Option.map_some,
        rendered_access]
      exact .publish _ hlive hns (hlisted cidrs hcidrs)
  | deleteNetworkPolicy ns name =>
    obtain ⟨hretires, hns, rfl⟩ := h
    simp only [serve]
    split
    · simp only [Delivery.write]
      cases choice.delivery.arrives with
      | false => exact Or.inl rfl
      | true =>
        right
        simp only [if_true, firewall_setNetworkPolicy, Option.bind_none]
        exact .retract _ hretires hns
    · exact Or.inl rfl
  | _ => exact Or.inl (firewall_of_not_writes id choice s)

theorem Firewall.Step.mono {listed listed' : τ → List NormalizedCidr → Prop} {f f' : Firewall}
    (hlisted : ∀ t cidrs, listed t cidrs → listed' t cidrs) (h : Firewall.Step K runs listed f f') :
    Firewall.Step K runs listed' f f' := by
  cases h with
  | publish _ hlive hns hcidrs => exact .publish _ hlive hns (hlisted _ _ hcidrs)
  | retract _ hretires hns => exact .retract _ hretires hns
  | other hkept => exact .other hkept

variable [DecidableEq τ]

/-- However any number of runs interleave with one another, with lost and unacknowledged calls and
with parties that leave the managed NetworkPolicies alone, what the cluster implements is a run of
the firewall: every change under a managed name publishes what a live policy declares for CIDRs that
its run was listed, or retracts what a policy that goes had declared. From there, each single move
is one step of the firewall or changes nothing of it. -/
theorem runs_refine_firewall (hsets : Apply.Sets applied) (runs : τ → Run)
    (act : η → Cluster → Cluster)
    (hact : ∀ a s t, (act a s).managed (runs t).policy = s.managed (runs t).policy) (s : Cluster)
    (moves : List (Move τ Choice η)) :
    ∃ final, final = Pool.exec (api applied) act (.start s fun t => (runs t).task K) moves ∧
      Relation.ReflTransGen
        (Firewall.Step K runs fun t => Listed K (runs t).policy (final.logs t))
        (s.firewall K) (final.state.firewall K) ∧
      ∀ move, ∃ next, next = Pool.step (api applied) act final move ∧
        (next.state.firewall K = final.state.firewall K ∨
          Firewall.Step K runs (fun t => Listed K (runs t).policy (final.logs t))
            (final.state.firewall K) (next.state.firewall K)) := by
  let r (logs : τ → List Calls.Event) : Firewall → Firewall → Prop :=
    Firewall.Step K runs fun t => Listed K (runs t).policy (logs t)
  have hstart : (Pool.start s fun t => (runs t).task K).Warranted
      fun t => Permitted K (runs t).policy (runs t).Retires := fun t => (runs t).permitted
  have hcall (t : τ) (choice : Choice) (call : Call) (s : Cluster) (logs : τ → List Calls.Event)
      (hpermitted : Permitted K (runs t).policy (runs t).Retires (logs t) call) :
      (serve applied choice call s).2.firewall K = s.firewall K ∨
        r logs (s.firewall K) ((serve applied choice call s).2.firewall K) :=
    firewall_serve hsets hpermitted choice s fun _ => id
  have hother (a : η) (s : Cluster) (logs : τ → List Calls.Event) :
      r logs (s.firewall K) ((act a s).firewall K) := by
    refine .other fun t ns hns => ?_
    have hmanaged := hact a s t
    rw [Cluster.managed_eq hns, Cluster.managed_eq hns] at hmanaged
    simp only [Cluster.firewall, hmanaged]
  refine ⟨_, rfl, hstart.refines hcall hother ?_ moves, fun move => ⟨_, rfl, ?_⟩⟩
  · intro logs logs' hlogs f f' hstep
    exact hstep.mono fun t cidrs hlisted => hlisted.mono (hlogs t)
  · exact (hstart.exec moves).step_refines hcall hother move

end Refinement

open Sample in
theorem runs_refine_firewall_tenants :
    ∃ final, final = Pool.exec (api replace) noOther
        (.start (cluster policy none) fun t => (tenants t).task crates) turns ∧
      Relation.ReflTransGen
        (Firewall.Step crates tenants fun t => Listed crates (tenants t).policy (final.logs t))
        ((cluster policy none).firewall crates) (final.state.firewall crates) := by
  obtain ⟨final, hfinal, hrun, -⟩ := runs_refine_firewall (K := crates) (s := cluster policy none)
    (fun _ patch => .refl patch) tenants noOther (fun a => a.elim) turns
  exact ⟨final, hfinal, hrun⟩

end Ipmaze
