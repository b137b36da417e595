import Ipmaze.Effects.Raises
import Ipmaze.Reconcile.Phases
import Ipmaze.Rendering.Agreement

/-! The stages at which a reconcile can fail, whatever the answers to its calls. -/
namespace Ipmaze
open Effects Checked

variable {K : Crates} {policy : CIDRPolicy} {ns : String}

theorem raises_kubernetesApi {α : Type} {E : ReconcileStage → Prop} (h : E .kubernetesApi)
    (p : Task KubeError α) :
    (p.mapError ReconcileError.kubernetesApi).Raises fun e => E e.stage := by
  apply Program.raises_mapError
  intro error
  exact h

theorem raises_mapError_ofExcept {ε α : Type} {f : ε → ReconcileError}
    {E : ReconcileError → Prop} (h : ∀ e, E (f e)) (x : Except ε α) :
    (Program.ofExcept (I := Calls) (x.mapError f)).Raises E := by
  cases x with
  | error e => exact h e
  | ok a => trivial

section Cluster

/-- A failure while the cluster is asked or told. -/
def ReconcileStage.OfCluster : ReconcileStage → Prop
  | managedPolicyCollision | kubernetesApi | scheduling => True
  | _ => False

theorem getManagedNetworkPolicy_raises (action : String) :
    (getManagedNetworkPolicy ns policy action).Raises fun e => e.stage.OfCluster := by
  unfold getManagedNetworkPolicy
  refine (raises_kubernetesApi trivial _).bind fun found => ?_
  cases found with
  | none => trivial
  | some np =>
    change (ite _ _ _ : Task _ _).Raises _
    split
    · trivial
    · exact (raises_kubernetesApi trivial _).bind fun _ => trivial

theorem deleteManagedNetworkPolicy_raises (exists_ : Bool) :
    (deleteManagedNetworkPolicy ns policy exists_).Raises fun e => e.stage.OfCluster := by
  cases exists_ with
  | false => trivial
  | true =>
    refine (raises_kubernetesApi trivial _).bind fun answer => ?_
    split <;> trivial

theorem publish_raises (policy : CIDRPolicy) (r : Resolved K) :
    (publish K policy r).Raises fun e => e.stage.OfCluster := by
  unfold publish conclude
  refine (getManagedNetworkPolicy_raises _).bind fun existing => ?_
  refine Program.Raises.bind ?_ fun _ => ?_
  · split
    · exact raises_kubernetesApi trivial _
    · trivial
  refine (raises_kubernetesApi trivial _).bind fun _ => ?_
  refine (raises_kubernetesApi trivial _).bind fun _ => ?_
  refine Program.Raises.bind ?_ fun _ => trivial
  exact fun now => raises_mapError_ofExcept (fun _ => trivial) _

theorem cleanup_raises (hns : policy.metadata.ns = some ns) :
    (cleanup policy).Raises fun e => e.stage.OfCluster := by
  unfold cleanup
  rw [hns]
  refine (getManagedNetworkPolicy_raises _).bind fun existing => ?_
  refine (deleteManagedNetworkPolicy_raises _).bind fun deleted => ?_
  exact raises_kubernetesApi trivial _

end Cluster

/-- The error is not one of translating a selector. -/
def ReconcileError.Elsewhere (error : ReconcileError) : Prop := error.stage ≠ .selectorTranslation

theorem retrieve_raises (policy : CIDRPolicy) (validated : ValidatedPolicy K) :
    (retrieve K policy validated).Raises ReconcileError.Elsewhere := by
  have hfetch (e : FetchError) : (ReconcileError.fetch e).Elsewhere := by
    cases e <;> simp [ReconcileError.Elsewhere, ReconcileError.stage]
  have hextract (e : ExtractionError) : (ReconcileError.extract e).Elsewhere := by
    cases e <;> simp [ReconcileError.Elsewhere, ReconcileError.stage]
  unfold retrieve
  refine (Program.raises_mapError hfetch _).bind fun source => ?_
  refine (Program.raises_mapError hfetch _).bind fun payload => ?_
  refine (raises_mapError_ofExcept (fun e => ?_) _).bind fun query => ?_
  · simp [ReconcileError.Elsewhere, ReconcileError.stage]
  · exact raises_mapError_ofExcept hextract _

/-- Past validation nothing is left that could fail to render. -/
theorem resolve_raises (hns : policy.metadata.ns = some ns) :
    (resolve K policy).Raises ReconcileError.Elsewhere := by
  have hvalidation (e : ValidationError) : (ReconcileError.validation e).Elsewhere := by
    cases e <;> simp [ReconcileError.Elsewhere, ReconcileError.stage]
  have hyields : (Program.ofExcept (I := Calls)
      ((validatePolicy K policy).mapError ReconcileError.validation)).Yields
        fun validated => validatePolicy K policy = .ok validated :=
    Program.yields_ofExcept fun _ h => mapError_ok_iff.mp h
  unfold resolve
  refine (raises_mapError_ofExcept hvalidation _).bind_of_yields hyields fun validated hvalid => ?_
  refine (retrieve_raises policy validated).bind fun cidrs => ?_
  rw [buildManagedNetworkPolicy_eq (validateSpec_wellFormed hvalid) hns, hns]
  trivial

theorem reconcile_raises (hns : policy.metadata.ns = some ns) :
    (reconcile K policy).Raises ReconcileError.Elsewhere := by
  have hcluster (e : ReconcileError) (h : e.stage.OfCluster) : e.Elsewhere := by
    intro he
    rw [he] at h
    exact h
  cases hd : policy.metadata.deletionTimestamp with
  | none =>
    rw [reconcile_eq hd]
    exact (resolve_raises hns).bind fun r => (publish_raises policy r).mono hcluster
  | some deletion =>
    rw [reconcile_terminating (by rw [hd]; rfl)]
    exact ((cleanup_raises hns).mono hcluster).bind fun _ => trivial

/-- What validation accepts is rendered, so no reconcile fails to translate a selector; what it
rejects for the values of a requirement fails to render for the values of a requirement. -/
theorem validation_agrees_with_rendering (K : Crates) (hns : policy.metadata.ns = some ns) :
    (∀ validated, validatePolicy K policy = .ok validated →
      ∀ cidrs, ∃ rendered, buildManagedNetworkPolicy policy cidrs = .ok rendered) ∧
    (∀ log error, (reconcile K policy).Trace log (.fail error) →
      error.stage ≠ .selectorTranslation) ∧
    ∀ key operator,
      (validatePolicy K policy = .error (.selectorValuesRequired key operator) ∨
        validatePolicy K policy = .error (.selectorValuesForbidden key operator)) →
      ∀ cidrs, ∃ key' operator',
        buildManagedNetworkPolicy policy cidrs = .error (.missingSelectorValues key' operator') ∨
        buildManagedNetworkPolicy policy cidrs =
          .error (.unexpectedSelectorValues key' operator') := by
  refine ⟨?_, ?_, ?_⟩
  · intro validated hvalid cidrs
    exact ⟨_, buildManagedNetworkPolicy_eq (validateSpec_wellFormed hvalid) hns cidrs⟩
  · exact fun log error h => h.raises (reconcile_raises hns)
  · intro key operator hrejected cidrs
    have hfails : FailsWith ValidationError.OfValues (validateSpec K policy.spec) := by
      rcases hrejected with h | h
      · exact ⟨_, h, trivial⟩
      · exact ⟨_, h, trivial⟩
    obtain ⟨check, -, hcheck⟩ := failsWith_validateSpec.mp hfails
    have hnot := not_renders_of_check hcheck
    cases hbuild : buildManagedNetworkPolicy policy cidrs with
    | ok rendered => exact absurd (renders_of_buildManagedNetworkPolicy hbuild) hnot
    | error error =>
      have hvalues := buildManagedNetworkPolicy_failsOnlyWith hns error hbuild
      cases error with
      | missingNamespace => exact hvalues.elim
      | missingSelectorValues key' operator' => exact ⟨key', operator', Or.inl rfl⟩
      | unexpectedSelectorValues key' operator' => exact ⟨key', operator', Or.inr rfl⟩

open Sample in
theorem validation_agrees_with_rendering_allowlist :
    ∃ rendered, buildManagedNetworkPolicy Sample.policy [cidr] = .ok rendered := by
  have hns : Sample.policy.metadata.ns = some "payments" := rfl
  have hvalid : ∃ validated, validatePolicy crates Sample.policy = .ok validated := ⟨_, rfl⟩
  obtain ⟨validated, hvalid⟩ := hvalid
  exact (validation_agrees_with_rendering crates hns).1 validated hvalid [cidr]

end Ipmaze
