import Ipmaze.Data.Failing
import Ipmaze.Validation

/-! Validation as a list of checks: a policy is rejected for the first of them that fails. -/
namespace Ipmaze
open Checked

inductive Check
  | rulesPresent
  | sourceAddress
  | pointerRegex
  | query
  | schedule
  | target
  | rules
  deriving DecidableEq, Repr

namespace Check
variable (K : Crates) (spec : CIDRPolicySpec)

/-- The checks in the order they are made. -/
def all : List Check :=
  [rulesPresent, sourceAddress, pointerRegex, query, schedule, target, rules]

def run : Check → Except ValidationError Unit
  | rulesPresent => if spec.rules = [] then .error .emptyRules else .ok ()
  | sourceAddress => do
    let _ ← (normalizeSourceAddress K spec.source.address).mapError .invalidSourceAddress
    return ()
  | pointerRegex => do
    let _ ← validatePointerRegex K (spec.source.pointer.map PointerSpec.regex)
    return ()
  | query => do
    let _ ← (compileQuery K spec.source.jmesPath).mapError .invalidJmesPath
    return ()
  | schedule => do
    let _ ← validateResyncSchedule K spec.resyncSchedule
    return ()
  | target => validateSelector spec.target.podSelector
  | rules => spec.rules.forM validateRule

def Fails (check : Check) : Prop := ∃ error, check.run K spec = .error error

/-- The check fails and those made before it do not. -/
def FailsFirst (check : Check) : Prop :=
  ∃ before after, all = before ++ check :: after ∧ (∀ c ∈ before, c.run K spec = .ok ()) ∧
    check.Fails K spec

theorem FailsFirst.fails {K : Crates} {spec : CIDRPolicySpec} {check : Check}
    (h : check.FailsFirst K spec) : check.Fails K spec := by
  obtain ⟨before, after, -, -, h⟩ := h
  exact h

end Check

variable {K : Crates} {spec : CIDRPolicySpec}

theorem validateSpec_checks :
    (do let _ ← validateSpec K spec; return ()) = Check.all.forM (Check.run K spec) := by
  have hforM (check : Check) (checks : List Check) : (check :: checks).forM (Check.run K spec) =
      check.run K spec >>= fun _ => checks.forM (Check.run K spec) := rfl
  have hnil : ([] : List Check).forM (Check.run K spec) = .ok () := rfl
  simp only [Check.all, hforM, hnil, Check.run, validateSpec]
  by_cases hrules : spec.rules = []
  · rw [if_pos hrules, if_pos hrules]
    rfl
  · rw [if_neg hrules, if_neg hrules]
    simp only [bind_assoc, pure_bind]
    rfl

theorem failsWith_validateSpec {P : ValidationError → Prop} :
    FailsWith P (validateSpec K spec) ↔
      ∃ check : Check, check.FailsFirst K spec ∧ FailsWith P (check.run K spec) := by
  have hchecks : FailsWith P (validateSpec K spec) ↔
      FailsWith P (Check.all.forM (Check.run K spec)) := by
    rw [← validateSpec_checks, failsWith_bind]
    simp
  rw [hchecks, failsWith_forM]
  constructor
  · rintro ⟨before, check, after, hall, hbefore, h⟩
    exact ⟨check, ⟨before, after, hall, hbefore, h.imp fun _ => And.left⟩, h⟩
  · rintro ⟨check, ⟨before, after, hall, hbefore, -⟩, h⟩
    exact ⟨before, check, after, hall, hbefore, h⟩

/-- Validation accepts what passes every check. -/
theorem exists_validateSpec_ok_iff :
    (∃ validated, validateSpec K spec = .ok validated) ↔
      ∀ check : Check, check.run K spec = .ok () := by
  have hall : ∀ check : Check, check ∈ Check.all := by
    intro check
    cases check <;> decide
  have hchecks : (∃ validated, validateSpec K spec = .ok validated) ↔
      Check.all.forM (Check.run K spec) = .ok () := by
    rw [← validateSpec_checks, bind_ok_iff]
    simp [pure, Except.pure]
  rw [hchecks, forM_ok_iff]
  exact ⟨fun h check => h check (hall check), fun h check _ => h check⟩

end Ipmaze
