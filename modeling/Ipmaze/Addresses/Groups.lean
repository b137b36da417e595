import Ipmaze.Addresses.PointerRoute
import Mathlib.Data.List.Infix

/-! The capture groups of a pointer regex: the first one has to be there before a body can fill
it. -/
namespace Ipmaze
open Effects Checked

/-- What the controller relies on of the `regex` crate, where a pattern declares `groups` many
capture groups: those it does not declare never hold anything. -/
structure Crates.CountsGroups (K : Crates) (groups : String → ℕ) : Prop where
  undeclared {pattern : String} {regex : K.Regex} {body : String} {captures : ℕ → Option String}
    {i : ℕ} (hcompile : K.compileRegex pattern = .ok regex)
    (hcaptures : K.captures regex body = some captures) (hi : groups pattern < i) :
    captures i = none

/-- The pattern is accepted only with a group to read an address from, so that a match without
one is the fault of the body. -/
structure YieldsAddress (K : Crates) (groups : String → ℕ) (pattern : String) : Prop where
  accepted {compiled : Option K.Regex} (h : validatePointerRegex K (some pattern) = .ok compiled) :
    (∃ regex, K.compileRegex pattern = .ok regex) ∧ 1 ≤ groups pattern
  resolved {policy : CIDRPolicy} {validated : ValidatedPolicy K} {applied : Apply}
    {w : World Calls Choice Cluster} (hpointer : policy.spec.source.pointer = some ⟨pattern⟩)
    (hvalid : validatePolicy K policy = .ok validated)
    (hempty : ((resolveFinalSource K validated.sourceAddress validated.pointerRegex).run
      (api applied) w).1 = .error .pointerExtractionEmptyCapture) : 1 ≤ groups pattern

section Groups
variable {K : Crates} {groups : String → ℕ} {policy : CIDRPolicy} {validated : ValidatedPolicy K}
  {pattern : String}

theorem validatePointerRegex_ok_iff {compiled : Option K.Regex} :
    validatePointerRegex K (some pattern) = .ok compiled ↔
      ∃ regex, K.compileRegex pattern = .ok regex ∧ compiled = some regex := by
  constructor
  · intro h
    obtain ⟨regex, hregex, h⟩ := bind_ok_iff.mp h
    cases h
    exact ⟨regex, mapError_ok_iff.mp hregex, rfl⟩
  · rintro ⟨regex, hregex, rfl⟩
    rw [validatePointerRegex, hregex]
    rfl

/-- The regex that an accepted policy points with. -/
theorem exists_pointerRegex (hpointer : policy.spec.source.pointer = some ⟨pattern⟩)
    (hvalid : validatePolicy K policy = .ok validated) :
    ∃ regex, K.compileRegex pattern = .ok regex ∧ validated.pointerRegex = some regex := by
  obtain ⟨-, -, hregex, -⟩ := validateSpec_ok_iff.mp hvalid
  rw [hpointer] at hregex
  exact validatePointerRegex_ok_iff.mp hregex

/-- Without a group nothing is resolved, whatever the body. -/
theorem resolvePointer_groupless (hK : K.CountsGroups groups) {regex : K.Regex}
    (hcompile : K.compileRegex pattern = .ok regex) (hgroups : groups pattern = 0)
    (body : String) : ∃ error : FetchError, resolvePointer K regex body = .error error ∧
      (ReconcileError.fetch error).stage = .pointerExtraction := by
  unfold resolvePointer
  cases hcaptures : K.captures regex body with
  | none => exact ⟨_, rfl, rfl⟩
  | some captures =>
    have hnone : captures 1 = none := hK.undeclared hcompile hcaptures (by omega)
    simp only [hnone, Option.map_none, Option.filter_none]
    exact ⟨_, rfl, rfl⟩

end Groups

/-- A pattern yields addresses exactly if it does not compile or declares a group. With any other
pattern a policy is accepted, and fails on every body without a final request. -/
theorem yieldsAddress_iff {K : Crates} {groups : String → ℕ} (hK : K.CountsGroups groups)
    (pattern : String) :
    (YieldsAddress K groups pattern ↔
      ∀ regex, K.compileRegex pattern = .ok regex → 1 ≤ groups pattern) ∧
    (groups pattern = 0 → ∀ (policy : CIDRPolicy) (validated : ValidatedPolicy K),
      policy.spec.source.pointer = some ⟨pattern⟩ → validatePolicy K policy = .ok validated →
      policy.metadata.deletionTimestamp = none → ∀ (applied : Apply) w bytes,
        (w.choices 0).http.Delivers bytes →
          FailsWith (fun error : ReconcileError => error.stage = .pointerExtraction)
            ((reconcile K policy).run (api applied) w).1 ∧
          (reconcile K policy).calls (api applied) w =
            [.httpGet validated.sourceAddress.requestUrl]) := by
  refine ⟨⟨fun h regex hcompile => ?_, fun h => ⟨fun hcompiled => ?_, fun hpointer hvalid _ => ?_⟩⟩,
    fun hgroups policy validated hpointer hvalid hlive applied w bytes hbody => ?_⟩
  · exact (h.accepted (validatePointerRegex_ok_iff.mpr ⟨regex, hcompile, rfl⟩)).2
  · obtain ⟨regex, hcompile, -⟩ := validatePointerRegex_ok_iff.mp hcompiled
    exact ⟨⟨regex, hcompile⟩, h regex hcompile⟩
  · obtain ⟨regex, hcompile, -⟩ := exists_pointerRegex hpointer hvalid
    exact h regex hcompile
  · obtain ⟨regex, hcompile, hregex⟩ := exists_pointerRegex hpointer hvalid
    obtain ⟨error, herror, hstage⟩ :=
      resolvePointer_groupless hK hcompile hgroups (K.decodeText bytes)
    rw [run_reconcile_pointer hlive hvalid hregex hbody,
      calls_reconcile_pointer hlive hvalid hregex hbody, herror]
    exact ⟨⟨_, rfl, hstage⟩, rfl⟩

namespace Sample

/-- The crates as far as literal patterns go, which match themselves and declare no group. -/
abbrev literal : Crates :=
  crates.capturing fun pattern body =>
    if pattern.toList <:+: body.toList then some fun i => if i = 0 then some pattern else none
    else none

theorem countsGroups : literal.CountsGroups fun _ => 0 where
  undeclared {pattern regex body captures i} _ hcaptures hi := by
    dsimp only at hcaptures
    split_ifs at hcaptures
    cases hcaptures
    exact if_neg (by omega)

def pointedLiterally : CIDRPolicy :=
  { policy with spec := { policy.spec with
    source := { address, pointer := some ⟨"endpoint"⟩, jmesPath := "prefixes" } } }

def endpointText : String := "endpoint: https://lists.example/prefixes.json"

def endpointBody : List UInt8 := endpointText.toList.map fun c => UInt8.ofNat c.toNat

/-- Every request is answered with a body that the pattern matches. -/
def worldWithEndpoint : World Calls Choice Cluster where
  state := cluster pointedLiterally none
  choices _ := { choice 0 with http := .response 200 (.ok endpointBody) }
  log := []

end Sample

open Sample in
theorem yieldsAddress_iff_literal :
    (literal.captures "endpoint" (literal.decodeText endpointBody)).isSome ∧
      FailsWith (fun error : ReconcileError => error.stage = .pointerExtraction)
        ((reconcile literal pointedLiterally).run (api replace) worldWithEndpoint).1 ∧
      ((reconcile literal pointedLiterally).run (api replace) worldWithEndpoint).1 =
        .error (.fetch .pointerExtractionEmptyCapture) := by
  have hbytes : (worldWithEndpoint.choices 0).http.Delivers endpointBody := ⟨200, rfl, by decide⟩
  obtain ⟨-, hfails⟩ := yieldsAddress_iff countsGroups "endpoint"
  refine ⟨by decide, ?_, by decide⟩
  exact (hfails rfl pointedLiterally _ rfl rfl rfl replace _ _ hbytes).1

open Sample in
/-- A pattern without a group is accepted. -/
theorem groupless_regex_accepted :
    (∃ validated, validatePolicy literal pointedLiterally = .ok validated) ∧
      ¬ YieldsAddress literal (fun _ => 0) "endpoint" := by
  refine ⟨⟨_, rfl⟩, fun h => ?_⟩
  have hcompiled : validatePointerRegex literal (some "endpoint") = .ok (some "endpoint") := rfl
  exact absurd (h.accepted hcompiled).2 (by decide)

end Ipmaze
