import Ipmaze.Addresses.Credentials

/-! What the pointer step makes of the body it retrieved. -/
namespace Ipmaze
open Effects Checked

variable {K : Crates} {regex : K.Regex} {body group : String} {captures : ℕ → Option String}

/-- A group that is not blank is read as an address is. -/
theorem resolvePointer_eq (hcaptures : K.captures regex body = some captures)
    (hgroup : captures 1 = some group) (hblank : Text.trim group ≠ "") :
    resolvePointer K regex body =
      (normalizeSourceAddress K (Text.trim group)).mapError .pointerResolvedAddress := by
  simp [resolvePointer, hcaptures, hgroup, Option.filter, hblank]

/-- Trimming a text once more before it is read changes nothing. -/
theorem normalizeSourceAddress_trim (text : String) :
    normalizeSourceAddress K (Text.trim text) = normalizeSourceAddress K text := by
  simp only [normalizeSourceAddress, Text.trim_trim]

theorem targetOf_eq {base : NormalizedRemoteAddress} {answer : HttpAnswer} {bytes : List UInt8}
    (hanswer : answer.Delivers bytes) :
    targetOf K base regex answer = (resolvePointer K regex (K.decodeText bytes)).map fun final =>
      { baseAddress := base, finalAddress := final, pointerUsed := true } := by
  rw [targetOf, HttpAnswer.successBody_ok_iff.mpr hanswer]
  change resolvePointer K regex (K.decodeText bytes) >>= _ = _
  cases resolvePointer K regex (K.decodeText bytes) <;> rfl

theorem run_resolveFinalSource {base : NormalizedRemoteAddress} {applied : Apply}
    {w : World Calls Choice Cluster} {bytes : List UInt8}
    (hanswer : (w.choices 0).http.Delivers bytes) :
    (resolveFinalSource K base (some regex)).run (api applied) w =
      ((resolvePointer K regex (K.decodeText bytes)).map fun final =>
        { baseAddress := base, finalAddress := final, pointerUsed := true },
        w.after (api applied) (.httpGet base.requestUrl)) := by
  have hget : w.answer (api applied) (.httpGet base.requestUrl) = (w.choices 0).http := rfl
  rw [resolveFinalSource_eq, Program.run_call, Program.run_ofExcept, hget, targetOf_eq hanswer]

end Ipmaze
