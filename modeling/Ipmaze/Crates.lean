import Ipmaze.Calls

/-! The third-party crates whose code is not part of the repository. -/
namespace Ipmaze

/-- What the controller uses of `url`, `regex`, `jmespath`, `serde_json`, `cron`, `ipnet`,
`chrono` and `reqwest`. Errors appear as the text they print. -/
structure Crates where
  Regex : Type
  Expression : Type
  Value : Type
  Variable : Type
  Schedule : Type
  parseUrl : String → Except String Url
  compileRegex : String → Except String Regex
  /-- The capture groups of the first match; group 0 is the match itself. -/
  captures : Regex → String → Option (ℕ → Option String)
  compileExpression : String → Except String Expression
  search : Expression → Variable → Except String Variable
  variableFromJson : String → Except String Variable
  asArray : Variable → Option (List Variable)
  asString : Variable → Option String
  parseJson : List UInt8 → Except String Value
  jsonText : Value → Except String String
  parseSchedule : String → Except String Schedule
  /-- The first occurrence after an instant. -/
  nextAfter : Schedule → Instant → Option Instant
  parseNet : String → Option IpNet
  printNet : IpNet → String
  rfc3339 : Instant → String
  decodeText : List UInt8 → String

end Ipmaze
