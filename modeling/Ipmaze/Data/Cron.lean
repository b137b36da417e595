import Ipmaze.Data.Calendar
import Ipmaze.Data.Text

/-! Cron expressions: their text, what a field of them lists in a given dialect, and the moments
that the standard reading of five fields denotes. -/
namespace Cron
open Calendar

inductive Value
  | number (n : ℕ)
  | name (text : List Char)
  deriving DecidableEq, Repr

def Value.isName : Value → Bool
  | number _ => false
  | name _ => true

/-- An item of a comma-separated field; steps go with an asterisk or a range. -/
inductive Item
  | all (step : Option ℕ)
  | point (value : Value)
  | range (low high : Value) (step : Option ℕ)
  deriving DecidableEq, Repr

namespace Item

def step : Item → ℕ
  | all step | range _ _ step => step.getD 1
  | point _ => 1

def values : Item → List Value
  | all _ => []
  | point value => [value]
  | range low high _ => [low, high]

/-- The item is a range from a name to a number, or from a number to a name. -/
def mixes : Item → Bool
  | range low high _ => low.isName != high.isName
  | _ => false

end Item

abbrev Field := List Item

structure Expr where
  minute : Field
  hour : Field
  dayOfMonth : Field
  month : Field
  dayOfWeek : Field
  deriving DecidableEq, Repr

def Expr.fields (e : Expr) : List Field :=
  [e.minute, e.hour, e.dayOfMonth, e.month, e.dayOfWeek]

section Reading

def isBlank (c : Char) : Bool := c == ' ' || c == '\t'

def readNumber (cs : List Char) : Option ℕ :=
  if cs ≠ [] ∧ cs.all Char.isDigit then some (cs.foldl (fun n c => 10*n + (c.toNat - 48)) 0)
  else none

def readValue (cs : List Char) : Option Value :=
  if cs ≠ [] ∧ cs.all Char.isAlpha then some (.name (cs.map Char.toLower))
  else (readNumber cs).map .number

def readStep : List (List Char) → Option (Option ℕ)
  | [] => some none
  | [cs] => (readNumber cs).map some
  | _ => none

def readBase (base : List Char) (step : Option ℕ) : Option Item :=
  if base = ['*'] then some (.all step)
  else match base.splitOn '-', step with
    | [value], none => (readValue value).map .point
    | [low, high], step => do
      let low ← readValue low
      let high ← readValue high
      return .range low high step
    | _, _ => none

def readItem (cs : List Char) : Option Item :=
  match cs.splitOn '/' with
  | [] => none
  | base :: steps => readStep steps >>= readBase base

def readField (cs : List Char) : Option Field := (cs.splitOn ',').mapM readItem

/-- The fields of a text, which blanks separate. -/
def fieldTexts (cs : List Char) : List (List Char) := (cs.splitOnP isBlank).filter (· ≠ [])

def readFields (text : String) : Option (List Field) := (fieldTexts text.toList).mapM readField

def readExpr (text : String) : Option Expr :=
  match readFields text with
  | some [minute, hour, dayOfMonth, month, dayOfWeek] =>
    some ⟨minute, hour, dayOfMonth, month, dayOfWeek⟩
  | _ => none

example : readExpr "0,30 */2 1-15/7 * Mon-Fri" = some ⟨[.point (.number 0), .point (.number 30)],
    [.all (some 2)], [.range (.number 1) (.number 15) (some 7)], [.all none],
    [.range (.name "mon".toList) (.name "fri".toList) none]⟩ := by decide

end Reading

section Dialects

/-- The values from `low` to `high`, in steps. -/
structure Span where
  low : ℕ
  high : ℕ
  step : ℕ
  low_le : low ≤ high
  step_pos : 0 < step

def Span.Has (s : Span) (v : ℕ) : Prop := s.low ≤ v ∧ v ≤ s.high ∧ (v - s.low) % s.step = 0

instance (s : Span) (v : ℕ) : Decidable (s.Has v) :=
  inferInstanceAs (Decidable (s.low ≤ v ∧ v ≤ s.high ∧ (v - s.low) % s.step = 0))

theorem Span.has_low (s : Span) : s.Has s.low := by simp [Has, s.low_le]

/-- What a field ranges over; its names stand for the values from the first one on. -/
structure Unit where
  first : ℕ
  last : ℕ
  names : List (List Char)
  first_le : first ≤ last
  last_pos : 0 < last
  names_fit : first + names.length ≤ last + 1

namespace Unit
variable (u : Unit)

def value : Value → Option ℕ
  | .number n => if u.first ≤ n ∧ n ≤ u.last then some n else none
  | .name text => (u.names.idxOf? text).map (u.first + ·)

/-- A strict reader takes no step beyond the last value. -/
def spanOf (strict : Bool) (low high : ℕ) (step : Option ℕ) : Option Span :=
  if h : low ≤ high ∧ 0 < step.getD 1 then
    if strict && u.last < step.getD 1 then none
    else some ⟨low, high, step.getD 1, h.1, h.2⟩
  else none

/-- Nor does it take a range from a name to a number. -/
def span (strict : Bool) : Item → Option Span
  | .all step => u.spanOf strict u.first u.last step
  | .point v => u.value v >>= fun n => u.spanOf strict n n none
  | .range low high step =>
    if strict && (Item.range low high step).mixes then none
    else u.value low >>= fun low => u.value high >>= fun high => u.spanOf strict low high step

def Accepts (strict : Bool) (field : Field) : Prop := ∀ item ∈ field, (u.span strict item).isSome

/-- The names of the field are names of the unit. -/
def Knows (field : Field) : Prop := ∀ item ∈ field, ∀ text, .name text ∈ item.values → text ∈ u.names

def Lists (strict : Bool) (field : Field) (v : ℕ) : Prop :=
  ∃ item ∈ field, ∃ s ∈ u.span strict item, s.Has v

instance (strict : Bool) (field : Field) : Decidable (u.Accepts strict field) :=
  inferInstanceAs (Decidable (∀ item ∈ field, (u.span strict item).isSome))

instance (strict : Bool) (field : Field) (v : ℕ) : Decidable (u.Lists strict field v) :=
  inferInstanceAs (Decidable (∃ item ∈ field, ∃ s ∈ u.span strict item, s.Has v))

/-- What a strict reader asks of a field that any reader understands. -/
def Takes (field : Field) : Prop := ∀ item ∈ field,
  item.step ≤ u.last ∧ item.mixes = false ∧ ∀ n, .number n ∈ item.values → u.first ≤ n

end Unit

section Units
variable {u u' : Unit} {strict : Bool} {item : Item} {field : Field}

theorem spanOf_eq_some {low high : ℕ} {step : Option ℕ} {s : Span} :
    u.spanOf strict low high step = some s ↔
      s.low = low ∧ s.high = high ∧ s.step = step.getD 1 ∧ (strict = true → s.step ≤ u.last) := by
  unfold Unit.spanOf
  constructor
  · intro h
    split_ifs at h with hspan hstep
    cases h
    exact ⟨rfl, rfl, rfl, fun hstrict => by simpa [hstrict] using hstep⟩
  · obtain ⟨low', high', step', hle, hpos⟩ := s
    rintro ⟨rfl, rfl, rfl, hstep⟩
    rw [dif_pos ⟨hle, hpos⟩, if_neg]
    simpa using hstep

theorem isSome_spanOf {low high : ℕ} {step : Option ℕ} : (u.spanOf strict low high step).isSome ↔
    low ≤ high ∧ 0 < step.getD 1 ∧ (strict = true → step.getD 1 ≤ u.last) := by
  rw [Option.isSome_iff_exists]
  simp only [spanOf_eq_some]
  constructor
  · rintro ⟨s, rfl, rfl, hstep, hstrict⟩
    exact ⟨s.low_le, hstep ▸ s.step_pos, hstep ▸ hstrict⟩
  · rintro ⟨hle, hpos, hstrict⟩
    exact ⟨⟨low, high, step.getD 1, hle, hpos⟩, rfl, rfl, rfl, hstrict⟩

theorem value_le {v : Value} {n : ℕ} (h : u.value v = some n) : u.first ≤ n ∧ n ≤ u.last := by
  cases v with
  | number m =>
    simp only [Unit.value, Option.ite_none_right_eq_some, Option.some.injEq] at h
    omega
  | name text =>
    obtain ⟨i, hi, rfl⟩ := Option.map_eq_some_iff.mp h
    have hlt := (List.idxOf?_eq_some_iff.mp hi).1
    have hfit := u.names_fit
    omega

/-- The first value of an item is one of its unit. -/
theorem low_le_of_span {s : Span} (h : u.span strict item = some s) :
    u.first ≤ s.low ∧ s.low ≤ u.last := by
  cases item with
  | all step =>
    rw [(spanOf_eq_some.mp h).1]
    exact ⟨le_rfl, u.first_le⟩
  | point v =>
    obtain ⟨n, hn, h⟩ := Option.bind_eq_some_iff.mp h
    rw [(spanOf_eq_some.mp h).1]
    exact value_le hn
  | range low high step =>
    simp only [Unit.span] at h
    split_ifs at h
    obtain ⟨n, hn, h⟩ := Option.bind_eq_some_iff.mp h
    obtain ⟨m, -, h⟩ := Option.bind_eq_some_iff.mp h
    rw [(spanOf_eq_some.mp h).1]
    exact value_le hn

theorem exists_lists (hne : field ≠ []) (h : u.Accepts strict field) :
    ∃ v, u.Lists strict field v ∧ u.first ≤ v ∧ v ≤ u.last := by
  cases field with
  | nil => exact absurd rfl hne
  | cons item field =>
    obtain ⟨s, hs⟩ := Option.isSome_iff_exists.mp (h item (by simp))
    exact ⟨s.low, ⟨item, by simp, s, hs, s.has_low⟩, low_le_of_span hs⟩

theorem knows_of_accepts (h : u.Accepts strict field) : u.Knows field := by
  have hvalue {text : List Char} {n : ℕ} (h : u.value (.name text) = some n) : text ∈ u.names := by
    obtain ⟨i, hi, -⟩ := Option.map_eq_some_iff.mp h
    obtain ⟨hlt, heq, -⟩ := List.idxOf?_eq_some_iff.mp hi
    exact heq ▸ List.getElem_mem hlt
  intro item hitem text htext
  obtain ⟨s, hs⟩ := Option.isSome_iff_exists.mp (h item hitem)
  cases item with
  | all step => simp [Item.values] at htext
  | point v =>
    obtain ⟨n, hn, -⟩ := Option.bind_eq_some_iff.mp hs
    rw [Item.values, List.mem_singleton] at htext
    exact hvalue (htext ▸ hn)
  | range low high step =>
    simp only [Unit.span] at hs
    split_ifs at hs
    obtain ⟨n, hn, hs⟩ := Option.bind_eq_some_iff.mp hs
    obtain ⟨m, hm, -⟩ := Option.bind_eq_some_iff.mp hs
    simp only [Item.values, List.mem_cons, List.not_mem_nil, or_false] at htext
    cases htext with
    | inl htext => exact hvalue (htext ▸ hn)
    | inr htext => exact hvalue (htext ▸ hm)

/-- A strict reader understands what it takes as any other does. -/
theorem span_of_strict {s : Span} (h : u.span true item = some s) : u.span false item = some s := by
  have hspanOf {low high : ℕ} {step : Option ℕ} (h : u.spanOf true low high step = some s) :
      u.spanOf false low high step = some s := by
    obtain ⟨hlow, hhigh, hstep, -⟩ := spanOf_eq_some.mp h
    exact spanOf_eq_some.mpr ⟨hlow, hhigh, hstep, by simp⟩
  cases item with
  | all step => exact hspanOf h
  | point v =>
    obtain ⟨n, hn, h⟩ := Option.bind_eq_some_iff.mp h
    exact Option.bind_eq_some_iff.mpr ⟨n, hn, hspanOf h⟩
  | range low high step =>
    simp only [Unit.span] at h ⊢
    split_ifs at h
    obtain ⟨n, hn, h⟩ := Option.bind_eq_some_iff.mp h
    obtain ⟨m, hm, h⟩ := Option.bind_eq_some_iff.mp h
    simp [hn, hm, hspanOf h]

theorem lists_strict_iff (h : u.Accepts true field) {v : ℕ} :
    u.Lists true field v ↔ u.Lists false field v := by
  constructor
  · rintro ⟨item, hitem, s, hs, hv⟩
    exact ⟨item, hitem, s, span_of_strict hs, hv⟩
  · rintro ⟨item, hitem, s, hs, hv⟩
    obtain ⟨s', hs'⟩ := Option.isSome_iff_exists.mp (h item hitem)
    cases (span_of_strict hs').symm.trans hs
    exact ⟨item, hitem, s, hs', hv⟩

/-- Names stand for the same values, counted from the first one on. -/
theorem value_name {text : List Char} {n : ℕ} (hnames : u'.names = u.names)
    (h : u.value (.name text) = some n) : u'.value (.name text) = some (n - u.first + u'.first) := by
  obtain ⟨i, hi, rfl⟩ := Option.map_eq_some_iff.mp h
  rw [Unit.value, hnames, hi, Option.map_some, Nat.add_sub_cancel_left, Nat.add_comm]

theorem value_number {m n : ℕ} (hlast : u'.last = u.last) (h : u.value (.number m) = some n) :
    m = n ∧ (u'.value (.number m) = if u'.first ≤ m then some m else none) := by
  simp only [Unit.value, Option.ite_none_right_eq_some, Option.some.injEq] at h
  obtain ⟨⟨-, hle⟩, rfl⟩ := h
  simp [Unit.value, hlast, hle]

theorem isSome_point_strict {v : Value} (hlast : u'.last = u.last) (hnames : u'.names = u.names)
    (h : (u.span false (.point v)).isSome) :
    (u'.span true (.point v)).isSome ↔ 1 ≤ u'.last ∧ ∀ n, .number n = v → u'.first ≤ n := by
  obtain ⟨s, hs⟩ := Option.isSome_iff_exists.mp h
  obtain ⟨n, hn, -⟩ := Option.bind_eq_some_iff.mp hs
  cases v with
  | number m =>
    obtain ⟨rfl, hvalue⟩ := value_number hlast hn
    simp only [Unit.span, hvalue]
    split_ifs with hfirst
    · simp [isSome_spanOf, hfirst]
    · simp [hfirst]
  | name text =>
    have hvalue := value_name hnames hn
    simp [Unit.span, hvalue, isSome_spanOf]

theorem isSome_range_strict {low high : Value} {step : Option ℕ} (hlast : u'.last = u.last)
    (hnames : u'.names = u.names) (h : (u.span false (.range low high step)).isSome) :
    (u'.span true (.range low high step)).isSome ↔ step.getD 1 ≤ u'.last ∧
      low.isName = high.isName ∧ ∀ n, .number n = low ∨ .number n = high → u'.first ≤ n := by
  obtain ⟨s, hs⟩ := Option.isSome_iff_exists.mp h
  simp only [Unit.span, Bool.false_and, Bool.false_eq_true, if_false] at hs
  obtain ⟨n, hn, hs⟩ := Option.bind_eq_some_iff.mp hs
  obtain ⟨m, hm, hs⟩ := Option.bind_eq_some_iff.mp hs
  have hspan : n ≤ m ∧ 0 < step.getD 1 := by
    obtain ⟨hlow, hhigh, hstep, -⟩ := spanOf_eq_some.mp hs
    exact ⟨hlow ▸ hhigh ▸ s.low_le, hstep ▸ s.step_pos⟩
  cases low with
  | number low =>
    cases high with
    | number high =>
      obtain ⟨rfl, hlow⟩ := value_number hlast hn
      obtain ⟨rfl, hhigh⟩ := value_number hlast hm
      simp only [Unit.span, hlow, hhigh]
      by_cases hfirst : u'.first ≤ low <;> by_cases hfirst' : u'.first ≤ high
      all_goals simp [hfirst, hfirst', isSome_spanOf, hspan, Item.mixes, Value.isName]
    | name text => simp [Unit.span, Item.mixes, Value.isName]
  | name text =>
    cases high with
    | number high => simp [Unit.span, Item.mixes, Value.isName]
    | name text' =>
      have hlow := value_name hnames hn
      have hhigh := value_name hnames hm
      simp [Unit.span, hlow, hhigh, isSome_spanOf, Item.mixes, Value.isName]
      omega

/-- A strict reader that starts at another number misses that number, long steps and mixed
ranges. -/
theorem isSome_span_strict (hlast : u'.last = u.last) (hnames : u'.names = u.names)
    (h : (u.span false item).isSome) : (u'.span true item).isSome ↔
      item.step ≤ u'.last ∧ item.mixes = false ∧ ∀ n, .number n ∈ item.values → u'.first ≤ n := by
  cases item with
  | all step =>
    have hspan := isSome_spanOf.mp h
    simp [Unit.span, isSome_spanOf, Item.step, Item.mixes, Item.values, u'.first_le, hspan.2.1]
  | point v =>
    rw [isSome_point_strict hlast hnames h]
    simp [Item.step, Item.mixes, Item.values]
  | range low high step =>
    rw [isSome_range_strict hlast hnames h]
    simp [Item.step, Item.mixes, Item.values]

theorem accepts_strict_iff (hlast : u'.last = u.last) (hnames : u'.names = u.names)
    (h : u.Accepts false field) : u'.Accepts true field ↔ u'.Takes field :=
  forall₂_congr fun item hitem => isSome_span_strict hlast hnames (h item hitem)

end Units

def monthNames : List (List Char) :=
  ["jan", "feb", "mar", "apr", "may", "jun", "jul", "aug", "sep", "oct", "nov", "dec"].map
    String.toList

def dayNames : List (List Char) :=
  ["sun", "mon", "tue", "wed", "thu", "fri", "sat"].map String.toList

def seconds : Unit := ⟨0, 59, [], by decide, by decide, by decide⟩
def minutes : Unit := ⟨0, 59, [], by decide, by decide, by decide⟩
def hours : Unit := ⟨0, 23, [], by decide, by decide, by decide⟩
def daysOfMonth : Unit := ⟨1, 31, [], by decide, by decide, by decide⟩
def months : Unit := ⟨1, 12, monthNames, by decide, by decide, by decide⟩

/-- The weekdays up to 7, with a number for Sunday to begin with. -/
def daysOfWeek (sunday : Fin 2) : Unit :=
  ⟨sunday, 7, dayNames, by omega, by decide, by revert sunday; decide⟩

/-- All names are abbreviations of months and weekdays, in their places. -/
structure Expr.Abbreviates (e : Expr) : Prop where
  minute : minutes.Knows e.minute
  hour : hours.Knows e.hour
  dayOfMonth : daysOfMonth.Knows e.dayOfMonth
  month : months.Knows e.month
  dayOfWeek : (daysOfWeek 0).Knows e.dayOfWeek

/-- How weekdays are numbered, and whether the reader is strict. -/
structure Dialect where
  strict : Bool
  sunday : Fin 2

/-- Sunday is 0 and 7. -/
def standard : Dialect := ⟨false, 0⟩

/-- Sunday is 1, and Saturday is 7. -/
def sixField : Dialect := ⟨true, 1⟩

namespace Dialect
variable (d : Dialect)

def weekdays : Unit := daysOfWeek d.sunday

structure Accepts (e : Expr) : Prop where
  minute : minutes.Accepts d.strict e.minute
  hour : hours.Accepts d.strict e.hour
  dayOfMonth : daysOfMonth.Accepts d.strict e.dayOfMonth
  month : months.Accepts d.strict e.month
  dayOfWeek : d.weekdays.Accepts d.strict e.dayOfWeek

theorem Accepts.abbreviates {d : Dialect} {e : Expr} (h : d.Accepts e) : e.Abbreviates := by
  have hweekday : d.weekdays.Knows e.dayOfWeek := knows_of_accepts h.dayOfWeek
  exact ⟨knows_of_accepts h.minute, knows_of_accepts h.hour, knows_of_accepts h.dayOfMonth,
    knows_of_accepts h.month, hweekday⟩

def OnClock (e : Expr) (hour minute : ℕ) : Prop :=
  minutes.Lists d.strict e.minute minute ∧ hours.Lists d.strict e.hour hour

def InMonth (e : Expr) (month : ℕ) : Prop := months.Lists d.strict e.month month

def OnDay (e : Expr) (day : ℕ) : Prop := daysOfMonth.Lists d.strict e.dayOfMonth day

/-- A value stands for the weekday that lies as far behind Sunday as the value behind the number
of Sunday. -/
def OnWeekday (e : Expr) (w : ℕ) : Prop :=
  ∃ v < 8, d.weekdays.Lists d.strict e.dayOfWeek v ∧ v % 7 = (w + d.sunday) % 7

instance (e : Expr) (hour minute : ℕ) : Decidable (d.OnClock e hour minute) :=
  inferInstanceAs (Decidable (_ ∧ _))

instance (e : Expr) (month : ℕ) : Decidable (d.InMonth e month) :=
  inferInstanceAs (Decidable (months.Lists d.strict e.month month))

instance (e : Expr) (day : ℕ) : Decidable (d.OnDay e day) :=
  inferInstanceAs (Decidable (daysOfMonth.Lists d.strict e.dayOfMonth day))

instance (e : Expr) (w : ℕ) : Decidable (d.OnWeekday e w) :=
  inferInstanceAs (Decidable (∃ v < 8,
    d.weekdays.Lists d.strict e.dayOfWeek v ∧ v % 7 = (w + d.sunday) % 7))

theorem accepts_iff {e : Expr} : d.Accepts e ↔
    minutes.Accepts d.strict e.minute ∧ hours.Accepts d.strict e.hour ∧
      daysOfMonth.Accepts d.strict e.dayOfMonth ∧ months.Accepts d.strict e.month ∧
      d.weekdays.Accepts d.strict e.dayOfWeek :=
  ⟨fun h => ⟨h.minute, h.hour, h.dayOfMonth, h.month, h.dayOfWeek⟩,
    fun ⟨hminute, hhour, hday, hmonth, hweekday⟩ => ⟨hminute, hhour, hday, hmonth, hweekday⟩⟩

instance (e : Expr) : Decidable (d.Accepts e) := decidable_of_iff' _ d.accepts_iff

end Dialect
end Dialects

section Meaning

/-- Which day fields are restricted: not an asterisk alone, and every one without asterisks. -/
structure StarRule where
  restricted : Field → Bool
  star : restricted [.all none] = false
  noStar : ∀ field, (∀ item ∈ field, ∀ step, item ≠ .all step) → restricted field = true

/-- Everything but a single asterisk is a restriction. -/
def StarRule.whole : StarRule where
  restricted field := field != [.all none]
  star := by decide
  noStar field h := by
    rw [bne_iff_ne]
    rintro rfl
    exact h (.all none) (by simp) none rfl

/-- Everything that does not begin with an asterisk is a restriction. -/
def StarRule.leading : StarRule where
  restricted
    | .all _ :: _ => false
    | _ => true
  star := rfl
  noStar field h := by
    split
    next step rest => exact absurd rfl (h (.all step) (by simp) step)
    next => rfl

/-- The days of a month that is named: if both day fields are restricted, either will do. -/
def StandardDay (rule : StarRule) (e : Expr) (day w : ℕ) : Prop :=
  if rule.restricted e.dayOfMonth && rule.restricted e.dayOfWeek then
    standard.OnDay e day ∨ standard.OnWeekday e w
  else standard.OnDay e day ∧ standard.OnWeekday e w

/-- The moments that a standard expression denotes. -/
def Denotes (rule : StarRule) (e : Expr) (t : ℤ) : Prop :=
  t % 60000000000 = 0 ∧ standard.OnClock e (hourOf t) (minuteOf t) ∧
    standard.InMonth e (dateOf (dayOf t)).month ∧
    StandardDay rule e (dateOf (dayOf t)).day (weekday (dayOf t))

/-- The moments that six fields match: both day fields have to. -/
def Matches (second : Field) (e : Expr) (t : ℤ) : Prop :=
  t % 1000000000 = 0 ∧ seconds.Lists true second (secondOf t) ∧
    sixField.OnClock e (hourOf t) (minuteOf t) ∧ sixField.InMonth e (dateOf (dayOf t)).month ∧
    sixField.OnDay e (dateOf (dayOf t)).day ∧ sixField.OnWeekday e (weekday (dayOf t))

instance (rule : StarRule) (e : Expr) (day w : ℕ) : Decidable (StandardDay rule e day w) :=
  inferInstanceAs (Decidable (ite _ _ _))

instance (rule : StarRule) (e : Expr) (t : ℤ) : Decidable (Denotes rule e t) :=
  inferInstanceAs (Decidable (_ ∧ _))

instance (second : Field) (e : Expr) (t : ℤ) : Decidable (Matches second e t) :=
  inferInstanceAs (Decidable (_ ∧ _))

/-- What the six-field dialect asks of a standard expression: no long steps, no range from a name
to a number, and no weekday 0. -/
structure Translatable (e : Expr) : Prop where
  minute : minutes.Takes e.minute
  hour : hours.Takes e.hour
  dayOfMonth : daysOfMonth.Takes e.dayOfMonth
  month : months.Takes e.month
  dayOfWeek : sixField.weekdays.Takes e.dayOfWeek

theorem sixField_accepts_iff {e : Expr} (h : standard.Accepts e) :
    sixField.Accepts e ↔ Translatable e := by
  have hminute : minutes.Accepts true e.minute ↔ minutes.Takes e.minute :=
    accepts_strict_iff rfl rfl h.minute
  have hhour : hours.Accepts true e.hour ↔ hours.Takes e.hour := accepts_strict_iff rfl rfl h.hour
  have hday : daysOfMonth.Accepts true e.dayOfMonth ↔ daysOfMonth.Takes e.dayOfMonth :=
    accepts_strict_iff rfl rfl h.dayOfMonth
  have hmonth : months.Accepts true e.month ↔ months.Takes e.month :=
    accepts_strict_iff rfl rfl h.month
  have hlast : sixField.weekdays.last = standard.weekdays.last := rfl
  have hweekday : sixField.weekdays.Accepts true e.dayOfWeek ↔
      sixField.weekdays.Takes e.dayOfWeek := accepts_strict_iff hlast rfl h.dayOfWeek
  constructor
  · intro h'
    exact ⟨hminute.mp h'.minute, hhour.mp h'.hour, hday.mp h'.dayOfMonth, hmonth.mp h'.month,
      hweekday.mp h'.dayOfWeek⟩
  · intro h'
    exact ⟨hminute.mpr h'.minute, hhour.mpr h'.hour, hday.mpr h'.dayOfMonth, hmonth.mpr h'.month,
      hweekday.mpr h'.dayOfWeek⟩

/-- Where the two readings of the day fields agree on the dates of the named months. -/
def SameDays (rule : StarRule) (e : Expr) : Prop :=
  if rule.restricted e.dayOfMonth && rule.restricted e.dayOfWeek then
    (∀ month day, standard.InMonth e month → 1 ≤ day → day ≤ monthLength true month →
      standard.OnDay e day) ∧ ∀ w < 7, sixField.OnWeekday e w
  else
    (∀ w < 7, sixField.OnWeekday e w ↔ standard.OnWeekday e w) ∨
      ∀ month day, standard.InMonth e month → 1 ≤ day → day ≤ monthLength true month →
        ¬ standard.OnDay e day

section Agreement
variable {rule : StarRule} {e : Expr}

/-- A weekday field names some weekday. -/
theorem exists_onWeekday (hne : e.dayOfWeek ≠ []) (h : standard.Accepts e) :
    ∃ w < 7, standard.OnWeekday e w := by
  obtain ⟨v, hv, -, hle⟩ := exists_lists hne h.dayOfWeek
  have hlast : v ≤ 7 := hle
  exact ⟨v % 7, Nat.mod_lt _ (by omega), v, by omega, hv, by simp [standard]⟩

/-- A month field names some month, which has a first day. -/
theorem exists_inMonth (hne : e.month ≠ []) (h : standard.Accepts e) :
    ∃ month, standard.InMonth e month ∧ 1 ≤ monthLength true month := by
  obtain ⟨month, hmonth, hfirst, hlast⟩ := exists_lists hne h.month
  have hbounds : 1 ≤ month ∧ month ≤ 12 := ⟨hfirst, hlast⟩
  have hall : ∀ month ≤ 12, 1 ≤ month → 1 ≤ monthLength true month := by decide
  exact ⟨month, hmonth, hall month hbounds.2 hbounds.1⟩

/-- On the dates of the named months both readings name the same days exactly if they do so
field by field. -/
theorem sameDays_iff (hmonths : e.month ≠ []) (hweekdays : e.dayOfWeek ≠ [])
    (h : standard.Accepts e) : SameDays rule e ↔
      ∀ month day w, standard.InMonth e month → 1 ≤ day → day ≤ monthLength true month → w < 7 →
        ((standard.OnDay e day ∧ sixField.OnWeekday e w) ↔ StandardDay rule e day w) := by
  unfold SameDays StandardDay
  split
  next =>
    constructor
    · rintro ⟨hdays, hweekdays⟩ month day w hmonth hday hlength hw
      have honDay := hdays month day hmonth hday hlength
      exact iff_of_true ⟨honDay, hweekdays w hw⟩ (Or.inl honDay)
    · intro hsame
      obtain ⟨w, hw, hnamed⟩ := exists_onWeekday hweekdays h
      have hdays : ∀ month day, standard.InMonth e month → 1 ≤ day →
          day ≤ monthLength true month → standard.OnDay e day := by
        intro month day hmonth hday hlength
        exact ((hsame month day w hmonth hday hlength hw).mpr (Or.inr hnamed)).1
      refine ⟨hdays, fun w' hw' => ?_⟩
      obtain ⟨month, hmonth, hlength⟩ := exists_inMonth hmonths h
      have hfirst := hdays month 1 hmonth le_rfl hlength
      exact ((hsame month 1 w' hmonth le_rfl hlength hw').mpr (Or.inl hfirst)).2
  next =>
    constructor
    · rintro (hweekdays | hnone) month day w hmonth hday hlength hw
      · rw [hweekdays w hw]
      · have hnot := hnone month day hmonth hday hlength
        exact iff_of_false (fun hc => hnot hc.1) fun hc => hnot hc.1
    · intro hsame
      by_cases hnone : ∀ month day, standard.InMonth e month → 1 ≤ day →
          day ≤ monthLength true month → ¬ standard.OnDay e day
      · exact Or.inr hnone
      · push Not at hnone
        obtain ⟨month, day, hmonth, hday, hlength, honDay⟩ := hnone
        refine Or.inl fun w hw => ?_
        simpa [honDay] using hsame month day w hmonth hday hlength hw

theorem lists_zero (s : ℕ) : seconds.Lists true [.point (.number 0)] s ↔ s = 0 := by
  have hspan : seconds.span true (.point (.number 0)) = some ⟨0, 0, 1, le_rfl, one_pos⟩ := rfl
  simp only [Unit.Lists, List.mem_singleton, exists_eq_left, hspan, Option.mem_some_iff,
    exists_eq_left', Span.Has]
  omega

/-- With second 0 in front only the day fields can make a difference. -/
theorem matches_zero_iff (h : sixField.Accepts e) (t : ℤ) : Matches [.point (.number 0)] e t ↔
    t % 60000000000 = 0 ∧ standard.OnClock e (hourOf t) (minuteOf t) ∧
      standard.InMonth e (dateOf (dayOf t)).month ∧
      (standard.OnDay e (dateOf (dayOf t)).day ∧ sixField.OnWeekday e (weekday (dayOf t))) := by
  have hclock : sixField.OnClock e (hourOf t) (minuteOf t) ↔
      standard.OnClock e (hourOf t) (minuteOf t) :=
    and_congr (lists_strict_iff h.minute) (lists_strict_iff h.hour)
  have hmonth : sixField.InMonth e (dateOf (dayOf t)).month ↔
      standard.InMonth e (dateOf (dayOf t)).month := lists_strict_iff h.month
  have hday : sixField.OnDay e (dateOf (dayOf t)).day ↔
      standard.OnDay e (dateOf (dayOf t)).day := lists_strict_iff h.dayOfMonth
  rw [Matches, lists_zero, hclock, hmonth, hday, wholeMinute_iff, and_assoc]

theorem monthLength_le (leap : Bool) (month : ℕ) :
    monthLength leap month ≤ monthLength true month := by
  cases leap with
  | true => exact le_rfl
  | false =>
    by_cases h : month = 2
    · rw [h]
      decide
    · unfold monthLength
      split <;> first | exact le_rfl | omega

/-- The six fields match what five denote exactly if both name the same days. -/
theorem matches_iff_denotes {Covers : ℤ → Prop}
    (hcovers : ∀ year, 2000 ≤ year → year < 2028 → Covers year) (hne : ∀ field ∈ e.fields, field ≠ [])
    (h : standard.Accepts e) (hsix : sixField.Accepts e) :
    (∀ t, Covers (dateOf (dayOf t)).year → (Matches [.point (.number 0)] e t ↔ Denotes rule e t)) ↔
      SameDays rule e := by
  have hminutes : e.minute ≠ [] := hne _ (by simp [Expr.fields])
  have hhours : e.hour ≠ [] := hne _ (by simp [Expr.fields])
  have hmonths : e.month ≠ [] := hne _ (by simp [Expr.fields])
  have hweekdays : e.dayOfWeek ≠ [] := hne _ (by simp [Expr.fields])
  rw [sameDays_iff hmonths hweekdays h]
  simp only [matches_zero_iff hsix, Denotes]
  constructor
  · intro hsame month day w hmonth hday hlength hw
    obtain ⟨minute, hminute, -, hlast⟩ := exists_lists hminutes h.minute
    obtain ⟨hour, hhour, -, hlast'⟩ := exists_lists hhours h.hour
    obtain ⟨year, hfrom, hto, hvalid, hweekday⟩ := exists_date hday hlength hw
    have hminute60 : minute < 60 := Nat.lt_succ_of_le hlast
    have hhour24 : hour < 24 := Nat.lt_succ_of_le hlast'
    obtain ⟨hwhole, hdayOf, hhourOf, hminuteOf⟩ :=
      momentAt_parts (Date.dayNumber ⟨year, month, day⟩) hhour24 hminute60
    have hat := hsame (momentAt (Date.dayNumber ⟨year, month, day⟩) hour minute)
    rw [hwhole, hdayOf, hhourOf, hminuteOf, dateOf_dayNumber hvalid, hweekday] at hat
    have hclock : standard.OnClock e hour minute := ⟨hminute, hhour⟩
    simpa [hclock, hmonth] using hat (hcovers year hfrom hto)
  · intro hsame t _
    obtain ⟨⟨hday, hlength⟩, -⟩ := dateOf_valid (dayOf t)
    have hlength' := hlength.trans (monthLength_le _ _)
    refine and_congr_right fun _ => and_congr_right fun _ => and_congr_right fun hmonth => ?_
    exact hsame _ _ _ hmonth hday hlength' (weekday_lt _)

end Agreement
end Meaning
end Cron
