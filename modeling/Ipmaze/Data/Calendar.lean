import Mathlib.Algebra.Order.Ring.Int
import Mathlib.Tactic.IntervalCases

/-! The Gregorian calendar: days counted from 1970-01-01, their dates and their weekdays. -/
namespace Calendar

structure Date where
  year : ℤ
  month : ℕ
  day : ℕ
  deriving DecidableEq, Repr

def isLeap (year : ℤ) : Bool := (year % 4 == 0 && year % 100 != 0) || year % 400 == 0

/-- There is no day in what is not a month. -/
def monthLength (leap : Bool) : ℕ → ℕ
  | 1 | 3 | 5 | 7 | 8 | 10 | 12 => 31
  | 4 | 6 | 9 | 11 => 30
  | 2 => if leap then 29 else 28
  | _ => 0

def yearLength (leap : Bool) : ℕ := if leap then 366 else 365

/-- The days of a year before a month. -/
def monthStart (leap : Bool) : ℕ → ℕ
  | 0 => 0
  | month+1 => monthStart leap month + monthLength leap month

/-- The leap days of the years up to this one. -/
def leapDays (year : ℤ) : ℤ := year / 4 - year / 100 + year / 400

def yearStart (year : ℤ) : ℤ := 365*(year - 1970) + (leapDays (year - 1) - leapDays 1969)

namespace Date

def Valid (date : Date) : Prop :=
  1 ≤ date.day ∧ date.day ≤ monthLength (isLeap date.year) date.month

def dayNumber (date : Date) : ℤ :=
  yearStart date.year + monthStart (isLeap date.year) date.month + (date.day - 1)

end Date

/-- Sunday is 0; the first day was a Thursday. -/
def weekday (n : ℤ) : ℕ := ((n + 4) % 7).toNat

def yearOf (n : ℤ) : ℤ :=
  let guess := 1970 + n * 400 / 146097
  if n < yearStart guess then guess - 1
  else if yearStart (guess + 1) ≤ n then guess + 1
  else guess

def monthOf (leap : Bool) (offset : ℕ) : ℕ :=
  ((List.range' 1 12).filter fun month => monthStart leap month ≤ offset).length

def dateOf (n : ℤ) : Date :=
  let year := yearOf n
  let offset := (n - yearStart year).toNat
  let month := monthOf (isLeap year) offset
  ⟨year, month, offset - monthStart (isLeap year) month + 1⟩

example : dateOf 20000 = ⟨2024, 10, 4⟩ ∧ weekday 20000 = 5 := by decide

section Years

theorem yearStart_succ (year : ℤ) :
    yearStart (year + 1) = yearStart year + yearLength (isLeap year) := by
  have hleap : isLeap year = true ↔ (year % 4 = 0 ∧ year % 100 ≠ 0) ∨ year % 400 = 0 := by
    simp [isLeap]
  cases h : isLeap year with
  | true =>
    rw [h] at hleap
    have hcases := hleap.mp rfl
    simp only [yearStart, leapDays, yearLength, if_true]
    omega
  | false =>
    rw [h, Bool.false_eq_true, false_iff] at hleap
    simp only [yearStart, leapDays, yearLength, Bool.false_eq_true, if_false]
    omega

theorem yearStart_lt {year year' : ℤ} (h : year < year') :
    yearStart year + yearLength (isLeap year) ≤ yearStart year' := by
  rw [← yearStart_succ]
  simp only [yearStart, leapDays]
  omega

/-- The guess from the average length of a year is off by one at most. -/
theorem yearOf_spec (n : ℤ) : yearStart (yearOf n) ≤ n ∧ n < yearStart (yearOf n + 1) := by
  have hguess : yearStart (1970 + n * 400 / 146097 - 1) ≤ n ∧
      n < yearStart (1970 + n * 400 / 146097 + 2) := by
    simp only [yearStart, leapDays]
    omega
  simp only [yearOf]
  split_ifs with hbefore hafter
  · simpa using ⟨hguess.1, hbefore⟩
  · exact ⟨hafter, by simpa [add_assoc] using hguess.2⟩
  · exact ⟨not_lt.mp hbefore, not_le.mp hafter⟩

end Years

section Months

theorem monthOf_spec (leap : Bool) {offset : ℕ} (h : offset < yearLength leap) :
    monthStart leap (monthOf leap offset) ≤ offset ∧
      offset < monthStart leap (monthOf leap offset + 1) := by
  have hall : ∀ leap, ∀ offset < yearLength leap,
      monthStart leap (monthOf leap offset) ≤ offset ∧
        offset < monthStart leap (monthOf leap offset + 1) := by
    decide +kernel
  exact hall leap offset h

theorem monthStart_le {leap : Bool} {month month' : ℕ} (h : month < month') :
    monthStart leap month + monthLength leap month ≤ monthStart leap month' := by
  induction month' with
  | zero => omega
  | succ month' ih =>
    rw [monthStart]
    cases Nat.lt_succ_iff_lt_or_eq.mp h with
    | inl hlt => exact (ih hlt).trans (Nat.le_add_right _ _)
    | inr heq => rw [heq]

theorem monthLength_of_gt {leap : Bool} {month : ℕ} (h : 12 < month) :
    monthLength leap month = 0 := by
  unfold monthLength
  split <;> omega

/-- The last month ends the year. -/
theorem monthStart_add_le (leap : Bool) (month : ℕ) (h : monthLength leap month ≠ 0) :
    monthStart leap month + monthLength leap month ≤ yearLength leap := by
  have hmonth : month ≤ 12 := by
    by_contra hlt
    exact h (monthLength_of_gt (not_le.mp hlt))
  have hall : ∀ leap, ∀ month ≤ 12,
      monthStart leap month + monthLength leap month ≤ yearLength leap := by decide
  exact hall leap month hmonth

end Months

section Dates

theorem dateOf_valid (n : ℤ) : (dateOf n).Valid ∧ (dateOf n).dayNumber = n := by
  obtain ⟨hstart, hend⟩ := yearOf_spec n
  rw [yearStart_succ] at hend
  have hoffset : (n - yearStart (yearOf n)).toNat < yearLength (isLeap (yearOf n)) := by omega
  obtain ⟨hmonth, hnext⟩ := monthOf_spec _ hoffset
  rw [monthStart] at hnext
  simp only [Date.Valid, Date.dayNumber, dateOf]
  omega

/-- A day has one date. -/
theorem dayNumber_injective {date date' : Date} (h : date.Valid) (h' : date'.Valid)
    (heq : date.dayNumber = date'.dayNumber) : date = date' := by
  obtain ⟨year, month, day⟩ := date
  obtain ⟨year', month', day'⟩ := date'
  simp only [Date.Valid] at h h'
  simp only [Date.dayNumber] at heq
  have hle := monthStart_add_le (isLeap year) month (by omega)
  have hle' := monthStart_add_le (isLeap year') month' (by omega)
  have hyear : year = year' := by
    rcases lt_trichotomy year year' with hlt | rfl | hlt
    · have hstart := yearStart_lt hlt
      omega
    · rfl
    · have hstart := yearStart_lt hlt
      omega
  subst hyear
  have hmonth : month = month' := by
    rcases lt_trichotomy month month' with hlt | rfl | hlt
    · have hstart := @monthStart_le (isLeap year) _ _ hlt
      omega
    · rfl
    · have hstart := @monthStart_le (isLeap year) _ _ hlt
      omega
  subst hmonth
  rw [Date.mk.injEq]
  omega

theorem dateOf_dayNumber {date : Date} (h : date.Valid) : dateOf date.dayNumber = date := by
  obtain ⟨hvalid, hnumber⟩ := dateOf_valid date.dayNumber
  exact dayNumber_injective hvalid h hnumber

theorem weekday_lt (n : ℤ) : weekday n < 7 := by
  unfold weekday
  omega

/-- Every fourth year from 2000 on is a leap year that starts five weekdays later. -/
theorem yearStart_leap {i : ℤ} (h : 0 ≤ i ∧ i < 7) :
    isLeap (2000 + 4*i) = true ∧ yearStart (2000 + 4*i) = 10957 + 1461*i := by
  refine ⟨?_, ?_⟩
  · simp only [isLeap, Bool.or_eq_true, Bool.and_eq_true, beq_iff_eq, bne_iff_ne]
    omega
  · simp only [yearStart, leapDays]
    omega

/-- In the 28 years from 2000 on every day of the year falls on every weekday. -/
theorem exists_date {month day : ℕ} (hday : 1 ≤ day) (hlength : day ≤ monthLength true month)
    {w : ℕ} (hw : w < 7) : ∃ year : ℤ, 2000 ≤ year ∧ year < 2028 ∧
      (⟨year, month, day⟩ : Date).Valid ∧ weekday (⟨year, month, day⟩ : Date).dayNumber = w := by
  have hi : 0 ≤ 3*(w - (10957 + monthStart true month + (day - 1) + 4) : ℤ) % 7 ∧
      3*(w - (10957 + monthStart true month + (day - 1) + 4) : ℤ) % 7 < 7 := by omega
  obtain ⟨hleap, hstart⟩ := yearStart_leap hi
  refine ⟨_, ?_, ?_, ⟨hday, hleap.symm ▸ hlength⟩, ?_⟩
  · omega
  · omega
  · simp only [weekday, Date.dayNumber, hleap, hstart]
    omega

end Dates

section Moments

/-! Moments are nanoseconds from the start of the first day on. -/

def dayOf (t : ℤ) : ℤ := t / 86400000000000
def hourOf (t : ℤ) : ℕ := (t / 3600000000000 % 24).toNat
def minuteOf (t : ℤ) : ℕ := (t / 60000000000 % 60).toNat
def secondOf (t : ℤ) : ℕ := (t / 1000000000 % 60).toNat

/-- The start of a minute. -/
def momentAt (n : ℤ) (hour minute : ℕ) : ℤ := ((n*24 + hour)*60 + minute)*60000000000

theorem momentAt_parts (n : ℤ) {hour minute : ℕ} (hhour : hour < 24) (hminute : minute < 60) :
    momentAt n hour minute % 60000000000 = 0 ∧ dayOf (momentAt n hour minute) = n ∧
      hourOf (momentAt n hour minute) = hour ∧ minuteOf (momentAt n hour minute) = minute := by
  simp only [momentAt, dayOf, hourOf, minuteOf]
  omega

theorem wholeMinute_iff (t : ℤ) :
    t % 60000000000 = 0 ↔ t % 1000000000 = 0 ∧ secondOf t = 0 := by
  unfold secondOf
  omega

end Moments
end Calendar
