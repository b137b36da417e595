import Ipmaze.Data.CronText
import Ipmaze.Sample
import Mathlib.Order.Bounds.Basic

/-! The resync schedule: what becomes of a standard cron expression that is handed to the `cron`
crate behind a second 0. -/
namespace Ipmaze
open Calendar Cron

/-- What the controller relies on of the `cron` crate: six fields, the strict dialect that starts
the week with Sunday as 1, and both day fields to be met, for the years the crate covers. -/
structure Crates.ReadsCron (K : Crates) (Covers : ℤ → Prop) : Prop where
  covers {year : ℤ} (hfrom : 1970 ≤ year) (hto : year ≤ 2100) : Covers year
  accepts {text : String} {second : Field} {e : Expr}
    (htext : readFields text = some (second :: e.fields))
    (hsecond : seconds.Accepts true second) (h : sixField.Accepts e) :
    ∃ schedule, K.parseSchedule text = .ok schedule ∧
      ∀ now t, K.nextAfter schedule now = some t ↔
        IsLeast {t | now < t ∧ Covers (dateOf (dayOf t)).year ∧ Matches second e t} t
  rejects {text : String} {second : Field} {e : Expr}
    (htext : readFields text = some (second :: e.fields)) (hnames : e.Abbreviates)
    (h : ¬ sixField.Accepts e) : ∃ error, K.parseSchedule text = .error error

/-- The white space of the `cron` crate: blank, tab, line feed and carriage return. -/
def isMultispace (c : Char) : Bool := c == ' ' || c == '\t' || c == '\n' || c == '\r'

def spacedTexts (cs : List Char) : List (List Char) := (cs.splitOnP isMultispace).filter (· ≠ [])

/-- At some moment the controller asks to be called again at this one. -/
def FiresAt (K : Crates) (schedule : K.Schedule) (t : Instant) : Prop :=
  ∃ now after, nextResyncAfter K schedule now = .ok after ∧ now + after = t

/-- The text is accepted, and its schedule fires at the moments that the expression denotes. -/
def KeepsMeaning (K : Crates) (Covers : ℤ → Prop) (rule : StarRule) (text : String) (e : Expr) :
    Prop :=
  ∃ schedule, validateResyncSchedule K (some text) = .ok schedule ∧
    ∀ t, Covers (dateOf (dayOf t)).year → (FiresAt K schedule t ↔ Denotes rule e t)

section Spacing

theorem isWhitespace_of_isMultispace {c : Char} (h : isMultispace c) :
    Text.isWhitespace c = true := by
  simp only [isMultispace, Bool.or_eq_true, beq_iff_eq] at h
  rcases h with ((rfl | rfl) | rfl) | rfl
  all_goals decide

/-- Fields that blanks and tabs set apart are what the crate reads. -/
theorem spacedTexts_of_readFields {text : String} {fields : List Field}
    (h : readFields text = some fields) : spacedTexts text.toList = fieldTexts text.toList := by
  have hblank : ∀ c ∈ text.toList, isMultispace c = isBlank c := by
    intro c hc
    have hwhitespace := isWhitespace_eq_isBlank h c hc
    cases hb : isBlank c with
    | true =>
      rw [isBlank] at hb
      rw [isMultispace, hb]
      rfl
    | false =>
      rw [← Bool.not_eq_true] at hb ⊢
      exact fun hm => hb (hwhitespace ▸ isWhitespace_of_isMultispace hm)
  rw [spacedTexts, fieldTexts, Text.splitOnP_congr hblank]

end Spacing

section Firing
variable {K : Crates} {Covers : ℤ → Prop} {text : String} {e : Expr} {rule : StarRule}

theorem nextResyncAfter_ok_iff {schedule : K.Schedule} {now : ℤ} {after : ℕ}
    (hnext : ∀ next, K.nextAfter schedule now = some next → now < next) :
    nextResyncAfter K schedule now = .ok after ↔ K.nextAfter schedule now = some (now + after) := by
  have hdue {next : ℤ} (h : now < next) : (next - now).toNat = after ↔ next = now + after := by
    omega
  unfold nextResyncAfter
  cases hsome : K.nextAfter schedule now with
  | none => simp
  | some next =>
    have hlt : now < next := hnext next hsome
    simp only [not_lt.mpr hlt.le, hlt.ne', if_false, Except.ok.injEq, Option.some.injEq]
    exact hdue hlt

/-- What fires is what can come next. -/
theorem firesAt_iff {schedule : K.Schedule} {P : ℤ → Prop}
    (hnext : ∀ now t : ℤ, K.nextAfter schedule now = some t ↔ IsLeast {t | now < t ∧ P t} t)
    (t : ℤ) : FiresAt K schedule t ↔ P t := by
  have hlt (now next : ℤ) (h : K.nextAfter schedule now = some next) : now < next :=
    ((hnext now next).mp h).1.1
  constructor
  · rintro ⟨now, after, hafter, rfl⟩
    exact ((hnext _ _).mp ((nextResyncAfter_ok_iff (hlt now)).mp hafter)).1.2
  · intro hP
    have hleast : IsLeast {t' | t - 1 < t' ∧ P t'} t := by
      refine ⟨⟨by omega, hP⟩, fun t' ht' => ?_⟩
      have hlt := ht'.1
      omega
    have hsum : t - 1 + (1 : ℕ) = t := by omega
    refine ⟨t - 1, 1, (nextResyncAfter_ok_iff (hlt _)).mpr ?_, hsum⟩
    rw [hsum]
    exact (hnext _ _).mpr hleast

/-- A standard expression passes the check for five fields, and is parsed behind a second 0. -/
theorem validateResyncSchedule_eq (htext : readExpr text = some e) :
    validateResyncSchedule K (some text) =
      (K.parseSchedule ("0 " ++ text)).mapError .invalidResyncSchedule := by
  have hlength := length_splitWhitespace (readFields_of_readExpr htext)
  simp [validateResyncSchedule, hlength, Expr.fields]

/-- A translatable expression is accepted with the moments that six fields match. -/
theorem accepts_translatable (hK : K.ReadsCron Covers) (htext : readExpr text = some e)
    (h : sixField.Accepts e) : ∃ schedule,
      validateResyncSchedule K (some text) = .ok schedule ∧ ∀ t, FiresAt K schedule t ↔
        Covers (dateOf (dayOf t)).year ∧ Matches [.point (.number 0)] e t := by
  have hfields := readFields_zero (readFields_of_readExpr htext)
  obtain ⟨schedule, hschedule, hnext⟩ := hK.accepts hfields (by decide) h
  refine ⟨schedule, ?_, firesAt_iff hnext⟩
  rw [validateResyncSchedule_eq htext, hschedule]
  rfl

/-- The rest is rejected. -/
theorem rejects_untranslatable (hK : K.ReadsCron Covers) (htext : readExpr text = some e)
    (hstandard : standard.Accepts e) (h : ¬ sixField.Accepts e) :
    ∃ error, validateResyncSchedule K (some text) = .error error := by
  have hfields := readFields_zero (readFields_of_readExpr htext)
  obtain ⟨error, herror⟩ := hK.rejects hfields hstandard.abbreviates h
  rw [validateResyncSchedule_eq htext, herror]
  exact ⟨_, rfl⟩

end Firing

namespace Sample

/-- The first moment of an interval that has a property. -/
def firstFrom (p : ℤ → Bool) (start stop : ℤ) : Option ℤ :=
  ((List.range (stop - start).toNat).find? fun i : ℕ => p (start + i)).map fun i : ℕ => start + i

theorem firstFrom_eq_some_iff {p : ℤ → Bool} {start stop t : ℤ} :
    firstFrom p start stop = some t ↔ IsLeast {t | start ≤ t ∧ t < stop ∧ p t} t := by
  unfold firstFrom
  rw [Option.map_eq_some_iff]
  constructor
  · rintro ⟨i, hi, rfl⟩
    obtain ⟨hp, hmem, hfirst⟩ := List.find?_range_eq_some.mp hi
    rw [List.mem_range] at hmem
    refine ⟨⟨by omega, by omega, hp⟩, fun t ht => ?_⟩
    obtain ⟨hstart, -, htp⟩ := ht
    by_contra hlt
    have hnot := hfirst (t - start).toNat (by omega)
    have hsum : start + ((t - start).toNat : ℤ) = t := by omega
    rw [hsum, htp] at hnot
    cases hnot
  · rintro ⟨⟨hstart, hstop, hp⟩, hleast⟩
    have hsum : start + ((t - start).toNat : ℤ) = t := by omega
    refine ⟨(t - start).toNat, List.find?_range_eq_some.mpr ⟨?_, ?_, ?_⟩, hsum⟩
    · rw [hsum]
      exact hp
    · rw [List.mem_range]
      omega
    · intro j hj
      rw [Bool.not_eq_true', ← Bool.not_eq_true]
      intro hpj
      have hle := hleast ⟨by omega, by omega, hpj⟩
      omega

structure CronSchedule where
  second : Field
  expr : Expr

def Covered (year : ℤ) : Prop := 1970 ≤ year ∧ year ≤ 2100

instance (year : ℤ) : Decidable (Covered year) :=
  inferInstanceAs (Decidable (1970 ≤ year ∧ year ≤ 2100))

def parseCron (text : String) : Except String CronSchedule :=
  match (spacedTexts text.toList).mapM readField with
  | some [second, minute, hour, dayOfMonth, month, dayOfWeek] =>
    let expr : Expr := ⟨minute, hour, dayOfMonth, month, dayOfWeek⟩
    if seconds.Accepts true second ∧ sixField.Accepts expr then .ok ⟨second, expr⟩
    else .error "Invalid expression"
  | _ => .error "Invalid expression"

def CronSchedule.nextAfter (schedule : CronSchedule) (now : ℤ) : Option ℤ :=
  firstFrom (fun t => decide (Covered (dateOf (dayOf t)).year ∧
    Matches schedule.second schedule.expr t)) (now + 1) (momentAt (yearStart 2101) 0 0)

def cronCrates : Crates :=
  { crates with
    Schedule := CronSchedule
    parseSchedule := parseCron
    nextAfter := CronSchedule.nextAfter }

theorem lt_of_covered {t : ℤ} (h : Covered (dateOf (dayOf t)).year) :
    t < momentAt (yearStart 2101) 0 0 := by
  have hyear : yearOf (dayOf t) ≤ 2100 := h.2
  have hday : dayOf t < yearStart 2101 := by
    refine (yearOf_spec (dayOf t)).2.trans_le ?_
    cases hyear.lt_or_eq with
    | inl hlt =>
      have hstart := yearStart_lt (by omega : yearOf (dayOf t) + 1 < 2101)
      omega
    | inr heq => rw [heq]; decide
  simp only [momentAt, dayOf] at hday ⊢
  omega

theorem nextAfter_eq_some_iff {schedule : CronSchedule} {now t : ℤ} :
    schedule.nextAfter now = some t ↔ IsLeast {t | now < t ∧ Covered (dateOf (dayOf t)).year ∧
      Matches schedule.second schedule.expr t} t := by
  have hset : {t | now + 1 ≤ t ∧ t < momentAt (yearStart 2101) 0 0 ∧
      decide (Covered (dateOf (dayOf t)).year ∧ Matches schedule.second schedule.expr t) = true} =
      {t | now < t ∧ Covered (dateOf (dayOf t)).year ∧
        Matches schedule.second schedule.expr t} := by
    ext t
    simp only [Set.mem_ofPred_eq, decide_eq_true_eq, Int.add_one_le_iff]
    exact and_congr_right fun _ => and_iff_right_of_imp fun h => lt_of_covered h.1
  rw [CronSchedule.nextAfter, firstFrom_eq_some_iff, hset]

theorem parseCron_of_readFields {text : String} {fields : List Field}
    (h : readFields text = some fields) :
    (spacedTexts text.toList).mapM readField = some fields := by
  rw [spacedTexts_of_readFields h]
  exact h

theorem readsCron : cronCrates.ReadsCron Covered where
  covers hfrom hto := ⟨hfrom, hto⟩
  accepts {text second e} htext hsecond h := by
    refine ⟨⟨second, e⟩, ?_, fun now t => nextAfter_eq_some_iff⟩
    change parseCron text = _
    simp only [parseCron, parseCron_of_readFields htext, Expr.fields]
    exact if_pos ⟨hsecond, h⟩
  rejects {text second e} htext _ h := by
    refine ⟨"Invalid expression", ?_⟩
    change parseCron text = _
    simp only [parseCron, parseCron_of_readFields htext, Expr.fields]
    exact if_neg fun hc => h hc.2

/-- Every quarter of an hour of the working days. -/
def workdays : Expr where
  minute := [.all (some 15)]
  hour := [.range (.number 6) (.number 18) none]
  dayOfMonth := [.all none]
  month := [.all none]
  dayOfWeek := [.range (.name "mon".toList) (.name "fri".toList) none]

/-- Midnight on Mondays, by number. -/
def mondays : Expr where
  minute := [.point (.number 0)]
  hour := [.point (.number 0)]
  dayOfMonth := [.all none]
  month := [.all none]
  dayOfWeek := [.point (.number 1)]

end Sample

/-- A standard expression is accepted and keeps its meaning exactly if the six-field dialect can
read it and both dialects name the same days. -/
theorem keepsMeaning_iff {K : Crates} {Covers : ℤ → Prop} (hK : K.ReadsCron Covers)
    (rule : StarRule) {text : String} {e : Expr} (htext : readExpr text = some e)
    (h : standard.Accepts e) :
    KeepsMeaning K Covers rule text e ↔ Translatable e ∧ SameDays rule e := by
  have hcovers (year : ℤ) (hfrom : 2000 ≤ year) (hto : year < 2028) : Covers year :=
    hK.covers (by omega) (by omega)
  have hne := fields_ne_nil (readFields_of_readExpr htext)
  rw [← sixField_accepts_iff h]
  by_cases hsix : sixField.Accepts e
  · obtain ⟨schedule, hok, hfires⟩ := accepts_translatable hK htext hsix
    rw [← matches_iff_denotes hcovers hne h hsix]
    constructor
    · rintro ⟨schedule', hok', hkeeps⟩
      cases hok.symm.trans hok'
      refine ⟨hsix, fun t ht => ?_⟩
      rw [← hkeeps t ht, hfires t]
      exact (and_iff_right ht).symm
    · rintro ⟨-, hsame⟩
      refine ⟨schedule, hok, fun t ht => ?_⟩
      rw [hfires t, ← hsame t ht]
      exact and_iff_right ht
  · obtain ⟨error, herror⟩ := rejects_untranslatable hK htext h hsix
    refine iff_of_false ?_ fun hc => hsix hc.1
    rintro ⟨schedule, hok, -⟩
    rw [herror] at hok
    cases hok

theorem keepsMeaning_iff_workdays : KeepsMeaning Sample.cronCrates Sample.Covered .whole
    "*/15 6-18 * * Mon-Fri" Sample.workdays := by
  have hstandard : standard.Accepts Sample.workdays := by decide
  refine (keepsMeaning_iff Sample.readsCron .whole (by decide) hstandard).mpr ⟨?_, ?_⟩
  · exact (sixField_accepts_iff hstandard).mp (by decide)
  · exact Or.inl (by decide)

/-- Weekday 1 is Monday in standard cron, but a Sunday is what fires. -/
theorem monday_not_kept : readExpr "0 0 * * 1" = some Sample.mondays ∧
    standard.Accepts Sample.mondays ∧
    ¬ KeepsMeaning Sample.cronCrates Sample.Covered .whole "0 0 * * 1" Sample.mondays := by
  have htext : readExpr "0 0 * * 1" = some Sample.mondays := by decide
  refine ⟨htext, by decide, ?_⟩
  rintro ⟨schedule, hok, hkeeps⟩
  obtain ⟨schedule', hok', hfires⟩ := accepts_translatable Sample.readsCron htext (by decide)
  cases hok.symm.trans hok'
  have hsunday : FiresAt Sample.cronCrates schedule (momentAt 3 0 0) :=
    (hfires _).mpr ⟨by decide, by decide⟩
  exact absurd ((hkeeps _ (by decide)).mp hsunday) (by decide)

end Ipmaze
