import Mathlib.Computability.Language

/-! Regular expressions over classes of symbols, for patterns that have to match a whole text.
Acceptance is decided by derivatives and characterised by languages. -/

inductive Regex (α : Type)
  | empty
  | epsilon
  | set (p : α → Bool)
  | alt (r s : Regex α)
  | seq (r s : Regex α)
  | star (r : Regex α)

namespace Regex
open scoped Computability

variable {α : Type}

/-- The texts that an expression matches. -/
def language : Regex α → Language α
  | empty => 0
  | epsilon => 1
  | set p => {w | ∃ a, p a ∧ w = [a]}
  | alt r s => r.language + s.language
  | seq r s => r.language * s.language
  | star r => r.language∗

def nullable : Regex α → Bool
  | empty | set _ => false
  | epsilon | star _ => true
  | alt r s => r.nullable || s.nullable
  | seq r s => r.nullable && s.nullable

/-- What is left to match behind a symbol. -/
def deriv (a : α) : Regex α → Regex α
  | empty | epsilon => empty
  | set p => if p a then epsilon else empty
  | alt r s => alt (deriv a r) (deriv a s)
  | seq r s => if r.nullable then alt (seq (deriv a r) s) (deriv a s) else seq (deriv a r) s
  | star r => seq (deriv a r) (star r)

def accepts (r : Regex α) : List α → Bool
  | [] => r.nullable
  | a :: w => (r.deriv a).accepts w

section Language
variable {r s : Regex α} {a : α} {w : List α}

@[simp] theorem mem_set {p : α → Bool} : w ∈ (set p).language ↔ ∃ a, p a ∧ w = [a] := Iff.rfl

@[simp] theorem mem_alt : w ∈ (alt r s).language ↔ w ∈ r.language ∨ w ∈ s.language :=
  Language.mem_add _ _ _

@[simp] theorem mem_seq :
    w ∈ (seq r s).language ↔ ∃ u ∈ r.language, ∃ v ∈ s.language, u ++ v = w := Language.mem_mul

theorem nullable_iff : r.nullable ↔ [] ∈ r.language := by
  induction r with
  | empty => simp [nullable, language, Language.notMem_zero]
  | epsilon => exact iff_of_true rfl Language.nil_mem_one
  | set p => simp [nullable]
  | alt r s ihr ihs => simp [nullable, ihr, ihs]
  | seq r s ihr ihs => simp [nullable, ihr, ihs]
  | star r ih => exact iff_of_true rfl (Language.nil_mem_kstar _)

/-- A text of a sequence begins in its first part, unless that part can be empty. -/
theorem cons_mem_seq : a :: w ∈ (seq r s).language ↔
    (∃ u v, a :: u ∈ r.language ∧ v ∈ s.language ∧ w = u ++ v) ∨
      [] ∈ r.language ∧ a :: w ∈ s.language := by
  rw [mem_seq]
  constructor
  · rintro ⟨u, hu, v, hv, huv⟩
    cases u with
    | nil => exact Or.inr ⟨hu, huv ▸ hv⟩
    | cons b u =>
      cases huv
      exact Or.inl ⟨u, v, hu, hv, rfl⟩
  · rintro (⟨u, v, hu, hv, rfl⟩ | ⟨hr, hs⟩)
    · exact ⟨a :: u, hu, v, hv, rfl⟩
    · exact ⟨[], hr, a :: w, hs, rfl⟩

/-- A repetition that is not empty has a first round which is not. -/
theorem cons_mem_star : a :: w ∈ (star r).language ↔
    ∃ u v, a :: u ∈ r.language ∧ v ∈ (star r).language ∧ w = u ++ v := by
  constructor
  · intro h
    change _ ∈ r.language∗ at h
    rw [Language.kstar_def_nonempty] at h
    obtain ⟨rounds, hrounds, hall⟩ := h
    cases rounds with
    | nil => cases hrounds
    | cons first rest =>
      obtain ⟨⟨hfirst, hne⟩, hrest⟩ := List.forall_mem_cons.mp hall
      cases first with
      | nil => exact absurd rfl hne
      | cons b u =>
        cases hrounds
        exact ⟨u, rest.flatten, hfirst, Language.join_mem_kstar fun y hy => (hrest y hy).1, rfl⟩
  · rintro ⟨u, v, hu, hv, rfl⟩
    obtain ⟨rest, rfl, hrest⟩ := Language.mem_kstar.mp hv
    have hall : ∀ y ∈ (a :: u) :: rest, y ∈ r.language := List.forall_mem_cons.mpr ⟨hu, hrest⟩
    exact Language.join_mem_kstar hall

theorem mem_deriv : w ∈ (r.deriv a).language ↔ a :: w ∈ r.language := by
  induction r generalizing w with
  | empty => simp [deriv, language]
  | epsilon => simp [deriv, language, Language.mem_one, Language.notMem_zero]
  | set p =>
    rw [deriv]
    split_ifs with ha
    · exact (Language.mem_one w).trans ⟨fun h => ⟨a, ha, by rw [h]⟩, fun ⟨b, _, hb⟩ =>
        (List.cons.inj hb).2⟩
    · refine iff_of_false (Language.notMem_zero w) ?_
      rintro ⟨b, hb, heq⟩
      cases heq
      exact ha hb
  | alt r s ihr ihs => simp [deriv, ihr, ihs]
  | seq r s ihr ihs =>
    have hfirst : w ∈ (seq (r.deriv a) s).language ↔
        ∃ u v, a :: u ∈ r.language ∧ v ∈ s.language ∧ w = u ++ v := by
      simp only [mem_seq, ihr]
      exact ⟨fun ⟨u, hu, v, hv, huv⟩ => ⟨u, v, hu, hv, huv.symm⟩,
        fun ⟨u, v, hu, hv, huv⟩ => ⟨u, hu, v, hv, huv.symm⟩⟩
    rw [deriv, cons_mem_seq, ← nullable_iff]
    split_ifs with hnull
    · rw [mem_alt, hfirst, ihs]
      simp [hnull]
    · rw [hfirst]
      simp [hnull]
  | star r ih =>
    rw [deriv, cons_mem_star, mem_seq]
    simp only [ih]
    exact ⟨fun ⟨u, hu, v, hv, huv⟩ => ⟨u, v, hu, hv, huv.symm⟩,
      fun ⟨u, v, hu, hv, huv⟩ => ⟨u, hu, v, hv, huv.symm⟩⟩

theorem accepts_iff : r.accepts w ↔ w ∈ r.language := by
  induction w generalizing r with
  | nil => exact nullable_iff
  | cons a w ih => rw [accepts, ih, mem_deriv]

end Language

section Derived

/-- One round or more. -/
def plus (r : Regex α) : Regex α := seq r (star r)

/-- At most one round. -/
def opt (r : Regex α) : Regex α := alt r epsilon

/-- A fixed number of rounds. -/
def times (r : Regex α) : ℕ → Regex α
  | 0 => epsilon
  | n+1 => seq r (r.times n)

/-- The symbols of a word, one after the other. -/
def word [DecidableEq α] : List α → Regex α
  | [] => epsilon
  | a :: w => seq (set (· == a)) (word w)

variable {r : Regex α} {p : α → Bool} {w : List α}

@[simp] theorem mem_opt : w ∈ (opt r).language ↔ w ∈ r.language ∨ w = [] := by
  rw [opt, mem_alt]
  exact or_congr_right (Language.mem_one w)

theorem mem_word [DecidableEq α] {u : List α} : w ∈ (word u).language ↔ w = u := by
  induction u generalizing w with
  | nil => exact Language.mem_one w
  | cons a u ih =>
    rw [word, mem_seq]
    constructor
    · rintro ⟨v, ⟨b, hb, rfl⟩, x, hx, rfl⟩
      rw [beq_iff_eq.mp hb, ih.mp hx]
      rfl
    · rintro rfl
      exact ⟨[a], ⟨a, beq_self_eq_true a, rfl⟩, u, ih.mpr rfl, rfl⟩

theorem cons_mem_seq_word [DecidableEq α] {a : α} (h : w ∈ r.language) :
    a :: w ∈ (seq (word [a]) r).language := mem_seq.mpr ⟨[a], mem_word.mpr rfl, w, h, rfl⟩

theorem mem_times_zero : w ∈ (r.times 0).language ↔ w = [] := Language.mem_one w

theorem mem_times_succ {n : ℕ} : w ∈ (r.times (n+1)).language ↔
    ∃ u ∈ r.language, ∃ v ∈ (r.times n).language, u ++ v = w := mem_seq

/-- Rounds of a class spell out a text of that class. -/
theorem mem_star_set : w ∈ (star (set p)).language ↔ ∀ a ∈ w, p a := by
  induction w with
  | nil => exact iff_of_true (Language.nil_mem_kstar _) (by simp)
  | cons a w ih =>
    rw [cons_mem_star, List.forall_mem_cons, ← ih]
    constructor
    · rintro ⟨u, v, ⟨b, hb, hu⟩, hv, rfl⟩
      cases hu
      exact ⟨hb, hv⟩
    · rintro ⟨ha, hw⟩
      exact ⟨[], w, ⟨a, ha, rfl⟩, hw, rfl⟩

theorem mem_plus_set : w ∈ (plus (set p)).language ↔ w ≠ [] ∧ ∀ a ∈ w, p a := by
  rw [plus, mem_seq]
  constructor
  · rintro ⟨u, ⟨a, ha, rfl⟩, v, hv, rfl⟩
    exact ⟨by simp, List.forall_mem_cons.mpr ⟨ha, mem_star_set.mp hv⟩⟩
  · rintro ⟨hne, hall⟩
    cases w with
    | nil => exact absurd rfl hne
    | cons a w =>
      obtain ⟨ha, hw⟩ := List.forall_mem_cons.mp hall
      exact ⟨[a], ⟨a, ha, rfl⟩, w, mem_star_set.mpr hw, rfl⟩

end Derived

/-- The symbols that texts of the expression can have. -/
def uses (a : α) : Regex α → Bool
  | empty | epsilon => false
  | set p => p a
  | alt r s | seq r s => r.uses a || s.uses a
  | star r => r.uses a

theorem uses_of_mem {r : Regex α} {a : α} {w : List α} (h : w ∈ r.language) (ha : a ∈ w) :
    r.uses a := by
  induction r generalizing w with
  | empty => exact absurd h (Language.notMem_zero w)
  | epsilon =>
    cases (Language.mem_one w).mp h
    cases ha
  | set p =>
    obtain ⟨b, hb, rfl⟩ := h
    rw [List.mem_singleton.mp ha]
    exact hb
  | alt r s ihr ihs =>
    rw [uses, Bool.or_eq_true]
    exact (mem_alt.mp h).imp (ihr · ha) (ihs · ha)
  | seq r s ihr ihs =>
    obtain ⟨u, hu, v, hv, rfl⟩ := mem_seq.mp h
    rw [uses, Bool.or_eq_true]
    exact (List.mem_append.mp ha).imp (ihr hu) (ihs hv)
  | star r ih =>
    obtain ⟨rounds, rfl, hall⟩ := Language.mem_kstar.mp h
    obtain ⟨round, hround, hmem⟩ := List.mem_flatten.mp ha
    exact ih (hall round hround) hmem

end Regex
