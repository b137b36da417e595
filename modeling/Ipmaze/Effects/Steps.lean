import Mathlib.Logic.Basic

/-! Runs of a machine given by its step function, in which every step may have to meet a
condition on the state it is taken in. -/
namespace Effects

variable {σ μ : Type*} (step : σ → μ → σ)

/-- Every step of a run satisfies `C` in the state it is taken in. -/
def Along (C : σ → μ → Prop) : σ → List μ → Prop
  | _, [] => True
  | s, m :: ms => C s m ∧ Along C (step s m) ms

instance Along.decidable (C : σ → μ → Prop) [∀ s m, Decidable (C s m)] :
    (s : σ) → (ms : List μ) → Decidable (Along step C s ms)
  | _, [] => isTrue trivial
  | s, m :: ms =>
    have := Along.decidable C (step s m) ms
    inferInstanceAs (Decidable (C s m ∧ Along step C (step s m) ms))

variable {step} {C D : σ → μ → Prop} {J : σ → Prop} {s : σ} {ms : List μ}

theorem Along.mono (hCD : ∀ s m, C s m → D s m) (h : Along step C s ms) : Along step D s ms := by
  induction ms generalizing s with
  | nil => trivial
  | cons m ms ih => exact ⟨hCD s m h.1, ih h.2⟩

/-- An invariant that conditioned steps keep holds in the state a conditioned run ends in. -/
theorem Along.invariant (hstep : ∀ s m, J s → C s m → J (step s m)) (hs : J s)
    (h : Along step C s ms) : J (ms.foldl step s) := by
  induction ms generalizing s with
  | nil => exact hs
  | cons m ms ih => exact ih (hstep s m hs h.1) h.2

/-- What an invariant implies for a conditioned step holds along a conditioned run. -/
theorem Along.of_invariant (hstep : ∀ s m, J s → C s m → J (step s m))
    (hmove : ∀ s m, J s → C s m → D s m) (hs : J s) (h : Along step C s ms) :
    Along step D s ms := by
  induction ms generalizing s with
  | nil => trivial
  | cons m ms ih => exact ⟨hmove s m hs h.1, ih (hstep s m hs h.1) h.2⟩

end Effects
