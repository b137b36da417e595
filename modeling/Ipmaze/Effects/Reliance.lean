import Ipmaze.Effects.Pool

/-! Rely and guarantee. Programs that keep an invariant as long as they are answered in a way that
the invariant ensures keep it together, however their calls interleave. -/
namespace Effects

universe u

namespace Program
variable {I : Interface.{u}} {ε δ α β : Type u}

/-- Given answers of `A`, every call is one of `G` and the value returned is one of `Q`. -/
def Reliant (A : (i : I.Op) → I.Ans i → Prop) (G : I.Op → Prop) (Q : α → Prop) :
    Program I ε α → Prop
  | ret a => Q a
  | fail _ => True
  | call i next => G i ∧ ∀ a, A i a → (next a).Reliant A G Q

variable {A : (i : I.Op) → I.Ans i → Prop} {G : I.Op → Prop} {Q : α → Prop} {R : β → Prop}
variable {p : Program I ε α}

theorem reliant_ofExcept {r : Except ε α} (h : ∀ a, r = .ok a → Q a) :
    (ofExcept r : Program I ε α).Reliant A G Q := by
  cases r with
  | error e => trivial
  | ok a => exact h a rfl

theorem Reliant.mono {F : I.Op → Prop} (h : p.Reliant A G Q) (hGF : ∀ i, G i → F i) :
    p.Reliant A F Q := by
  induction p with
  | ret a => exact h
  | fail e => trivial
  | call i next ih => exact ⟨hGF i h.1, fun a ha => ih a (h.2 a ha)⟩

theorem Reliant.bind {f : α → Program I ε β} (hp : p.Reliant A G Q)
    (hf : ∀ a, Q a → (f a).Reliant A G R) : (p >>= f).Reliant A G R := by
  induction p with
  | ret a => exact hf a hp
  | fail e => trivial
  | call i next ih => exact ⟨hp.1, fun a ha => ih a (hp.2 a ha)⟩

theorem Reliant.mapError (h : p.Reliant A G Q) (f : ε → δ) : (p.mapError f).Reliant A G Q := by
  induction p with
  | ret a => exact h
  | fail e => trivial
  | call i next ih => exact ⟨h.1, fun a ha => ih a (h.2 a ha)⟩

theorem Reliant.rescue {f : ε → Program I δ α} (hp : p.Reliant A G Q)
    (hf : ∀ e, (f e).Reliant A G Q) : (p.rescue f).Reliant A G Q := by
  induction p with
  | ret a => exact hp
  | fail e => exact hf e
  | call i next ih => exact ⟨hp.1, fun a ha => ih a (hp.2 a ha)⟩

theorem Reliant.discard (h : p.Reliant A G Q) : p.discard.Reliant A G fun _ => True := by
  induction p with
  | ret a => trivial
  | fail e => trivial
  | call i next ih => exact ⟨h.1, fun a ha => ih a (h.2 a ha)⟩

theorem Reliant.and_yields {R : α → Prop} (h : p.Reliant A G Q) (hR : p.Yields R) :
    p.Reliant A G fun a => Q a ∧ R a := by
  induction p with
  | ret a => exact ⟨h, hR⟩
  | fail e => trivial
  | call i next ih => exact ⟨h.1, fun a ha => ih a (h.2 a ha) (hR a)⟩

theorem Reliant.and_makes {F : I.Op → Prop} (h : p.Reliant A G Q) (hF : p.Makes F) :
    p.Reliant A (fun i => F i ∧ G i) Q := by
  induction p with
  | ret a => exact h
  | fail e => trivial
  | call i next ih => exact ⟨⟨hF.1, h.1⟩, fun a ha => ih a (h.2 a ha) (hF.2 a)⟩

/-- A program whose calls are always of `G` needs no answers to rely on. -/
theorem Makes.reliant (h : p.Makes G) (hQ : p.Yields Q) : p.Reliant A G Q := by
  induction p with
  | ret a => exact hQ
  | fail e => trivial
  | call i next ih => exact ⟨h.1, fun a _ => ih a (h.2 a) (hQ a)⟩

end Program

namespace Pool
variable {I : Interface.{u}} {τ η : Type*} {κ σ ε α : Type u} [DecidableEq τ]
variable {S : Service I κ σ} {act : η → σ → σ}

/-- A call is served under a choice that is open to it. -/
def Admits (C : I.Op → κ → Prop) (P : Pool I τ σ ε α) : Move τ κ η → Prop
  | .serve t k => ∀ i next, P.threads t = .call i next → C i k
  | .other _ => True

variable {A : (i : I.Op) → I.Ans i → Prop} {G : I.Op → Prop} {C : I.Op → κ → Prop} {J : σ → Prop}

/-- The state meets the invariant, and every thread keeps to its part. -/
structure Sound (A : (i : I.Op) → I.Ans i → Prop) (G : I.Op → Prop) (J : σ → Prop)
    (P : Pool I τ σ ε α) : Prop where
  state : J P.state
  threads : ∀ t, (P.threads t).Reliant A G fun _ => True

theorem Sound.step (hserve : ∀ k i s, C i k → G i → J s → A i (S k i s).1 ∧ J (S k i s).2)
    (hact : ∀ a s, J s → J (act a s)) {P : Pool I τ σ ε α} (h : P.Sound A G J) {m : Move τ κ η}
    (hm : P.Admits C m) : (step S act P m).Sound A G J := by
  cases m with
  | other a => exact ⟨hact a _ h.state, h.threads⟩
  | serve t k =>
    rcases step_serve_cases S act P t k with he | ⟨i, next, ht⟩
    · rw [he]
      exact h
    · have hreliant := h.threads t
      rw [ht] at hreliant
      obtain ⟨hanswer, hstate⟩ := hserve k i P.state (hm i next ht) hreliant.1 h.state
      rw [step_serve_call ht]
      refine ⟨hstate, fun u => ?_⟩
      by_cases hu : u = t
      · subst hu
        simpa using hreliant.2 _ hanswer
      · simpa [Function.update_of_ne hu] using h.threads u

/-- An invariant that ensures the answers its keepers rely on holds however they interleave. -/
theorem Sound.exec (hserve : ∀ k i s, C i k → G i → J s → A i (S k i s).1 ∧ J (S k i s).2)
    (hact : ∀ a s, J s → J (act a s)) {P : Pool I τ σ ε α} (h : P.Sound A G J)
    {ms : List (Move τ κ η)} (hms : Along (Pool.step S act) (Admits C) P ms) :
    (Pool.exec S act P ms).Sound A G J :=
  hms.invariant (fun _ _ hP hm => hP.step hserve hact hm) h

end Pool
end Effects
