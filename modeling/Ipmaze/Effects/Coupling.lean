import Ipmaze.Effects.World
import Mathlib.Data.List.Forall2

/-! Two programs run side by side, each against its own service. Their calls are alike, and as
long as the answers are, so is what they come to. -/
namespace Effects

universe u

/-- When two calls are alike, and when answers to them are. -/
structure Coupling (I : Interface.{u}) where
  Ops : I.Op → I.Op → Prop
  Ans : {i j : I.Op} → I.Ans i → I.Ans j → Prop

variable {I : Interface.{u}} {C : Coupling I} {ε δ ε' δ' α β α' β' κ κ' σ σ' : Type u}

/-- Alike calls under alike choices are answered alike and leave alike states. -/
def Coupling.Respected (C : Coupling I) (S : Service I κ σ) (S' : Service I κ' σ')
    (choices : κ → κ' → Prop) (states : σ → σ' → Prop) : Prop :=
  ∀ k k' i j s s', choices k k' → C.Ops i j → states s s' →
    C.Ans (S k i s).1 (S' k' j s').1 ∧ states (S k i s).2 (S' k' j s').2

namespace Program

/-- The programs issue alike calls for as long as the answers are alike, and then end with
results related by `L`. -/
inductive Coupled (C : Coupling I) (L : Except ε α → Except δ β → Prop) :
    Program I ε α → Program I δ β → Prop
  | halt {r s} (h : L r s) : Coupled C L (ofExcept r) (ofExcept s)
  | call {i j next next'} (hop : C.Ops i j)
      (hnext : ∀ a b, C.Ans a b → Coupled C L (next a) (next' b)) :
      Coupled C L (call i next) (call j next')

namespace Coupled
variable {L : Except ε α → Except δ β → Prop} {p : Program I ε α} {q : Program I δ β}

theorem mapError {M : Except ε' α → Except δ' β → Prop} {f : ε → ε'} {g : δ → δ'}
    (h : Coupled C L p q) (hL : ∀ r s, L r s → M (r.mapError f) (s.mapError g)) :
    Coupled C M (p.mapError f) (q.mapError g) := by
  induction h with
  | halt h =>
    rw [mapError_ofExcept, mapError_ofExcept]
    exact .halt (hL _ _ h)
  | call hop hnext ih => exact .call hop ih

theorem bind {M : Except ε α' → Except δ β' → Prop} {f : α → Program I ε α'}
    {g : β → Program I δ β'} (h : Coupled C L p q)
    (hL : ∀ r s, L r s → Coupled C M (ofExcept r >>= f) (ofExcept s >>= g)) :
    Coupled C M (p >>= f) (q >>= g) := by
  induction h with
  | halt h => exact hL _ _ h
  | call hop hnext ih => exact .call hop ih

/-- A program whose calls are alike only if their answers are equal runs alike twice. -/
theorem refl {P : I.Op → Prop} (hops : ∀ i, P i → C.Ops i i)
    (hans : ∀ i, P i → ∀ a b : I.Ans i, C.Ans a b → a = b) {p : Program I ε α}
    (hp : p.Makes P) : Coupled C Eq p p := by
  induction p with
  | ret a => exact .halt (r := .ok a) rfl
  | fail e => exact .halt (r := .error e) rfl
  | call i next ih =>
    refine .call (hops i hp.1) fun a b hab => ?_
    cases hans i hp.1 a b hab
    exact ih a (hp.2 a)

/-- Once the same result is reached on both sides, what follows is coupled from there. -/
theorem bind_eq {M : Except ε α' → Except ε β' → Prop} {p q : Program I ε α}
    {f : α → Program I ε α'} {g : α → Program I ε β'} (h : Coupled C Eq p q)
    (herror : ∀ e, M (.error e) (.error e)) (hok : ∀ a, Coupled C M (f a) (g a)) :
    Coupled C M (p >>= f) (q >>= g) := by
  refine h.bind fun r s hrs => ?_
  cases hrs
  cases r with
  | error e => exact .halt (herror e)
  | ok a => exact hok a

theorem run {S : Service I κ σ} {S' : Service I κ' σ'} {choices : κ → κ' → Prop}
    {states : σ → σ' → Prop} (hS : C.Respected S S' choices states) (h : Coupled C L p q)
    (w : World I κ σ) (w' : World I κ' σ') (hstate : states w.state w'.state)
    (hchoices : ∀ n, choices (w.choices n) (w'.choices n)) :
    L (p.run S w).1 (q.run S' w').1 ∧ states (p.run S w).2.state (q.run S' w').2.state ∧
      List.Forall₂ C.Ops (p.calls S w) (q.calls S' w') := by
  induction h generalizing w w' with
  | halt h =>
    rename_i r s
    cases r <;> cases s <;> exact ⟨h, hstate, .nil⟩
  | @call i j next next' hop hnext ih =>
    obtain ⟨hanswer, hafter⟩ := hS _ _ i j _ _ (hchoices 0) hop hstate
    obtain ⟨hresult, hfinal, hcalls⟩ :=
      ih _ _ hanswer (w.after S i) (w'.after S' j) hafter fun n => hchoices (n+1)
    exact ⟨hresult, hfinal, .cons hop hcalls⟩

end Coupled
end Program
end Effects
