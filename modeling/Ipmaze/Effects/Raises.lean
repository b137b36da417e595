import Ipmaze.Effects.World

/-! The errors a program can fail with, whatever the answers to its calls. -/
namespace Effects

universe u

namespace Program
variable {I : Interface.{u}} {ε δ α β : Type u}

/-- Every error the program can fail with is in `E`. -/
def Raises (E : ε → Prop) : Program I ε α → Prop
  | ret _ => True
  | fail e => E e
  | call _ next => ∀ a, (next a).Raises E

variable {E : ε → Prop} {p : Program I ε α}

theorem Raises.mono {F : ε → Prop} (h : p.Raises E) (hEF : ∀ e, E e → F e) : p.Raises F := by
  induction p with
  | ret a => trivial
  | fail e => exact hEF e h
  | call i next ih => exact fun a => ih a (h a)

theorem Raises.bind_of_yields {Q : α → Prop} {f : α → Program I ε β} (hp : p.Raises E)
    (hq : p.Yields Q) (hf : ∀ a, Q a → (f a).Raises E) : (p >>= f).Raises E := by
  induction p with
  | ret a => exact hf a hq
  | fail e => exact hp
  | call i next ih => exact fun a => ih a (hp a) (hq a)

theorem Raises.bind {f : α → Program I ε β} (hp : p.Raises E) (hf : ∀ a, (f a).Raises E) :
    (p >>= f).Raises E :=
  hp.bind_of_yields (yields_true p) fun a _ => hf a

/-- Renaming the errors names them all, whatever they were. -/
theorem raises_mapError {E : δ → Prop} {g : ε → δ} (h : ∀ e, E (g e)) (p : Program I ε α) :
    (p.mapError g).Raises E := by
  induction p with
  | ret a => trivial
  | fail e => exact h e
  | call i next ih => exact ih

theorem Trace.raises {l : List I.Event} {e : ε} (h : p.Trace l (fail e)) (hp : p.Raises E) :
    E e := by
  generalize hq : fail e = q at h
  induction h with
  | nil p =>
    subst hq
    exact hp
  | cons tail ih => exact ih (hp _) hq

end Program
end Effects
