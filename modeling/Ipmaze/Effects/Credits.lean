import Ipmaze.Effects.Program
import Mathlib.Algebra.Order.Group.Nat
import Mathlib.Data.Nat.Notation

/-! Programs that pay for their calls. Every call has a price, and a budget that is enough for
all paths of a program stays enough whatever answers it gets. -/
namespace Effects

universe u

namespace Program
variable {I : Interface.{u}} {ε δ α β : Type u}

/-- Credits `n` pay for every path, and at least `rest r` of them are left at its result `r`. -/
def Affords (price : I.Op → ℕ) (rest : Except ε α → ℕ) : Program I ε α → ℕ → Prop
  | ret a, n => rest (.ok a) ≤ n
  | fail e, n => rest (.error e) ≤ n
  | call i next, n => price i ≤ n ∧ ∀ a, (next a).Affords price rest (n - price i)

section Composition
variable {price : I.Op → ℕ} {rest : Except ε α → ℕ} {p : Program I ε α} {m n : ℕ}

theorem affords_ofExcept {r : Except ε α} :
    (ofExcept r : Program I ε α).Affords price rest n ↔ rest r ≤ n := by
  cases r <;> rfl

theorem Affords.mono {rest' : Except ε α → ℕ} (h : p.Affords price rest m)
    (hrest : ∀ r, rest' r ≤ rest r) (hmn : m ≤ n) : p.Affords price rest' n := by
  induction p generalizing m n with
  | ret a => exact (hrest _).trans (h.trans hmn)
  | fail e => exact (hrest _).trans (h.trans hmn)
  | call i next ih => exact ⟨h.1.trans hmn, fun a => ih a (h.2 a) (by omega)⟩

theorem Affords.bind {rest' : Except ε β → ℕ} {f : α → Program I ε β}
    (hp : p.Affords price rest n) (hf : ∀ a, (f a).Affords price rest' (rest (.ok a)))
    (herror : ∀ e, rest' (.error e) ≤ rest (.error e)) : (p >>= f).Affords price rest' n := by
  induction p generalizing n with
  | ret a => exact (hf a).mono (fun _ => le_rfl) hp
  | fail e => exact (herror e).trans hp
  | call i next ih => exact ⟨hp.1, fun a => ih a (hp.2 a)⟩

theorem Affords.mapError {k : ℕ} (h : p.Affords price (fun _ => k) n) (g : ε → δ) :
    (p.mapError g).Affords price (fun _ => k) n := by
  induction p generalizing n with
  | ret a => exact h
  | fail e => exact h
  | call i next ih => exact ⟨h.1, fun a => ih a (h.2 a)⟩

end Composition

/-- The credits pay for all these programs, whichever order they make their calls in. -/
def AffordAll (price : I.Op → ℕ) : List (Program I ε α) → ℕ → Prop
  | [], _ => True
  | p :: ps, n => ∃ own others, own + others ≤ n ∧ p.Affords price (fun _ => 0) own ∧
    AffordAll price ps others

section Several
variable {price : I.Op → ℕ} {p : Program I ε α} {ps : List (Program I ε α)} {m n : ℕ}

theorem AffordAll.concat (h : AffordAll price ps m) (hp : p.Affords price (fun _ => 0) n) :
    AffordAll price (ps ++ [p]) (m + n) := by
  induction ps generalizing m with
  | nil => exact ⟨n, 0, by omega, hp, trivial⟩
  | cons q ps ih =>
    obtain ⟨own, others, hle, hq, hps⟩ := h
    exact ⟨own, others + n, by omega, hq, ih hps⟩

/-- One of the programs makes its next call. -/
theorem AffordAll.call {i : ℕ} {op : I.Op} {next : I.Ans op → Program I ε α}
    (h : AffordAll price ps n) (hi : ps[i]? = some (.call op next)) :
    price op ≤ n ∧ ∀ a, AffordAll price (ps.set i (next a)) (n - price op) := by
  induction ps generalizing i n with
  | nil => cases hi
  | cons q ps ih =>
    obtain ⟨own, others, hle, hq, hps⟩ := h
    cases i with
    | zero =>
      cases hi
      refine ⟨hq.1.trans (by omega), fun a => ?_⟩
      exact ⟨own - price op, others, by have := hq.1; omega, hq.2 a, hps⟩
    | succ i =>
      obtain ⟨hprice, hset⟩ := ih hps hi
      refine ⟨hprice.trans (by omega), fun a => ?_⟩
      exact ⟨own, others - price op, by omega, hq, hset a⟩

end Several
end Program
end Effects
