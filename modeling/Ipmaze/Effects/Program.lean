import Mathlib.Logic.Basic

/-! Fallible programs over an interface of external calls. A program is a finite tree: it
returns a value, fails with an error, or issues one call and continues with its answer.
Traces record the calls issued and the answers received on one path through the tree. -/
namespace Effects

universe u

/-- External operations together with the type of the answer to each of them. -/
structure Interface where
  Op : Type u
  Ans : Op → Type u

/-- One call that was answered. -/
abbrev Interface.Event (I : Interface.{u}) := Σ i : I.Op, I.Ans i

inductive Program (I : Interface.{u}) (ε α : Type u)
  | ret (a : α)
  | fail (e : ε)
  | call (i : I.Op) (next : I.Ans i → Program I ε α)

namespace Program
variable {I : Interface.{u}} {ε δ α β γ : Type u}

protected def bind : Program I ε α → (α → Program I ε β) → Program I ε β
  | ret a, f => f a
  | fail e, _ => fail e
  | call i next, f => call i fun a => (next a).bind f

instance : Monad (Program I ε) where
  pure := ret
  bind := Program.bind

@[simp] theorem pure_eq (a : α) : (pure a : Program I ε α) = ret a := rfl
@[simp] theorem ret_bind (a : α) (f : α → Program I ε β) : ret a >>= f = f a := rfl
@[simp] theorem fail_bind (e : ε) (f : α → Program I ε β) :
    (fail e : Program I ε α) >>= f = fail e := rfl
@[simp] theorem call_bind (i : I.Op) (next : I.Ans i → Program I ε α)
    (f : α → Program I ε β) :
    call i next >>= f = call i fun a => next a >>= f := rfl

theorem bind_ret (p : Program I ε α) : p >>= ret = p := by
  induction p with
  | ret a => rfl
  | fail e => rfl
  | call i next ih => simp only [call_bind, ih]

theorem bind_assoc (p : Program I ε α) (f : α → Program I ε β) (g : β → Program I ε γ) :
    p >>= f >>= g = p >>= fun a => f a >>= g := by
  induction p with
  | ret a => rfl
  | fail e => rfl
  | call i next ih => simp only [call_bind, ih]

instance : LawfulMonad (Program I ε) :=
  LawfulMonad.mk' _ (fun p => bind_ret p) (fun _ _ => rfl) bind_assoc

/-- The outcome of a pure fallible computation, issuing no call. -/
def ofExcept : Except ε α → Program I ε α
  | .ok a => ret a
  | .error e => fail e

@[simp] theorem ofExcept_ok (a : α) : (ofExcept (.ok a) : Program I ε α) = ret a := rfl
@[simp] theorem ofExcept_error (e : ε) : (ofExcept (.error e) : Program I ε α) = fail e := rfl

theorem ofExcept_bind (r : Except ε α) (f : α → Except ε β) :
    (ofExcept (r >>= f) : Program I ε β) = ofExcept r >>= fun a => ofExcept (f a) := by
  cases r <;> rfl

/-- Rename the errors a program can fail with. -/
def mapError (f : ε → δ) : Program I ε α → Program I δ α
  | ret a => ret a
  | fail e => fail (f e)
  | call i next => call i fun a => (next a).mapError f

@[simp] theorem mapError_ret (f : ε → δ) (a : α) :
    (ret a : Program I ε α).mapError f = ret a := rfl
@[simp] theorem mapError_fail (f : ε → δ) (e : ε) :
    (fail e : Program I ε α).mapError f = fail (f e) := rfl
@[simp] theorem mapError_call (f : ε → δ) (i : I.Op) (next : I.Ans i → Program I ε α) :
    (call i next).mapError f = call i fun a => (next a).mapError f := rfl

theorem mapError_ofExcept (f : ε → δ) (r : Except ε α) :
    (ofExcept r : Program I ε α).mapError f = ofExcept (r.mapError f) := by
  cases r <;> rfl

/-- Continue with a handler where the program fails. -/
def rescue : Program I ε α → (ε → Program I δ α) → Program I δ α
  | ret a, _ => ret a
  | fail e, f => f e
  | call i next, f => call i fun a => (next a).rescue f

/-- Forget both the value returned and the error. -/
def discard : Program I ε α → Program I PUnit PUnit
  | ret _ => ret ⟨⟩
  | fail _ => fail ⟨⟩
  | call i next => call i fun a => (next a).discard

/-- The program has returned or failed. -/
def Halted : Program I ε α → Prop
  | call _ _ => False
  | _ => True

instance : (p : Program I ε α) → Decidable p.Halted
  | ret _ => isTrue trivial
  | fail _ => isTrue trivial
  | call _ _ => isFalse id

/-- Every call the program can issue, whatever the answers, satisfies `P`. -/
def Makes (P : I.Op → Prop) : Program I ε α → Prop
  | ret _ => True
  | fail _ => True
  | call i next => P i ∧ ∀ a, (next a).Makes P

section Makes
variable {P Q : I.Op → Prop}

@[simp] theorem makes_ret (a : α) : (ret a : Program I ε α).Makes P := trivial
@[simp] theorem makes_fail (e : ε) : (fail e : Program I ε α).Makes P := trivial
@[simp] theorem makes_call (i : I.Op) (next : I.Ans i → Program I ε α) :
    (call i next).Makes P ↔ P i ∧ ∀ a, (next a).Makes P := Iff.rfl

@[simp] theorem makes_ofExcept (r : Except ε α) : (ofExcept r : Program I ε α).Makes P := by
  cases r <;> trivial

theorem Makes.mono {p : Program I ε α} (h : p.Makes P) (hPQ : ∀ i, P i → Q i) : p.Makes Q := by
  induction p with
  | ret a => trivial
  | fail e => trivial
  | call i next ih => exact ⟨hPQ i h.1, fun a => ih a (h.2 a)⟩

theorem Makes.bind {p : Program I ε α} {f : α → Program I ε β} (hp : p.Makes P)
    (hf : ∀ a, (f a).Makes P) : (p >>= f).Makes P := by
  induction p with
  | ret a => exact hf a
  | fail e => trivial
  | call i next ih => exact ⟨hp.1, fun a => ih a (hp.2 a)⟩

theorem Makes.mapError {p : Program I ε α} (h : p.Makes P) (f : ε → δ) :
    (p.mapError f).Makes P := by
  induction p with
  | ret a => trivial
  | fail e => trivial
  | call i next ih => exact ⟨h.1, fun a => ih a (h.2 a)⟩

theorem Makes.rescue {p : Program I ε α} {f : ε → Program I δ α} (hp : p.Makes P)
    (hf : ∀ e, (f e).Makes P) : (p.rescue f).Makes P := by
  induction p with
  | ret a => trivial
  | fail e => exact hf e
  | call i next ih => exact ⟨hp.1, fun a => ih a (hp.2 a)⟩

theorem Makes.discard {p : Program I ε α} (h : p.Makes P) : p.discard.Makes P := by
  induction p with
  | ret a => trivial
  | fail e => trivial
  | call i next ih => exact ⟨h.1, fun a => ih a (h.2 a)⟩

end Makes

/-- Every value the program can return, whatever the answers, satisfies `Q`. -/
def Yields (Q : α → Prop) : Program I ε α → Prop
  | ret a => Q a
  | fail _ => True
  | call _ next => ∀ a, (next a).Yields Q

section Yields
variable {P : I.Op → Prop} {Q : α → Prop} {R : β → Prop}

theorem yields_ofExcept {r : Except ε α} (h : ∀ a, r = .ok a → Q a) :
    (ofExcept r : Program I ε α).Yields Q := by
  cases r with
  | error e => trivial
  | ok a => exact h a rfl

theorem yields_true (p : Program I ε α) : p.Yields fun _ => True := by
  induction p with
  | ret a => trivial
  | fail e => trivial
  | call i next ih => exact ih

theorem Yields.bind {p : Program I ε α} {f : α → Program I ε β} (hp : p.Yields Q)
    (hf : ∀ a, Q a → (f a).Yields R) : (p >>= f).Yields R := by
  induction p with
  | ret a => exact hf a hp
  | fail e => trivial
  | call i next ih => exact fun a => ih a (hp a)

/-- The second program only has to stay within `P` on values the first one can return. -/
theorem Makes.bind_of_yields {p : Program I ε α} {f : α → Program I ε β} (hp : p.Makes P)
    (hq : p.Yields Q) (hf : ∀ a, Q a → (f a).Makes P) : (p >>= f).Makes P := by
  induction p with
  | ret a => exact hf a hq
  | fail e => trivial
  | call i next ih => exact ⟨hp.1, fun a => ih a (hp.2 a) (hq a)⟩

end Yields

/-- `Trace p log q`: answered as in `log`, the program `p` has become `q`. -/
inductive Trace : Program I ε α → List I.Event → Program I ε α → Prop
  | nil (p) : Trace p [] p
  | cons {i next a log q} (tail : Trace (next a) log q) : Trace (call i next) (⟨i, a⟩ :: log) q

namespace Trace

theorem append {p q r : Program I ε α} {l m : List I.Event} (h : Trace p l q)
    (h' : Trace q m r) : Trace p (l ++ m) r := by
  induction h with
  | nil p => exact h'
  | cons tail ih => exact .cons (ih h')

theorem snoc {p : Program I ε α} {l : List I.Event} {i : I.Op}
    {next : I.Ans i → Program I ε α} (h : Trace p l (call i next)) (a : I.Ans i) :
    Trace p (l ++ [⟨i, a⟩]) (next a) :=
  h.append (.cons (.nil _))

theorem fail_inv {e : ε} {l : List I.Event} {q : Program I ε α} (h : Trace (fail e) l q) :
    l = [] ∧ q = fail e := by
  cases h
  exact ⟨rfl, rfl⟩

theorem call_inv {i : I.Op} {next : I.Ans i → Program I ε α} {l : List I.Event}
    {q : Program I ε α} (h : Trace (call i next) l q) :
    (l = [] ∧ q = call i next) ∨ ∃ a m, l = ⟨i, a⟩ :: m ∧ Trace (next a) m q := by
  cases h with
  | nil => exact Or.inl ⟨rfl, rfl⟩
  | cons tail => exact Or.inr ⟨_, _, rfl, tail⟩

/-- A path through a sequential composition either stays in the first program or completes
it and continues in the second. -/
theorem bind_inv {p : Program I ε α} {f : α → Program I ε β} {l : List I.Event}
    {q : Program I ε β} (h : Trace (p >>= f) l q) :
    (∃ p', Trace p l p' ∧ q = p' >>= f) ∨
      ∃ a l₁ l₂, l = l₁ ++ l₂ ∧ Trace p l₁ (ret a) ∧ Trace (f a) l₂ q := by
  induction p generalizing l with
  | ret a => exact Or.inr ⟨a, [], l, rfl, .nil _, h⟩
  | fail e =>
    obtain ⟨rfl, rfl⟩ := fail_inv h
    exact Or.inl ⟨fail e, .nil _, rfl⟩
  | call i next ih =>
    rcases call_inv h with ⟨rfl, rfl⟩ | ⟨a, m, rfl, tail⟩
    · exact Or.inl ⟨call i next, .nil _, rfl⟩
    · rcases ih a tail with ⟨p', hp, rfl⟩ | ⟨b, l₁, l₂, rfl, hp, hf⟩
      · exact Or.inl ⟨p', .cons hp, rfl⟩
      · exact Or.inr ⟨b, ⟨i, a⟩ :: l₁, l₂, rfl, .cons hp, hf⟩

/-- The calls on a path are calls the program can issue, and so are those still ahead. -/
theorem makes {P : I.Op → Prop} {p q : Program I ε α} {l : List I.Event} (h : Trace p l q)
    (hp : p.Makes P) : (∀ e ∈ l, P e.1) ∧ q.Makes P := by
  induction h with
  | nil p => exact ⟨by simp, hp⟩
  | cons tail ih =>
    obtain ⟨hl, hq⟩ := ih (hp.2 _)
    refine ⟨?_, hq⟩
    intro e he
    rcases List.mem_cons.mp he with rfl | he
    · exact hp.1
    · exact hl e he

theorem yields {Q : α → Prop} {p : Program I ε α} {l : List I.Event} {a : α}
    (h : Trace p l (ret a)) (hp : p.Yields Q) : Q a := by
  generalize he : ret a = q at h
  induction h with
  | nil p =>
    subst he
    exact hp
  | cons tail ih => exact ih (hp _) he

/-- A path on which a sequential composition returns completes both programs. -/
theorem bind_ret_inv {p : Program I ε α} {f : α → Program I ε β} {l : List I.Event} {b : β}
    (h : Trace (p >>= f) l (ret b)) :
    ∃ a l₁ l₂, l = l₁ ++ l₂ ∧ Trace p l₁ (ret a) ∧ Trace (f a) l₂ (ret b) := by
  rcases h.bind_inv with ⟨p', hp, heq⟩ | ⟨a, l₁, l₂, rfl, hp, hf⟩
  · cases p' with
    | ret a => exact ⟨a, l, [], (List.append_nil l).symm, hp, heq ▸ .nil _⟩
    | fail e => cases heq
    | call i next => cases heq
  · exact ⟨a, l₁, l₂, rfl, hp, hf⟩

theorem bind {p : Program I ε α} {f : α → Program I ε β} {l m : List I.Event} {a : α}
    {q : Program I ε β} (h : Trace p l (ret a)) (h' : Trace (f a) m q) :
    Trace (p >>= f) (l ++ m) q := by
  generalize he : ret a = r at h
  induction h with
  | nil p =>
    subst he
    exact h'
  | cons tail ih => exact .cons (ih he)

theorem ofExcept_inv {r : Except ε α} {l : List I.Event} {a : α}
    (h : Trace (ofExcept r) l (ret a)) : l = [] ∧ r = .ok a := by
  cases r with
  | error e => exact absurd h.fail_inv.2 (by simp)
  | ok b =>
    cases h
    exact ⟨rfl, rfl⟩

theorem mapError_ret_iff {p : Program I ε α} {f : ε → δ} {l : List I.Event} {a : α} :
    Trace (p.mapError f) l (ret a) ↔ Trace p l (ret a) := by
  induction p generalizing l with
  | ret b => exact ⟨fun h => by cases h; exact .nil _, fun h => by cases h; exact .nil _⟩
  | fail e => exact ⟨fun h => absurd h.fail_inv.2 (by simp), fun h => absurd h.fail_inv.2 (by simp)⟩
  | call i next ih =>
    constructor
    · intro h
      cases h with
      | cons tail => exact .cons ((ih _).mp tail)
    · intro h
      cases h with
      | cons tail => exact .cons ((ih _).mpr tail)

end Trace
end Program
end Effects
