import Ipmaze.Effects.Steps
import Ipmaze.Effects.World
import Mathlib.Logic.Function.Basic

/-! Interleaved threads. A pool runs any family of programs against one shared state, one
call at a time, in any order and mixed with steps of other parties. Threads that only
touch their own part of the state do not disturb each other. -/
namespace Effects

universe u

/-- One step of a pool: a thread has its next call served, or another party acts. -/
inductive Move (τ κ η : Type*)
  | serve (t : τ) (choice : κ)
  | other (act : η)
  deriving DecidableEq

structure Pool (I : Interface.{u}) (τ : Type*) (σ ε α : Type u) where
  state : σ
  threads : τ → Program I ε α
  logs : τ → List I.Event

variable {I : Interface.{u}} {τ η ρ ν : Type*} {κ σ ε α : Type u} [DecidableEq τ]

namespace Pool

/-- The pool in which no call was served yet. -/
def start (s : σ) (threads : τ → Program I ε α) : Pool I τ σ ε α := ⟨s, threads, fun _ => []⟩

/-- A thread that has finished has no call to serve, so its move does nothing. -/
def step (S : Service I κ σ) (act : η → σ → σ) (P : Pool I τ σ ε α) :
    Move τ κ η → Pool I τ σ ε α
  | .other a => { P with state := act a P.state }
  | .serve t k =>
    match P.threads t with
    | .call i next =>
      let r := S k i P.state
      { state := r.2
        threads := Function.update P.threads t (next r.1)
        logs := Function.update P.logs t (P.logs t ++ [⟨i, r.1⟩]) }
    | _ => P

def exec (S : Service I κ σ) (act : η → σ → σ) (P : Pool I τ σ ε α)
    (moves : List (Move τ κ η)) : Pool I τ σ ε α :=
  moves.foldl (step S act) P

variable {S : Service I κ σ} {act : η → σ → σ}

@[simp] theorem exec_nil (P : Pool I τ σ ε α) : exec S act P ([] : List (Move τ κ η)) = P := rfl
@[simp] theorem exec_cons (P : Pool I τ σ ε α) (m : Move τ κ η) (ms : List (Move τ κ η)) :
    exec S act P (m :: ms) = exec S act (step S act P m) ms := rfl
theorem step_serve_call {P : Pool I τ σ ε α} {t : τ} {k : κ} {i : I.Op}
    {next : I.Ans i → Program I ε α} (h : P.threads t = .call i next) :
    step S act P (.serve t k) =
      { state := (S k i P.state).2
        threads := Function.update P.threads t (next (S k i P.state).1)
        logs := Function.update P.logs t (P.logs t ++ [⟨i, (S k i P.state).1⟩]) } := by
  simp only [step, h]

variable (S act) in
/-- Serving a thread either does nothing or serves the call it stands at. -/
theorem step_serve_cases (P : Pool I τ σ ε α) (t : τ) (k : κ) :
    step S act P (.serve t k) = P ∨ ∃ i next, P.threads t = .call i next := by
  cases h : P.threads t with
  | ret a => exact Or.inl (by simp only [step, h])
  | fail e => exact Or.inl (by simp only [step, h])
  | call i next => exact Or.inr ⟨i, next, rfl⟩

theorem step_keeps {J : σ → Prop} (hserve : ∀ k i s, J s → J (S k i s).2)
    (hact : ∀ a s, J s → J (act a s)) (P : Pool I τ σ ε α) (hP : J P.state) (m : Move τ κ η) :
    J (step S act P m).state := by
  cases m with
  | other a => exact hact a P.state hP
  | serve t k =>
    rcases step_serve_cases S act P t k with he | ⟨i, next, ht⟩
    · rw [he]
      exact hP
    · rw [step_serve_call ht]
      exact hserve k i P.state hP

/-- What every call and every other party keeps is kept however they interleave. -/
theorem exec_keeps {J : σ → Prop} (hserve : ∀ k i s, J s → J (S k i s).2)
    (hact : ∀ a s, J s → J (act a s)) (P : Pool I τ σ ε α) (hP : J P.state)
    (ms : List (Move τ κ η)) : J (exec S act P ms).state := by
  induction ms generalizing P with
  | nil => exact hP
  | cons m ms ih => exact ih _ (step_keeps hserve hact P hP m)

section Refinement
variable {σ' : Type u} {S' : Service I κ σ'} {act' : η → σ' → σ'} {view : σ' → σ}

def map (view : σ' → σ) (P : Pool I τ σ' ε α) : Pool I τ σ ε α := ⟨view P.state, P.threads, P.logs⟩

theorem step_map {P : Pool I τ σ' ε α}
    (h : ∀ k i, (S' k i P.state).1 = (S k i (view P.state)).1 ∧
      view (S' k i P.state).2 = (S k i (view P.state)).2)
    (hact : ∀ a, view (act' a P.state) = act a (view P.state)) (m : Move τ κ η) :
    step S act (P.map view) m = (step S' act' P m).map view := by
  cases m with
  | other a => simp only [step, map, hact]
  | serve t k =>
    cases ht : P.threads t with
    | call i next =>
      obtain ⟨hanswer, hstate⟩ := h k i
      have ht' : (P.map view).threads t = .call i next := ht
      rw [step_serve_call ht, step_serve_call ht']
      simp only [map, hanswer, hstate]
    | _ => simp only [step, map, ht]

/-- Threads cannot tell a service from one that refines it in every state that can occur, however
their calls interleave. -/
theorem exec_map_of_keeps {J : σ' → Prop}
    (h : ∀ k i s, J s → (S' k i s).1 = (S k i (view s)).1 ∧ view (S' k i s).2 = (S k i (view s)).2)
    (hact : ∀ a s, J s → view (act' a s) = act a (view s)) (hserve : ∀ k i s, J s → J (S' k i s).2)
    (hkeep : ∀ a s, J s → J (act' a s)) (P : Pool I τ σ' ε α) (hP : J P.state)
    (ms : List (Move τ κ η)) : exec S act (P.map view) ms = (exec S' act' P ms).map view := by
  induction ms generalizing P with
  | nil => rfl
  | cons m ms ih =>
    rw [exec_cons, exec_cons, step_map (fun k i => h k i _ hP) (fun a => hact a _ hP)]
    exact ih _ (step_keeps hserve hkeep P hP m)

theorem exec_map (h : S'.Refines view S) (hact : ∀ a s, view (act' a s) = act a (view s))
    (P : Pool I τ σ' ε α) (ms : List (Move τ κ η)) :
    exec S act (P.map view) ms = (exec S' act' P ms).map view := by
  have hkeep : ∀ a s, (fun _ => True) s → (fun _ => True) (act' a s) := fun _ _ h => h
  exact exec_map_of_keeps (fun k i s _ => h k i s) (fun a s _ => hact a s) (fun _ _ _ h => h) hkeep
    P trivial ms

end Refinement

/-- The calls every thread may still issue stay within `F`. -/
def Within (F : τ → I.Op → Prop) (P : Pool I τ σ ε α) : Prop :=
  ∀ t, (P.threads t).Makes (F t)

theorem Within.step {F : τ → I.Op → Prop} {P : Pool I τ σ ε α} (h : P.Within F)
    (m : Move τ κ η) : (step S act P m).Within F := by
  cases m with
  | other a => exact h
  | serve t k =>
    rcases step_serve_cases S act P t k with he | ⟨i, next, ht⟩
    · rw [he]
      exact h
    · rw [step_serve_call ht]
      intro u
      by_cases hu : u = t
      · subst hu
        have hmakes := h u
        rw [ht] at hmakes
        simpa using hmakes.2 _
      · simpa [Function.update_of_ne hu] using h u

section Views
variable {F : τ → I.Op → Prop}

/-- A part of the state that no permitted call and no other party changes is never changed. -/
theorem exec_view_eq (view : σ → ν) (hcall : ∀ t k i s, F t i → view (S k i s).2 = view s)
    (hact : ∀ a s, view (act a s) = view s) (P : Pool I τ σ ε α) (hP : P.Within F)
    (ms : List (Move τ κ η)) : view (exec S act P ms).state = view P.state := by
  induction ms generalizing P with
  | nil => rfl
  | cons m ms ih =>
    rw [exec_cons, ih _ (hP.step m)]
    cases m with
    | other a => exact hact a P.state
    | serve t k =>
      rcases step_serve_cases S act P t k with he | ⟨i, next, ht⟩
      · rw [he]
      · rw [step_serve_call ht]
        have hmakes := hP t
        rw [ht] at hmakes
        exact hcall t k i P.state hmakes.1

variable (owner : τ → ρ) (view : ρ → σ → ν)

/-- The calls of an owner's threads read and write only the owner's view. -/
structure Separated (S : Service I κ σ) (F : τ → I.Op → Prop) : Prop where
  local_answer : ∀ t k i s s', F t i → view (owner t) s = view (owner t) s' →
    (S k i s).1 = (S k i s').1
  local_effect : ∀ t k i s s', F t i → view (owner t) s = view (owner t) s' →
    view (owner t) (S k i s).2 = view (owner t) (S k i s').2
  frame : ∀ t k i s r, F t i → r ≠ owner t → view r (S k i s).2 = view r s

/-- Two pools look alike to the threads of one owner. -/
def Alike (r : ρ) (P Q : Pool I τ σ ε α) : Prop :=
  view r P.state = view r Q.state ∧ ∀ t, owner t = r → P.threads t = Q.threads t

variable {owner view}

theorem Alike.step_own {r : ρ} (hS : Separated owner view S F) {P Q : Pool I τ σ ε α}
    (hP : P.Within F) (h : Alike owner view r P Q) {t : τ} (ht : owner t = r) (k : κ) :
    Alike owner view r (Pool.step S act P (.serve t k)) (Pool.step S act Q (.serve t k)) := by
  obtain ⟨hview, hthreads⟩ := h
  subst ht
  cases hp : P.threads t with
  | ret a =>
    have hq := (hthreads t rfl).symm.trans hp
    simpa only [Pool.step, hp, hq] using ⟨hview, hthreads⟩
  | fail e =>
    have hq := (hthreads t rfl).symm.trans hp
    simpa only [Pool.step, hp, hq] using ⟨hview, hthreads⟩
  | call i next =>
    have hq := (hthreads t rfl).symm.trans hp
    have hmakes := hP t
    rw [hp] at hmakes
    rw [step_serve_call hp, step_serve_call hq]
    refine ⟨hS.local_effect t k i _ _ hmakes.1 hview, ?_⟩
    intro u hu
    rw [hS.local_answer t k i _ _ hmakes.1 hview]
    by_cases he : u = t
    · subst he
      simp
    · simpa [Function.update_of_ne he] using hthreads u hu

theorem Alike.step_foreign {r : ρ} (hS : Separated owner view S F) {P Q : Pool I τ σ ε α}
    (hP : P.Within F) (h : Alike owner view r P Q) {t : τ} (ht : owner t ≠ r) (k : κ) :
    Alike owner view r (Pool.step S act P (.serve t k)) Q := by
  rcases step_serve_cases S act P t k with he | ⟨i, next, hp⟩
  · rw [he]
    exact h
  · have hmakes := hP t
    rw [hp] at hmakes
    rw [step_serve_call hp]
    refine ⟨(hS.frame t k i _ r hmakes.1 ht.symm).trans h.1, ?_⟩
    intro u hu
    have hne : u ≠ t := fun he => ht (he ▸ hu)
    simpa [Function.update_of_ne hne] using h.2 u hu

/-- The moves of one owner's threads. -/
def movesOf [DecidableEq ρ] (owner : τ → ρ) (r : ρ) (ms : List (Move τ κ Empty)) :
    List (Move τ κ Empty) :=
  ms.filter fun
    | .serve t _ => decide (owner t = r)
    | .other a => a.elim

/-- Whatever the interleaving, an owner's view and threads end as if its own calls had been
executed alone, in their own order. -/
theorem exec_alike [DecidableEq ρ] {act : Empty → σ → σ} (hS : Separated owner view S F) (r : ρ)
    (ms : List (Move τ κ Empty)) {P Q : Pool I τ σ ε α} (hP : P.Within F)
    (h : Alike owner view r P Q) :
    Alike owner view r (exec S act P ms) (exec S act Q (movesOf owner r ms)) := by
  induction ms generalizing P Q with
  | nil => exact h
  | cons m ms ih =>
    cases m with
    | other a => exact a.elim
    | serve t k =>
      by_cases ht : owner t = r
      · have hfilter : movesOf owner r (.serve t k :: ms) = .serve t k :: movesOf owner r ms := by
          simp [movesOf, ht]
        rw [hfilter]
        exact ih (hP.step _) (h.step_own hS hP ht k)
      · have hfilter : movesOf owner r (.serve t k :: ms) = movesOf owner r ms := by
          simp [movesOf, ht]
        rw [hfilter]
        exact ih (hP.step _) (h.step_foreign hS hP ht k)

end Views
end Pool
end Effects
