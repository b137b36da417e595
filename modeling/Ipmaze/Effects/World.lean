import Ipmaze.Effects.Program
import Mathlib.Data.Nat.Notation

/-! Running one program to completion against a service. Everything the service leaves open
(answers of remote parties, clock readings, lost messages) is read from a stream with one
choice for each call, so a run is a function of its world and can be evaluated. -/
namespace Effects

universe u

/-- How a service in state `σ` answers a call under one choice, and its state afterwards. -/
abbrev Service (I : Interface.{u}) (κ σ : Type u) := κ → (i : I.Op) → σ → I.Ans i × σ

structure World (I : Interface.{u}) (κ σ : Type u) where
  state : σ
  choices : ℕ → κ
  log : List I.Event

variable {I : Interface.{u}} {κ σ ε δ α β : Type u}

namespace World

def answer (S : Service I κ σ) (w : World I κ σ) (i : I.Op) : I.Ans i :=
  (S (w.choices 0) i w.state).1

/-- The world once a call was served: the choice is used up and the call is logged. -/
def after (S : Service I κ σ) (w : World I κ σ) (i : I.Op) : World I κ σ where
  state := (S (w.choices 0) i w.state).2
  choices n := w.choices (n+1)
  log := w.log ++ [⟨i, w.answer S i⟩]

@[simp] theorem after_state (S : Service I κ σ) (w : World I κ σ) (i : I.Op) :
    (w.after S i).state = (S (w.choices 0) i w.state).2 := rfl
@[simp] theorem after_choices (S : Service I κ σ) (w : World I κ σ) (i : I.Op) (n : ℕ) :
    (w.after S i).choices n = w.choices (n+1) := rfl
@[simp] theorem after_log (S : Service I κ σ) (w : World I κ σ) (i : I.Op) :
    (w.after S i).log = w.log ++ [⟨i, w.answer S i⟩] := rfl

/-- The world once several calls were served in turn. -/
def afterAll (S : Service I κ σ) (w : World I κ σ) (calls : List I.Op) : World I κ σ :=
  calls.foldl (after S) w

@[simp] theorem afterAll_nil (S : Service I κ σ) (w : World I κ σ) : w.afterAll S [] = w := rfl
@[simp] theorem afterAll_cons (S : Service I κ σ) (w : World I κ σ) (i : I.Op)
    (calls : List I.Op) : w.afterAll S (i :: calls) = (w.after S i).afterAll S calls := rfl

theorem afterAll_calls (S : Service I κ σ) (w : World I κ σ) (calls : List I.Op) :
    (w.afterAll S calls).log.map Sigma.fst = w.log.map Sigma.fst ++ calls := by
  induction calls generalizing w with
  | nil => simp
  | cons i calls ih => simp [ih]

theorem afterAll_choices (S : Service I κ σ) (w : World I κ σ) (calls : List I.Op) (n : ℕ) :
    (w.afterAll S calls).choices n = w.choices (n + calls.length) := by
  induction calls generalizing w with
  | nil => rfl
  | cons i calls ih => rw [afterAll_cons, ih, after_choices, List.length_cons, Nat.add_assoc]

theorem afterAll_append (S : Service I κ σ) (w : World I κ σ) (calls calls' : List I.Op) :
    w.afterAll S (calls ++ calls') = (w.afterAll S calls).afterAll S calls' := List.foldl_append

theorem afterAll_keeps {S : Service I κ σ} {P : I.Op → Prop} {J : σ → Prop}
    (hJ : ∀ k i s, P i → J s → J (S k i s).2) (calls : List I.Op) (hcalls : ∀ i ∈ calls, P i)
    (w : World I κ σ) (hw : J w.state) : J (w.afterAll S calls).state := by
  induction calls generalizing w with
  | nil => exact hw
  | cons i calls ih =>
    rw [List.forall_mem_cons] at hcalls
    exact ih hcalls.2 _ (hJ _ _ _ hcalls.1 hw)

/-- The calls of a log, served in turn, are answered as the log says. -/
def Gives (S : Service I κ σ) : World I κ σ → List I.Event → Prop
  | _, [] => True
  | w, ⟨i, a⟩ :: log => w.answer S i = a ∧ (w.after S i).Gives S log

def map {τ : Type u} (view : τ → σ) (w : World I κ τ) : World I κ σ where
  state := view w.state
  choices := w.choices
  log := w.log

end World

/-- A service that does to its state, seen through `view`, what another one does. -/
def Service.Refines {τ : Type u} (S' : Service I κ τ) (view : τ → σ) (S : Service I κ σ) : Prop :=
  ∀ k i s, (S' k i s).1 = (S k i (view s)).1 ∧ view (S' k i s).2 = (S k i (view s)).2

namespace Program

def run (S : Service I κ σ) : Program I ε α → World I κ σ → Except ε α × World I κ σ
  | ret a, w => (.ok a, w)
  | fail e, w => (.error e, w)
  | call i next, w => (next (w.answer S i)).run S (w.after S i)

/-- The calls a run issues, with their answers. -/
def events (S : Service I κ σ) : Program I ε α → World I κ σ → List I.Event
  | ret _, _ => []
  | fail _, _ => []
  | call i next, w => ⟨i, w.answer S i⟩ :: (next (w.answer S i)).events S (w.after S i)

def calls (S : Service I κ σ) (p : Program I ε α) (w : World I κ σ) : List I.Op :=
  (p.events S w).map Sigma.fst

variable (S : Service I κ σ)

@[simp] theorem run_ret (a : α) (w : World I κ σ) :
    (ret a : Program I ε α).run S w = (.ok a, w) := rfl
@[simp] theorem run_fail (e : ε) (w : World I κ σ) :
    (fail e : Program I ε α).run S w = (.error e, w) := rfl
@[simp] theorem run_call (i : I.Op) (next : I.Ans i → Program I ε α) (w : World I κ σ) :
    (call i next).run S w = (next (w.answer S i)).run S (w.after S i) := rfl
@[simp] theorem run_ofExcept (r : Except ε α) (w : World I κ σ) :
    (ofExcept r : Program I ε α).run S w = (r, w) := by cases r <;> rfl

theorem run_bind (p : Program I ε α) (f : α → Program I ε β) (w : World I κ σ) :
    (p >>= f).run S w =
      match p.run S w with
      | (.ok a, w') => (f a).run S w'
      | (.error e, w') => (.error e, w') := by
  induction p generalizing w with
  | ret a => rfl
  | fail e => rfl
  | call i next ih => exact ih _ _

theorem run_bind_ok {p : Program I ε α} {f : α → Program I ε β} {w w' : World I κ σ} {a : α}
    (h : p.run S w = (.ok a, w')) : (p >>= f).run S w = (f a).run S w' := by
  rw [run_bind, h]

theorem run_bind_error {p : Program I ε α} {f : α → Program I ε β} {w w' : World I κ σ} {e : ε}
    (h : p.run S w = (.error e, w')) : (p >>= f).run S w = (.error e, w') := by
  rw [run_bind, h]

theorem run_mapError (f : ε → δ) (p : Program I ε α) (w : World I κ σ) :
    (p.mapError f).run S w = ((p.run S w).1.mapError f, (p.run S w).2) := by
  induction p generalizing w with
  | ret a => rfl
  | fail e => rfl
  | call i next ih => exact ih _ _

theorem run_mapError_ok {p : Program I ε α} {w w' : World I κ σ} {a : α}
    (h : p.run S w = (.ok a, w')) (f : ε → δ) : (p.mapError f).run S w = (.ok a, w') := by
  rw [run_mapError, h]
  rfl

theorem run_bind_ok_iff {p : Program I ε α} {f : α → Program I ε β} {w w'' : World I κ σ} {b : β} :
    (p >>= f).run S w = (.ok b, w'') ↔
      ∃ a w', p.run S w = (.ok a, w') ∧ (f a).run S w' = (.ok b, w'') := by
  rw [run_bind]
  cases hrun : p.run S w with
  | mk result w' =>
    cases result with
    | error e => simp
    | ok a =>
      constructor
      · exact fun h => ⟨a, w', rfl, h⟩
      · rintro ⟨_, _, heq, h⟩
        cases heq
        exact h

theorem run_mapError_ok_iff {p : Program I ε α} {f : ε → δ} {w w' : World I κ σ} {a : α} :
    (p.mapError f).run S w = (.ok a, w') ↔ p.run S w = (.ok a, w') := by
  rw [run_mapError]
  cases hrun : p.run S w with
  | mk result w'' =>
    cases result with
    | error e => exact iff_of_false (fun h => by cases h) fun h => by cases h
    | ok b =>
      constructor
      · intro h
        cases h
        rfl
      · intro h
        cases h
        rfl

theorem run_log (p : Program I ε α) (w : World I κ σ) :
    (p.run S w).2.log = w.log ++ p.events S w := by
  induction p generalizing w with
  | ret a => simp [events]
  | fail e => simp [events]
  | call i next ih => simp [events, ih]

theorem events_bind_ok {p : Program I ε α} {f : α → Program I ε β} {w w' : World I κ σ} {a : α}
    (h : p.run S w = (.ok a, w')) :
    (p >>= f).events S w = p.events S w ++ (f a).events S w' := by
  induction p generalizing w with
  | ret b =>
    cases h
    rfl
  | fail e => cases h
  | call i next ih => simp [events, ih _ h]

theorem events_bind_error {p : Program I ε α} {f : α → Program I ε β} {w w' : World I κ σ} {e : ε}
    (h : p.run S w = (.error e, w')) : (p >>= f).events S w = p.events S w := by
  induction p generalizing w with
  | ret b => cases h
  | fail e => rfl
  | call i next ih => simp [events, ih _ h]

theorem run_calls (p : Program I ε α) (w : World I κ σ) :
    (p.run S w).2.log.map Sigma.fst = w.log.map Sigma.fst ++ p.calls S w := by
  rw [run_log, List.map_append, calls]

/-- The events of a run are a path through the program that ends in its outcome. -/
theorem run_trace (p : Program I ε α) (w : World I κ σ) :
    p.Trace (p.events S w) (ofExcept (p.run S w).1) := by
  induction p generalizing w with
  | ret a => exact .nil _
  | fail e => exact .nil _
  | call i next ih => exact .cons (ih _ _)

theorem Makes.calls {P : I.Op → Prop} {p : Program I ε α} (h : p.Makes P) (w : World I κ σ) :
    ∀ i ∈ p.calls S w, P i := by
  intro i hi
  obtain ⟨e, he, rfl⟩ := List.mem_map.mp hi
  exact ((run_trace S p w).makes h).1 e he

theorem mem_calls_bind {p : Program I ε α} {f : α → Program I ε β} {w : World I κ σ} {i : I.Op} :
    i ∈ (p >>= f).calls S w ↔
      i ∈ p.calls S w ∨ ∃ a w', p.run S w = (.ok a, w') ∧ i ∈ (f a).calls S w' := by
  unfold calls
  cases hrun : p.run S w with
  | mk result w' =>
    cases result with
    | error e => simp [events_bind_error S hrun]
    | ok a =>
      rw [events_bind_ok S hrun, List.map_append, List.mem_append]
      refine or_congr_right ⟨fun h => ⟨a, w', rfl, h⟩, ?_⟩
      rintro ⟨_, _, heq, h⟩
      cases heq
      exact h

theorem calls_call {i : I.Op} {next : I.Ans i → Program I ε α} {w : World I κ σ} :
    (call i next).calls S w = i :: (next (w.answer S i)).calls S (w.after S i) := rfl

theorem mem_calls_call {i j : I.Op} {next : I.Ans i → Program I ε α} {w : World I κ σ} :
    j ∈ (call i next).calls S w ↔
      j = i ∨ j ∈ (next (w.answer S i)).calls S (w.after S i) := by
  simp [calls, events]

/-- A run uses up choices from the front of the stream. -/
theorem run_choices (p : Program I ε α) (w : World I κ σ) :
    ∃ m, ∀ n, (p.run S w).2.choices n = w.choices (n+m) := by
  induction p generalizing w with
  | ret a => exact ⟨0, fun n => rfl⟩
  | fail e => exact ⟨0, fun n => rfl⟩
  | call i next ih =>
    obtain ⟨m, hm⟩ := ih (w.answer S i) (w.after S i)
    exact ⟨m+1, fun n => hm n⟩

theorem run_eq_afterAll (p : Program I ε α) (w : World I κ σ) :
    (p.run S w).2 = w.afterAll S (p.calls S w) := by
  induction p generalizing w with
  | ret a => rfl
  | fail e => rfl
  | call i next ih => exact ih _ _

/-- A run that returns is a path that the world answers. -/
theorem run_ok_iff {p : Program I ε α} {w w' : World I κ σ} {a : α} :
    p.run S w = (.ok a, w') ↔ ∃ log, p.Trace log (ret a) ∧ w.Gives S log ∧
      w' = w.afterAll S (log.map Sigma.fst) := by
  induction p generalizing w with
  | ret b =>
    constructor
    · intro h
      cases h
      exact ⟨[], .nil _, trivial, rfl⟩
    · rintro ⟨log, htrace, -, rfl⟩
      cases htrace
      rfl
  | fail e =>
    constructor
    · intro h
      cases h
    · rintro ⟨log, htrace, -⟩
      exact absurd htrace.fail_inv.2 (by simp)
  | call i next ih =>
    rw [run_call, ih]
    constructor
    · rintro ⟨log, htrace, hgives, rfl⟩
      exact ⟨_, .cons htrace, ⟨rfl, hgives⟩, rfl⟩
    · rintro ⟨log, htrace, hgives, rfl⟩
      cases htrace with
      | cons tail =>
        obtain ⟨rfl, hgives⟩ := hgives
        exact ⟨_, tail, hgives, rfl⟩

/-- A run depends on the state and the choices of its world only. -/
theorem run_congr (p : Program I ε α) {w w' : World I κ σ} (hstate : w.state = w'.state)
    (hchoices : ∀ n, w.choices n = w'.choices n) :
    (p.run S w).1 = (p.run S w').1 ∧ (p.run S w).2.state = (p.run S w').2.state := by
  induction p generalizing w w' with
  | ret a => exact ⟨rfl, hstate⟩
  | fail e => exact ⟨rfl, hstate⟩
  | call i next ih =>
    have hanswer : w.answer S i = w'.answer S i := by
      simp only [World.answer, hstate, hchoices 0]
    have hafter : (w.after S i).state = (w'.after S i).state := by
      simp only [World.after_state, hstate, hchoices 0]
    rw [run_call, run_call, hanswer]
    exact ih _ hafter fun n => hchoices (n+1)

section Refinement
variable {τ : Type u} {S' : Service I κ τ} {view : τ → σ} {S}

theorem after_map (h : S'.Refines view S) (w : World I κ τ) (i : I.Op) :
    (w.after S' i).map view = (w.map view).after S i := by
  obtain ⟨hanswer, hstate⟩ := h (w.choices 0) i w.state
  simp only [World.map, World.after, World.answer, hanswer, hstate]

/-- A program cannot tell a service from one that refines it. -/
theorem run_map (h : S'.Refines view S) (p : Program I ε α) (w : World I κ τ) :
    p.run S (w.map view) = ((p.run S' w).1, (p.run S' w).2.map view) := by
  induction p generalizing w with
  | ret a => rfl
  | fail e => rfl
  | call i next ih =>
    have hanswer : (w.map view).answer S i = w.answer S' i := (h _ i _).1.symm
    rw [run_call, hanswer, ← after_map h]
    exact ih _ _

theorem calls_map (h : S'.Refines view S) (p : Program I ε α) (w : World I κ τ) :
    p.calls S (w.map view) = p.calls S' w := by
  have hS := run_calls S p (w.map view)
  rw [run_map h] at hS
  exact List.append_cancel_left (hS.symm.trans (run_calls S' p w))

end Refinement

/-- What every call of a run keeps, the run keeps. -/
theorem run_keeps {P : I.Op → Prop} {J : σ → Prop}
    (hJ : ∀ k i s, P i → J s → J (S k i s).2) (p : Program I ε α) (w : World I κ σ)
    (hcalls : ∀ i ∈ p.calls S w, P i) (hw : J w.state) : J (p.run S w).2.state := by
  rw [run_eq_afterAll]
  exact World.afterAll_keeps hJ _ hcalls w hw

theorem run_preserves {P : I.Op → Prop} {J : σ → Prop} {p : Program I ε α} (hp : p.Makes P)
    (hJ : ∀ k i s, P i → J s → J (S k i s).2) (w : World I κ σ) (hw : J w.state) :
    J (p.run S w).2.state :=
  run_keeps S hJ p w (hp.calls S w) hw

end Program
end Effects
