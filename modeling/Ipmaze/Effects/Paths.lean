import Ipmaze.Effects.World
import Mathlib.Tactic.ByContra

/-! Properties of all paths through a program, each closed under sequential composition: paths
that can only fail, that fail only after a bad answer, that fail before they write, that pass
through a given call, and that issue some calls only right after another one. -/
namespace Effects

universe u

namespace Program
variable {I : Interface.{u}} {κ σ ε δ α β : Type u}

/-- Every path that returns passes through a call in `W`. -/
def Passes (W : I.Op → Prop) : Program I ε α → Prop
  | ret _ => False
  | fail _ => True
  | call i next => W i ∨ ∀ a, (next a).Passes W

/-- No path returns. -/
def Fails (p : Program I ε α) : Prop := p.Passes fun _ => False

/-- No path whose answers are all good fails. -/
def Robust (good : I.Event → Prop) : Program I ε α → Prop
  | ret _ => True
  | fail _ => False
  | call i next => ∀ a, good ⟨i, a⟩ → (next a).Robust good

/-- No path with a bad answer returns. -/
def Strict (good : I.Event → Prop) : Program I ε α → Prop
  | ret _ => True
  | fail _ => True
  | call i next => ∀ a, (next a).Strict good ∧ (¬ good ⟨i, a⟩ → (next a).Fails)

/-- A path whose answers are all good and that fails has issued no call in `W`. -/
def Atomic (good : I.Event → Prop) (W : I.Op → Prop) : Program I ε α → Prop
  | ret _ => True
  | fail _ => True
  | call i next => ∀ a, good ⟨i, a⟩ →
      (next a).Atomic good W ∧ (W i → (next a).Robust good)

section Composition
variable {W : I.Op → Prop} {good : I.Event → Prop} {p : Program I ε α} {f : α → Program I ε β}

theorem Passes.bind (h : p.Passes W) : (p >>= f).Passes W := by
  induction p with
  | ret a => exact h.elim
  | fail e => trivial
  | call i next ih => exact h.imp_right fun h a => ih a (h a)

theorem passes_bind (h : ∀ a, (f a).Passes W) : (p >>= f).Passes W := by
  induction p with
  | ret a => exact h a
  | fail e => trivial
  | call i next ih => exact Or.inr ih

theorem Passes.mono {V : I.Op → Prop} (h : p.Passes W) (hWV : ∀ i, W i → V i) : p.Passes V := by
  induction p with
  | ret a => exact h.elim
  | fail e => trivial
  | call i next ih => exact h.imp (hWV i) fun h a => ih a (h a)

theorem Passes.mapError (h : p.Passes W) (g : ε → δ) : (p.mapError g).Passes W := by
  induction p with
  | ret a => exact h.elim
  | fail e => trivial
  | call i next ih => exact h.imp_right fun h a => ih a (h a)

theorem Robust.bind (hp : p.Robust good) (hf : ∀ a, (f a).Robust good) :
    (p >>= f).Robust good := by
  induction p with
  | ret a => exact hf a
  | fail e => exact hp.elim
  | call i next ih => exact fun a ha => ih a (hp a ha)

theorem Robust.mapError (h : p.Robust good) (g : ε → δ) : (p.mapError g).Robust good := by
  induction p with
  | ret a => trivial
  | fail e => exact h.elim
  | call i next ih => exact fun a ha => ih a (h a ha)

theorem Strict.bind (hp : p.Strict good) (hf : ∀ a, (f a).Strict good) :
    (p >>= f).Strict good := by
  induction p with
  | ret a => exact hf a
  | fail e => trivial
  | call i next ih => exact fun a => ⟨ih a (hp a).1, fun ha => ((hp a).2 ha).bind⟩

theorem Strict.mapError (h : p.Strict good) (g : ε → δ) : (p.mapError g).Strict good := by
  induction p with
  | ret a => trivial
  | fail e => trivial
  | call i next ih => exact fun a => ⟨ih a (h a).1, fun ha => ((h a).2 ha).mapError g⟩

theorem strict_ofExcept (r : Except ε α) : (ofExcept r : Program I ε α).Strict good := by
  cases r <;> trivial

theorem Makes.strict {P : I.Op → Prop} (h : p.Makes P) (hgood : ∀ i a, P i → good ⟨i, a⟩) :
    p.Strict good := by
  induction p with
  | ret a => trivial
  | fail e => trivial
  | call i next ih => exact fun a => ⟨ih a (h.2 a), fun hbad => absurd (hgood i a h.1) hbad⟩

/-- As long as nothing was written, anything may follow. -/
theorem Makes.atomic_bind (hp : p.Makes fun i => ¬ W i) (hf : ∀ a, (f a).Atomic good W) :
    (p >>= f).Atomic good W := by
  induction p with
  | ret a => exact hf a
  | fail e => trivial
  | call i next ih => exact fun a _ => ⟨ih a (hp.2 a), fun hW => absurd hW hp.1⟩

/-- What follows a write must not fail on its own account. -/
theorem Atomic.bind (hp : p.Atomic good W) (hf : ∀ a, (f a).Robust good)
    (hf' : ∀ a, (f a).Atomic good W) : (p >>= f).Atomic good W := by
  induction p with
  | ret a => exact hf' a
  | fail e => trivial
  | call i next ih =>
    exact fun a ha => ⟨ih a (hp a ha).1, fun hW => ((hp a ha).2 hW).bind hf⟩

theorem Robust.atomic (h : p.Robust good) : p.Atomic good W := by
  induction p with
  | ret a => trivial
  | fail e => trivial
  | call i next ih => exact fun a ha => ⟨ih a (h a ha), fun _ => h a ha⟩

end Composition

/-- The next call is one in `W`. -/
def StandsAt (W : I.Op → Prop) : Program I ε α → Prop
  | call i _ => W i
  | _ => False

/-- Every call in `W`, but for the first of all, comes right after an event that licenses it. -/
def Guarded (W : I.Op → Prop) (licence : I.Event → Prop) : Program I ε α → Prop
  | ret _ => True
  | fail _ => True
  | call i next => ∀ a, ((next a).StandsAt W → licence ⟨i, a⟩) ∧ (next a).Guarded W licence

section Guards
variable {W : I.Op → Prop} {licence : I.Event → Prop} {p : Program I ε α}

theorem StandsAt.of_mapError {g : ε → δ} (h : (p.mapError g).StandsAt W) : p.StandsAt W := by
  cases p with
  | ret a => exact h
  | fail e => exact h
  | call i next => exact h

theorem StandsAt.of_discard (h : p.discard.StandsAt W) : p.StandsAt W := by
  cases p with
  | ret a => exact h
  | fail e => exact h
  | call i next => exact h

theorem StandsAt.of_bind {f : α → Program I ε β} (h : (p >>= f).StandsAt W)
    (hf : ∀ a, ¬ (f a).StandsAt W) : p.StandsAt W := by
  cases p with
  | ret a => exact hf a h
  | fail e => exact h
  | call i next => exact h

theorem StandsAt.of_rescue {f : ε → Program I δ α} (h : (p.rescue f).StandsAt W)
    (hf : ∀ e, ¬ (f e).StandsAt W) : p.StandsAt W := by
  cases p with
  | ret a => exact h
  | fail e => exact hf e h
  | call i next => exact h

theorem Makes.not_standsAt (h : p.Makes fun i => ¬ W i) : ¬ p.StandsAt W := by
  cases p with
  | ret a => exact id
  | fail e => exact id
  | call i next => exact h.1

theorem Makes.guarded (h : p.Makes fun i => ¬ W i) : p.Guarded W licence := by
  induction p with
  | ret a => trivial
  | fail e => trivial
  | call i next ih => exact fun a => ⟨fun hs => ((h.2 a).not_standsAt hs).elim, ih a (h.2 a)⟩

theorem not_standsAt_ofExcept (r : Except ε α) : ¬ (ofExcept r : Program I ε α).StandsAt W := by
  cases r <;> exact id

theorem guarded_ofExcept (r : Except ε α) : (ofExcept r : Program I ε α).Guarded W licence := by
  cases r <;> trivial

/-- A single call needs no licence and gives none. -/
theorem guarded_call {i : I.Op} {r : I.Ans i → Except ε α} :
    (call i fun a => ofExcept (r a)).Guarded W licence :=
  fun a => ⟨fun h => (not_standsAt_ofExcept _ h).elim, guarded_ofExcept (r a)⟩

theorem Guarded.mono {licence' : I.Event → Prop} (hp : p.Guarded W licence)
    (h : ∀ e, licence e → licence' e) : p.Guarded W licence' := by
  induction p with
  | ret a => trivial
  | fail e => trivial
  | call i next ih => exact fun a => ⟨fun hs => h _ ((hp a).1 hs), ih a (hp a).2⟩

/-- The second program only has to be guarded on values the first one can return. -/
theorem Guarded.bind_of_yields {Q : α → Prop} {f : α → Program I ε β} (hp : p.Guarded W licence)
    (hq : p.Yields Q) (hf : ∀ a, Q a → (f a).Guarded W licence) (hs : ∀ a, ¬ (f a).StandsAt W) :
    (p >>= f).Guarded W licence := by
  induction p with
  | ret a => exact hf a hq
  | fail e => trivial
  | call i next ih => exact fun a => ⟨fun h => (hp a).1 (h.of_bind hs), ih a (hp a).2 (hq a)⟩

theorem Guarded.bind {f : α → Program I ε β} (hp : p.Guarded W licence)
    (hf : ∀ a, (f a).Guarded W licence) (hs : ∀ a, ¬ (f a).StandsAt W) :
    (p >>= f).Guarded W licence :=
  hp.bind_of_yields (yields_true p) (fun a _ => hf a) hs

theorem Guarded.mapError (hp : p.Guarded W licence) (g : ε → δ) :
    (p.mapError g).Guarded W licence := by
  induction p with
  | ret a => trivial
  | fail e => trivial
  | call i next ih => exact fun a => ⟨fun h => (hp a).1 h.of_mapError, ih a (hp a).2⟩

theorem Guarded.discard (hp : p.Guarded W licence) : p.discard.Guarded W licence := by
  induction p with
  | ret a => trivial
  | fail e => trivial
  | call i next ih => exact fun a => ⟨fun h => (hp a).1 h.of_discard, ih a (hp a).2⟩

theorem Guarded.rescue {f : ε → Program I δ α} (hp : p.Guarded W licence)
    (hf : ∀ e, (f e).Guarded W licence) (hs : ∀ e, ¬ (f e).StandsAt W) :
    (p.rescue f).Guarded W licence := by
  induction p with
  | ret a => trivial
  | fail e => exact hf e
  | call i next ih => exact fun a => ⟨fun h => (hp a).1 (h.of_rescue hs), ih a (hp a).2⟩

end Guards

namespace Trace
variable {W : I.Op → Prop} {good : I.Event → Prop} {p q : Program I ε α} {l : List I.Event} {a : α}

theorem passes (h : p.Trace l (ret a)) (hp : p.Passes W) : ∃ e ∈ l, W e.1 := by
  generalize he : ret a = q at h
  induction h with
  | nil p =>
    subst he
    exact hp.elim
  | @cons i next b log q tail ih =>
    rcases hp with hW | hp
    · exact ⟨⟨i, b⟩, List.mem_cons_self .., hW⟩
    · obtain ⟨e, hmem, hW⟩ := ih (hp b) he
      exact ⟨e, List.mem_cons_of_mem _ hmem, hW⟩

theorem strict (h : p.Trace l (ret a)) (hp : p.Strict good) : ∀ e ∈ l, good e := by
  generalize he : ret a = q at h
  induction h with
  | nil p => simp
  | @cons i next b log q tail ih =>
    subst he
    rw [List.forall_mem_cons]
    refine ⟨?_, ih (hp b).1 rfl⟩
    by_contra hbad
    obtain ⟨e, -, hfalse⟩ := tail.passes ((hp b).2 hbad)
    exact hfalse

end Trace

section Runs
variable (S : Service I κ σ) {W : I.Op → Prop} {good : I.Event → Prop} {p : Program I ε α}

theorem Passes.run (h : p.Passes W) {w w' : World I κ σ} {a : α} (hrun : p.run S w = (.ok a, w')) :
    ∃ i ∈ p.calls S w, W i := by
  have htrace := run_trace S p w
  rw [hrun] at htrace
  obtain ⟨e, he, hW⟩ := htrace.passes h
  exact ⟨e.1, List.mem_map_of_mem he, hW⟩

theorem Robust.run (h : p.Robust good) {w : World I κ σ} (hgood : ∀ e ∈ p.events S w, good e) :
    ∃ a, (p.run S w).1 = .ok a := by
  induction p generalizing w with
  | ret a => exact ⟨a, rfl⟩
  | fail e => exact h.elim
  | call i next ih =>
    rw [events, List.forall_mem_cons] at hgood
    exact ih _ (h _ hgood.1) hgood.2

theorem Strict.run (h : p.Strict good) {w w' : World I κ σ} {a : α}
    (hrun : p.run S w = (.ok a, w')) : ∀ e ∈ p.events S w, good e := by
  have htrace := run_trace S p w
  rw [hrun] at htrace
  exact htrace.strict h

theorem Atomic.run (h : p.Atomic good W) {w w' : World I κ σ} {e : ε}
    (hrun : p.run S w = (.error e, w')) (hgood : ∀ e ∈ p.events S w, good e) :
    ∀ i ∈ p.calls S w, ¬ W i := by
  induction p generalizing w with
  | ret a => simp [calls, events]
  | fail e => simp [calls, events]
  | call i next ih =>
    rw [events, List.forall_mem_cons] at hgood
    rw [run_call] at hrun
    rw [calls, events, List.map_cons, List.forall_mem_cons]
    refine ⟨?_, ih _ (h _ hgood.1).1 hrun hgood.2⟩
    intro hW
    obtain ⟨a, ha⟩ := ((h _ hgood.1).2 hW).run S hgood.2
    rw [hrun] at ha
    cases ha

end Runs
end Program
end Effects
