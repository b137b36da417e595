import Ipmaze.Effects.Pool
import Mathlib.Logic.Relation

/-! Programs each of whose calls is warranted by the calls before it and their answers. However such
programs interleave, what they make of the state refines whatever is made of it by what warrants
their calls. -/
namespace Effects

universe u

namespace Program
variable {I : Interface.{u}} {ε δ α β : Type u}

/-- After `past`, every call is one that `W` allows after the events before it, and what the
program ends with meets `Q` after all of them. -/
def Warranted (W : List I.Event → I.Op → Prop) (Q : List I.Event → Except ε α → Prop) :
    Program I ε α → List I.Event → Prop
  | ret a, past => Q past (.ok a)
  | fail e, past => Q past (.error e)
  | call i next, past => W past i ∧ ∀ a, (next a).Warranted W Q (past ++ [⟨i, a⟩])

section Composition
variable {W : List I.Event → I.Op → Prop} {Q R : List I.Event → Except ε α → Prop}
variable {p : Program I ε α} {past : List I.Event}

theorem Warranted.bind {R : List I.Event → Except ε β → Prop} {f : α → Program I ε β}
    (hp : p.Warranted W Q past) (hf : ∀ past a, Q past (.ok a) → (f a).Warranted W R past)
    (herror : ∀ past e, Q past (.error e) → R past (.error e)) : (p >>= f).Warranted W R past := by
  induction p generalizing past with
  | ret a => exact hf past a hp
  | fail e => exact herror past e hp
  | call i next ih => exact ⟨hp.1, fun a => ih a (hp.2 a)⟩

/-- Every call of a program is one that is ever allowed. -/
theorem Warranted.makes {P : I.Op → Prop} (h : p.Warranted W Q past)
    (hWP : ∀ past i, W past i → P i) : p.Makes P := by
  induction p generalizing past with
  | ret a => trivial
  | fail e => trivial
  | call i next ih => exact ⟨hWP past i h.1, fun a => ih a (h.2 a)⟩

theorem Warranted.mono {R : List I.Event → Except ε α → Prop} (h : p.Warranted W Q past)
    (hQR : ∀ past r, Q past r → R past r) : p.Warranted W R past := by
  induction p generalizing past with
  | ret a => exact hQR _ _ h
  | fail e => exact hQR _ _ h
  | call i next ih => exact ⟨h.1, fun a => ih a (h.2 a)⟩

theorem Warranted.rescue {R : List I.Event → Except δ α → Prop} {f : ε → Program I δ α}
    (hp : p.Warranted W Q past) (hok : ∀ past a, Q past (.ok a) → R past (.ok a))
    (hf : ∀ past e, Q past (.error e) → (f e).Warranted W R past) :
    (p.rescue f).Warranted W R past := by
  induction p generalizing past with
  | ret a => exact hok past a hp
  | fail e => exact hf past e hp
  | call i next ih => exact ⟨hp.1, fun a => ih a (hp.2 a)⟩

theorem Warranted.discard (h : p.Warranted W Q past) :
    p.discard.Warranted W (fun _ _ => True) past := by
  induction p generalizing past with
  | ret a => trivial
  | fail e => trivial
  | call i next ih => exact ⟨h.1, fun a => ih a (h.2 a)⟩

/-- A program may make calls that are allowed from here on. What it returns is at the end of one of
its paths. -/
theorem Makes.warranted_along {P : I.Op → Prop} (h : p.Makes P)
    (hPW : ∀ l i, P i → W (past ++ l) i) :
    p.Warranted W
      (fun log r => ∀ a, r = .ok a → ∃ l, log = past ++ l ∧ p.Trace l (ret a)) past := by
  induction p generalizing past with
  | ret b =>
    intro a ha
    obtain rfl := Except.ok.inj ha
    exact ⟨[], (List.append_nil past).symm, .nil _⟩
  | fail e => exact fun a ha => absurd ha (by simp)
  | call i next ih =>
    have hnow := hPW [] i h.1
    rw [List.append_nil] at hnow
    refine ⟨hnow, fun answer => ?_⟩
    have hlater (l : List I.Event) (j : I.Op) (hj : P j) : W (past ++ [⟨i, answer⟩] ++ l) j := by
      rw [List.append_assoc]
      exact hPW _ j hj
    refine (ih answer (h.2 answer) hlater).mono fun log r hr a ha => ?_
    obtain ⟨l, rfl, htrace⟩ := hr a ha
    exact ⟨_, List.append_assoc .., .cons htrace⟩

/-- A program may make calls that are always allowed, and ends with what it yields. -/
theorem Makes.warranted {P : I.Op → Prop} {R : α → Prop} (h : p.Makes P) (hy : p.Yields R)
    (hPW : ∀ past i, P i → W past i) :
    p.Warranted W (fun _ r => ∀ a, r = .ok a → R a) past := by
  refine (h.warranted_along fun l i => hPW _ i).mono fun log r hr a ha => ?_
  obtain ⟨l, -, htrace⟩ := hr a ha
  exact htrace.yields hy

end Composition

section Traces
variable {W : List I.Event → I.Op → Prop} {Q : List I.Event → Except ε α → Prop}
variable {p q : Program I ε α} {past log : List I.Event}

/-- Along a path, every call was warranted by what came before it. -/
theorem Trace.warranted (h : p.Trace log q) (hp : p.Warranted W Q past) :
    (∀ before e after, log = before ++ e :: after → W (past ++ before) e.1) ∧
      q.Warranted W Q (past ++ log) := by
  induction h generalizing past with
  | nil p => exact ⟨by simp, by simpa using hp⟩
  | @cons i next a log q tail ih =>
    obtain ⟨hlog, hq⟩ := ih (hp.2 a)
    rw [List.append_assoc, List.singleton_append] at hq
    refine ⟨fun before e after hsplit => ?_, hq⟩
    cases before with
    | nil =>
      obtain ⟨rfl, -⟩ := List.cons.inj hsplit
      rw [List.append_nil]
      exact hp.1
    | cons first before =>
      obtain ⟨rfl, htail⟩ := List.cons.inj hsplit
      have hwarranted := hlog before e after htail
      rwa [List.append_assoc, List.singleton_append] at hwarranted

end Traces
end Program

namespace Pool
variable {I : Interface.{u}} {τ η ν : Type*} {κ σ ε α : Type u} [DecidableEq τ]
variable {S : Service I κ σ} {act : η → σ → σ} {W : τ → List I.Event → I.Op → Prop}

/-- Every thread is warranted in what it does next. -/
def Warranted (W : τ → List I.Event → I.Op → Prop) (P : Pool I τ σ ε α) : Prop :=
  ∀ t, (P.threads t).Warranted (W t) (fun _ _ => True) (P.logs t)

theorem Warranted.step {P : Pool I τ σ ε α} (h : P.Warranted W) (m : Move τ κ η) :
    (step S act P m).Warranted W := by
  cases m with
  | other a => exact h
  | serve t k =>
    rcases step_serve_cases S act P t k with he | ⟨i, next, ht⟩
    · rw [he]
      exact h
    · have hcall := h t
      rw [ht] at hcall
      rw [step_serve_call ht]
      intro u
      by_cases hu : u = t
      · subst hu
        simpa using hcall.2 _
      · simpa [Function.update_of_ne hu] using h u

theorem Warranted.exec {P : Pool I τ σ ε α} (h : P.Warranted W) (ms : List (Move τ κ η)) :
    (Pool.exec S act P ms).Warranted W := by
  induction ms generalizing P with
  | nil => exact h
  | cons m ms ih => exact ih (h.step m)

/-- What a thread was answered stays on record. -/
theorem step_logs (P : Pool I τ σ ε α) (m : Move τ κ η) (t : τ) :
    P.logs t <+: (step S act P m).logs t := by
  cases m with
  | other a => exact List.prefix_rfl
  | serve u k =>
    rcases step_serve_cases S act P u k with he | ⟨i, next, hu⟩
    · exact ⟨[], by rw [he, List.append_nil]⟩
    · rw [step_serve_call hu]
      by_cases ht : t = u
      · subst ht
        simp
      · simp [Function.update_of_ne ht]

theorem exec_logs (P : Pool I τ σ ε α) (ms : List (Move τ κ η)) (t : τ) :
    P.logs t <+: (exec S act P ms).logs t := by
  induction ms generalizing P with
  | nil => exact List.prefix_rfl
  | cons m ms ih => exact (step_logs P m t).trans (ih _)

section Refinement
variable {view : σ → ν} {r : (τ → List I.Event) → ν → ν → Prop}
variable (hcall : ∀ t k i s logs, W t (logs t) i →
  view (S k i s).2 = view s ∨ r logs (view s) (view (S k i s).2))
variable (hact : ∀ a s logs, r logs (view s) (view (act a s)))
include hcall hact

/-- A move of threads whose warranted calls are steps of an abstract machine, or none, is a step of
the machine, or none. -/
theorem Warranted.step_refines {P : Pool I τ σ ε α} (h : P.Warranted W) (m : Move τ κ η) :
    view (Pool.step S act P m).state = view P.state ∨
      r P.logs (view P.state) (view (Pool.step S act P m).state) := by
  cases m with
  | other a => exact Or.inr (hact a P.state P.logs)
  | serve t k =>
    rcases Pool.step_serve_cases S act P t k with he | ⟨i, next, ht⟩
    · exact Or.inl (by rw [he])
    · have hwarranted := h t
      rw [ht] at hwarranted
      rw [step_serve_call ht]
      exact hcall t k i P.state P.logs hwarranted.1

/-- Such threads refine the machine. It may depend on what the threads have been answered, as far as
more answers allow it more. -/
theorem Warranted.refines
    (hmono : ∀ logs logs', (∀ t, logs t <+: logs' t) → ∀ a b, r logs a b → r logs' a b)
    {P : Pool I τ σ ε α} (h : P.Warranted W) (ms : List (Move τ κ η)) :
    Relation.ReflTransGen (r (Pool.exec S act P ms).logs) (view P.state)
      (view (Pool.exec S act P ms).state) := by
  induction ms generalizing P with
  | nil => exact .refl
  | cons m ms ih =>
    have hstep := h.step_refines hcall hact m
    have hnext : (Pool.step S act P m).Warranted W := h.step m
    have hrest := ih hnext
    rw [exec_cons]
    rcases hstep with he | hstep
    · rw [he] at hrest
      exact hrest
    · exact .head (hmono _ _ (fun t => exec_logs P (m :: ms) t) _ _ hstep) hrest

end Refinement
end Pool
end Effects
