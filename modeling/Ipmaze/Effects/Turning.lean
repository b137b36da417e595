import Ipmaze.Effects.World

/-! Programs in which one kind of event decides how a path goes on: what comes before such an
event and what is left to do after it. -/
namespace Effects

universe u

namespace Program
variable {I : Interface.{u}} {κ σ ε δ α β : Type u}

/-- No path has an event in `R`. -/
def Avoids (R : I.Event → Prop) : Program I ε α → Prop
  | ret _ => True
  | fail _ => True
  | call i next => ∀ a, ¬ R ⟨i, a⟩ ∧ (next a).Avoids R

/-- On every path with an event in `R`, the calls up to the first one are in `P` and the
program left after it is in `Q`. -/
def TurnsAt (R : I.Event → Prop) (P : I.Op → Prop) (Q : Program I ε α → Prop) :
    Program I ε α → Prop
  | ret _ => True
  | fail _ => True
  | call i next => ∀ a, (R ⟨i, a⟩ → Q (next a)) ∧
      (¬ R ⟨i, a⟩ → (P i ∧ (next a).TurnsAt R P Q) ∨ (next a).Avoids R)

variable {R : I.Event → Prop} {P : I.Op → Prop} {p : Program I ε α} {f : α → Program I ε β}

theorem Makes.avoids (h : p.Makes P) (hPR : ∀ i a, P i → ¬ R ⟨i, a⟩) : p.Avoids R := by
  induction p with
  | ret a => trivial
  | fail e => trivial
  | call i next ih => exact fun a => ⟨hPR i a h.1, ih a (h.2 a)⟩

theorem Makes.turnsAt_bind {Q : Program I ε β → Prop} (h : p.Makes P)
    (hPR : ∀ i a, P i → ¬ R ⟨i, a⟩) (hf : ∀ a, (f a).TurnsAt R P Q) :
    (p >>= f).TurnsAt R P Q := by
  induction p with
  | ret a => exact hf a
  | fail e => trivial
  | call i next ih =>
    exact fun a => ⟨fun hR => absurd hR (hPR i a h.1), fun _ => Or.inl ⟨h.1, ih a (h.2 a)⟩⟩

theorem Avoids.trace {log : List I.Event} {q : Program I ε α} (h : p.Avoids R)
    (htrace : p.Trace log q) : ∀ e ∈ log, ¬ R e := by
  induction htrace with
  | nil p => simp
  | cons tail ih =>
    intro e he
    rcases List.mem_cons.mp he with rfl | he
    · exact (h _).1
    · exact ih (h _).2 e he

/-- A path with an event in `R` splits at the first one. -/
theorem TurnsAt.trace {Q : Program I ε α → Prop} {log : List I.Event} {q : Program I ε α}
    (h : p.TurnsAt R P Q) (htrace : p.Trace log q) (hR : ∃ e ∈ log, R e) :
    ∃ before e after q', log = before ++ e :: after ∧ (∀ b ∈ before, P b.1) ∧ R e ∧ Q q' ∧
      q'.Trace after q := by
  induction htrace with
  | nil p => simp at hR
  | @cons i next a log q tail ih =>
    by_cases ha : R ⟨i, a⟩
    · exact ⟨[], _, log, next a, rfl, by simp, ha, (h a).1 ha, tail⟩
    · have hlog : ∃ e ∈ log, R e := by
        simpa [ha] using hR
      rcases (h a).2 ha with ⟨hP, hturns⟩ | havoids
      · obtain ⟨before, e, after, q', rfl, hbefore, he, hq, htail⟩ := ih hturns hlog
        exact ⟨_ :: before, e, after, q', rfl, List.forall_mem_cons.mpr ⟨hP, hbefore⟩, he, hq, htail⟩
      · obtain ⟨e, he, hRe⟩ := hlog
        exact absurd hRe (havoids.trace tail e he)

end Program
end Effects
