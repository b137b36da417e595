import Ipmaze.Data.Checked

/-! Errors of fallible computations: which one a composition fails with is decided by the first
of its parts that fails. -/
namespace Checked
universe u
variable {ε ε' α β : Type u}

/-- The computation fails, with an error in `P`. -/
def FailsWith (P : ε → Prop) (x : Except ε α) : Prop := ∃ e, x = .error e ∧ P e

variable {P : ε → Prop}

@[simp] theorem failsWith_ok (a : α) : ¬ FailsWith P (.ok a) := by simp [FailsWith]

@[simp] theorem failsWith_error (e : ε) : FailsWith P (.error e : Except ε α) ↔ P e := by
  simp [FailsWith]

@[simp] theorem failsWith_pure (a : α) : ¬ FailsWith P (pure a : Except ε α) := failsWith_ok a

theorem failsWith_bind {x : Except ε α} {f : α → Except ε β} :
    FailsWith P (x >>= f) ↔ FailsWith P x ∨ ∃ a, x = .ok a ∧ FailsWith P (f a) := by
  cases x with
  | error e => simp [bind, Except.bind]
  | ok a => simp [bind, Except.bind]

theorem failsWith_mapError {P : ε' → Prop} {x : Except ε α} {f : ε → ε'} :
    FailsWith P (x.mapError f) ↔ FailsWith (fun e => P (f e)) x := by
  cases x <;> simp [Except.mapError]

/-- A computation succeeds if there is no kind of error it fails with. -/
theorem exists_ok_iff {γ : Type*} (kind : ε → γ) {x : Except ε α} :
    (∃ a, x = .ok a) ↔ ∀ c, ¬ FailsWith (fun e => kind e = c) x := by
  cases x <;> simp

/-- A traversal fails the way its first failing element does. -/
theorem failsWith_forM {f : α → Except ε PUnit.{u+1}} {l : List α} :
    FailsWith P (l.forM f) ↔ ∃ before a after, l = before ++ a :: after ∧
      (∀ b ∈ before, f b = .ok ⟨⟩) ∧ FailsWith P (f a) := by
  induction l with
  | nil => simp [pure, Except.pure]
  | cons a l ih =>
    have hcons : (a :: l).forM f = f a >>= fun _ => l.forM f := rfl
    rw [hcons, failsWith_bind, ih]
    constructor
    · rintro (h | ⟨⟨⟩, ha, before, b, after, rfl, hbefore, h⟩)
      · exact ⟨[], a, l, rfl, by simp, h⟩
      · exact ⟨a :: before, b, after, rfl, List.forall_mem_cons.mpr ⟨ha, hbefore⟩, h⟩
    · rintro ⟨before, b, after, hl, hbefore, h⟩
      cases before with
      | nil =>
        cases hl
        exact Or.inl h
      | cons c before =>
        cases hl
        rw [List.forall_mem_cons] at hbefore
        exact Or.inr ⟨⟨⟩, hbefore.1, before, b, after, rfl, hbefore.2, h⟩

theorem failsWith_mapM {f : α → Except ε β} {l : List α} :
    FailsWith P (l.mapM f) ↔ ∃ before a after, l = before ++ a :: after ∧
      (∀ b ∈ before, ∃ c, f b = .ok c) ∧ FailsWith P (f a) := by
  induction l with
  | nil => simp
  | cons a l ih =>
    rw [List.mapM_cons, failsWith_bind]
    simp only [failsWith_bind, failsWith_pure, and_false, exists_false, or_false, ih]
    constructor
    · rintro (h | ⟨c, ha, before, b, after, rfl, hbefore, h⟩)
      · exact ⟨[], a, l, rfl, by simp, h⟩
      · exact ⟨a :: before, b, after, rfl, List.forall_mem_cons.mpr ⟨⟨c, ha⟩, hbefore⟩, h⟩
    · rintro ⟨before, b, after, hl, hbefore, h⟩
      cases before with
      | nil =>
        cases hl
        exact Or.inl h
      | cons c before =>
        cases hl
        rw [List.forall_mem_cons] at hbefore
        obtain ⟨⟨d, hd⟩, hbefore⟩ := hbefore
        exact Or.inr ⟨d, hd, before, b, after, rfl, hbefore, h⟩

/-- Whatever the computation fails with is in `P`. -/
def FailsOnlyWith (P : ε → Prop) (x : Except ε α) : Prop := ∀ e, x = .error e → P e

@[simp] theorem failsOnlyWith_ok (a : α) : FailsOnlyWith P (.ok a : Except ε α) := by
  simp [FailsOnlyWith]

@[simp] theorem failsOnlyWith_error (e : ε) : FailsOnlyWith P (.error e : Except ε α) ↔ P e := by
  simp [FailsOnlyWith]

theorem FailsOnlyWith.bind {x : Except ε α} {f : α → Except ε β} (hx : FailsOnlyWith P x)
    (hf : ∀ a, x = .ok a → FailsOnlyWith P (f a)) : FailsOnlyWith P (x >>= f) := by
  cases x with
  | error e => exact (failsOnlyWith_error e).mpr (hx e rfl)
  | ok a => exact hf a rfl

theorem failsOnlyWith_mapM {f : α → Except ε β} {l : List α} (h : ∀ a ∈ l, FailsOnlyWith P (f a)) :
    FailsOnlyWith P (l.mapM f) := by
  induction l with
  | nil => exact failsOnlyWith_ok []
  | cons a l ih =>
    rw [List.forall_mem_cons] at h
    rw [List.mapM_cons]
    exact h.1.bind fun _ _ => (ih h.2).bind fun _ _ => failsOnlyWith_ok _

theorem failsOnlyWith_forM {f : α → Except ε PUnit.{u+1}} {l : List α}
    (h : ∀ a ∈ l, FailsOnlyWith P (f a)) : FailsOnlyWith P (l.forM f) := by
  intro e he
  have hfails : FailsWith (fun e' => e' = e) (l.forM f) := ⟨e, he, rfl⟩
  obtain ⟨before, a, after, rfl, -, e', ha, rfl⟩ := failsWith_forM.mp hfails
  exact h a (by simp) e' ha

theorem failsOnlyWith_mapError {P : ε' → Prop} {f : ε → ε'} (h : ∀ e, P (f e)) (x : Except ε α) :
    FailsOnlyWith P (x.mapError f) := by
  cases x with
  | error e => exact (failsOnlyWith_error _).mpr (h e)
  | ok a => exact failsOnlyWith_ok a

/-- Where the error says nothing that `P` depends on, failing is all there is to know. -/
theorem failsWith_const {p : Prop} {x : Except ε α} :
    FailsWith (fun _ => p) x ↔ p ∧ ∃ e, x = .error e := by
  simp [FailsWith, and_comm]

end Checked
