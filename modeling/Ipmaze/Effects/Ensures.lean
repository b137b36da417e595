import Ipmaze.Effects.Reliance

/-! What a program ensures of a state that others change as well, as far as it can rely on what they
change. Programs whose changes the others can rely on ensure together what each of them ensures. -/
namespace Effects

universe u

namespace Program
variable {I : Interface.{u}} {κ σ ε δ α β : Type u}

/-- Served under choices of `C` while others change the state by `R`, the program changes it by `G`,
and where it returns, `Q` holds from then on of what was called and answered, of the value returned
and of the state. -/
def Ensures (S : Service I κ σ) (C : I.Op → κ → Prop) (R G : σ → σ → Prop)
    (Q : List I.Event → α → σ → Prop) : Program I ε α → List I.Event → σ → Prop
  | ret a, past, s => ∀ s', R s s' → Q past a s'
  | fail _, _, _ => True
  | call i next, past, s => ∀ s', R s s' → ∀ k, C i k → G s' (S k i s').2 ∧
    (next (S k i s').1).Ensures S C R G Q (past ++ [⟨i, (S k i s').1⟩]) (S k i s').2

section Composition
variable {S : Service I κ σ} {C : I.Op → κ → Prop} {R G : σ → σ → Prop}
variable {Q Q' : List I.Event → α → σ → Prop} {p : Program I ε α} {past : List I.Event} {s : σ}

theorem ensures_ofExcept {r : Except ε α} (h : ∀ a, r = .ok a → ∀ s', R s s' → Q past a s') :
    (ofExcept r : Program I ε α).Ensures S C R G Q past s := by
  cases r with
  | error e => trivial
  | ok a => exact h a rfl

theorem Ensures.mono (h : p.Ensures S C R G Q past s) (hQ : ∀ past a s, Q past a s → Q' past a s) :
    p.Ensures S C R G Q' past s := by
  induction p generalizing past s with
  | ret a => exact fun s' hs => hQ _ _ _ (h s' hs)
  | fail e => trivial
  | call i next ih => exact fun s' hs k hk => ⟨(h s' hs k hk).1, ih _ (h s' hs k hk).2⟩

theorem Ensures.bind {Q' : List I.Event → β → σ → Prop} {f : α → Program I ε β}
    (hrefl : ∀ s, R s s) (hp : p.Ensures S C R G Q past s)
    (hf : ∀ past a s, Q past a s → (f a).Ensures S C R G Q' past s) :
    (p >>= f).Ensures S C R G Q' past s := by
  induction p generalizing past s with
  | ret a => exact hf _ _ _ (hp s (hrefl s))
  | fail e => trivial
  | call i next ih => exact fun s' hs k hk => ⟨(hp s' hs k hk).1, ih _ (hp s' hs k hk).2⟩

theorem Ensures.mapError (h : p.Ensures S C R G Q past s) (f : ε → δ) :
    (p.mapError f).Ensures S C R G Q past s := by
  induction p generalizing past s with
  | ret a => exact h
  | fail e => trivial
  | call i next ih => exact fun s' hs k hk => ⟨(h s' hs k hk).1, ih _ (h s' hs k hk).2⟩

/-- What a program ensures it ensures of every state that others may have brought about. -/
theorem Ensures.rely (htrans : ∀ s s' s'', R s s' → R s' s'' → R s s'')
    (h : p.Ensures S C R G Q past s) {s' : σ} (hs : R s s') : p.Ensures S C R G Q past s' := by
  cases p with
  | ret a => exact fun s'' hs' => h s'' (htrans _ _ _ hs hs')
  | fail e => trivial
  | call i next => exact fun s'' hs' => h s'' (htrans _ _ _ hs hs')

/-- What has been called and answered before stays on record. -/
theorem Ensures.extends (h : p.Ensures S C R G Q past s) :
    p.Ensures S C R G (fun log a s' => Q log a s' ∧ past <+: log) past s := by
  induction p generalizing past s with
  | ret a => exact fun s' hs => ⟨h s' hs, List.prefix_rfl⟩
  | fail e => trivial
  | call i next ih =>
    intro s' hs k hk
    refine ⟨(h s' hs k hk).1, (ih _ (h s' hs k hk).2).mono fun log a s'' hlog => ?_⟩
    exact ⟨hlog.1, (List.prefix_append ..).trans hlog.2⟩

/-- A program of calls that change the state by `G` keeps what they and others keep. It returns at
the end of one of its paths, which is answered as these calls are. -/
theorem Makes.ensures {P : I.Op → Prop} {A : I.Event → Prop} {J : σ → Prop} (h : p.Makes P)
    (hcall : ∀ k i s, P i → C i k → J s →
      A ⟨i, (S k i s).1⟩ ∧ G s (S k i s).2 ∧ J (S k i s).2)
    (hothers : ∀ s s', R s s' → J s → J s') (hs : J s) :
    p.Ensures S C R G (fun log a s' => J s' ∧ ∃ l, log = past ++ l ∧ p.Trace l (ret a) ∧
      ∀ e ∈ l, A e) past s := by
  induction p generalizing past s with
  | ret a =>
    exact fun s' hs' => ⟨hothers s s' hs' hs, [], (List.append_nil past).symm, .nil _, by simp⟩
  | fail e => trivial
  | call i next ih =>
    intro s' hs' k hk
    obtain ⟨hanswer, hchange, hkept⟩ := hcall k i s' h.1 hk (hothers s s' hs' hs)
    refine ⟨hchange, (ih _ (h.2 _) hkept).mono fun log a s'' hlog => ?_⟩
    obtain ⟨hs'', l, rfl, htrace, hanswers⟩ := hlog
    refine ⟨hs'', _, by rw [List.append_assoc]; rfl, .cons htrace, ?_⟩
    exact List.forall_mem_cons.mpr ⟨hanswer, hanswers⟩

/-- A program that fails in the end ensures anything. -/
theorem Makes.ensures_bind_fail {P : I.Op → Prop} {p : Program I ε β} (h : p.Makes P)
    (hcall : ∀ k i s, P i → C i k → G s (S k i s).2) (e : ε) :
    (p >>= fun _ => (fail e : Program I ε α)).Ensures S C R G Q past s := by
  induction p generalizing past s with
  | ret b => trivial
  | fail e => trivial
  | call i next ih => exact fun s' _ k hk => ⟨hcall k i s' h.1 hk, ih _ (h.2 _)⟩

/-- Calls that are answered alike lead to the same value. -/
theorem Trace.ret_unique {P : I.Op → Prop} {A : I.Event → Prop} (hp : p.Makes P)
    (hA : ∀ i a b, P i → A ⟨i, a⟩ → A ⟨i, b⟩ → a = b) {l l' : List I.Event} {a b : α}
    (h : p.Trace l (ret a)) (h' : p.Trace l' (ret b)) (hl : ∀ e ∈ l, A e) (hl' : ∀ e ∈ l', A e) :
    a = b := by
  induction p generalizing l l' with
  | ret c =>
    cases h
    cases h'
    rfl
  | fail e => exact absurd h.fail_inv.2 (by simp)
  | call i next ih =>
    rcases h.call_inv with ⟨-, he⟩ | ⟨answer, rest, rfl, tail⟩
    · cases he
    rcases h'.call_inv with ⟨-, he⟩ | ⟨answer', rest', rfl, tail'⟩
    · cases he
    rw [List.forall_mem_cons] at hl hl'
    obtain rfl := hA i answer answer' hp.1 hl.1 hl'.1
    exact ih answer (hp.2 answer) tail tail' hl.2 hl'.2

end Composition
end Program

namespace Pool
variable {I : Interface.{u}} {τ η : Type*} {κ σ ε α : Type u} [DecidableEq τ]
variable {S : Service I κ σ} {act : η → σ → σ} {C : I.Op → κ → Prop} {R G : τ → σ → σ → Prop}
variable {Q : τ → List I.Event → α → σ → Prop}

/-- Moves under choices that are open to every call are open to a pool. -/
theorem along_of_choices {P : Pool I τ σ ε α} {ms : List (Move τ κ η)}
    (h : ∀ t k, Move.serve t k ∈ ms → ∀ i, C i k) : Along (Pool.step S act) (Admits C) P ms := by
  induction ms generalizing P with
  | nil => trivial
  | cons m ms ih =>
    refine ⟨?_, ih fun t k hk => h t k (List.mem_cons_of_mem _ hk)⟩
    cases m with
    | other a => trivial
    | serve t k => exact fun i _ _ => h t k List.mem_cons_self i

/-- What each thread ensures from here on. -/
def Ensured (S : Service I κ σ) (C : I.Op → κ → Prop) (R G : τ → σ → σ → Prop)
    (Q : τ → List I.Event → α → σ → Prop) (P : Pool I τ σ ε α) : Prop :=
  ∀ t, (P.threads t).Ensures S C (R t) (G t) (Q t) (P.logs t) P.state

theorem Ensured.step (hrefl : ∀ t s, R t s s)
    (htrans : ∀ t s s' s'', R t s s' → R t s' s'' → R t s s'')
    (hothers : ∀ t u, u ≠ t → ∀ s s', G t s s' → R u s s') (hact : ∀ a s t, R t s (act a s))
    {P : Pool I τ σ ε α} (h : P.Ensured S C R G Q) {m : Move τ κ η} (hm : P.Admits C m) :
    (step S act P m).Ensured S C R G Q := by
  cases m with
  | other a => exact fun t => (h t).rely (htrans t) (hact a P.state t)
  | serve t k =>
    rcases step_serve_cases S act P t k with he | ⟨i, next, ht⟩
    · rw [he]
      exact h
    · have hcall := h t
      rw [ht] at hcall
      obtain ⟨hchange, hnext⟩ := hcall P.state (hrefl t P.state) k (hm i next ht)
      rw [step_serve_call ht]
      intro u
      by_cases hu : u = t
      · subst hu
        simpa using hnext
      · simpa [Function.update_of_ne hu] using
          (h u).rely (htrans u) (hothers t u hu _ _ hchange)

/-- Threads that the others can rely on ensure together what each of them ensures. -/
theorem Ensured.exec (hrefl : ∀ t s, R t s s)
    (htrans : ∀ t s s' s'', R t s s' → R t s' s'' → R t s s'')
    (hothers : ∀ t u, u ≠ t → ∀ s s', G t s s' → R u s s') (hact : ∀ a s t, R t s (act a s))
    {P : Pool I τ σ ε α} (h : P.Ensured S C R G Q) {ms : List (Move τ κ η)}
    (hms : Along (Pool.step S act) (Admits C) P ms) : (exec S act P ms).Ensured S C R G Q :=
  hms.invariant (fun _ _ hP hm => hP.step hrefl htrans hothers hact hm) h

omit [DecidableEq τ] in
/-- A thread that has returned has left what it ensures. -/
theorem Ensured.returned (hrefl : ∀ t s, R t s s) {P : Pool I τ σ ε α}
    (h : P.Ensured S C R G Q) {t : τ} {a : α} (ht : P.threads t = .ret a) :
    Q t (P.logs t) a P.state := by
  have hreturned := h t
  rw [ht] at hreturned
  exact hreturned P.state (hrefl t P.state)

end Pool
end Effects
