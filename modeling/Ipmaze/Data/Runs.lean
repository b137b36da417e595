import Ipmaze.Data.Regex

/-! Texts cut at separators: the runs between them, and the expression that counts the runs of a
text which begins and ends with one. -/
namespace Runs
open Regex

variable {α : Type} {p : α → Bool} {w u s v : List α} {n : ℕ}

/-- The maximal runs of symbols that are no separators. -/
def runs (p : α → Bool) (w : List α) : List (List α) := (w.splitOnP p).filter (· ≠ [])

theorem runs_of_forall (hne : u ≠ []) (hu : ∀ a ∈ u, p a = false) : runs p u = [u] := by
  simp [runs, List.splitOnP_eq_singleton hu, hne]

/-- Separators in front of a text belong to no run. -/
theorem runs_append_left (hs : ∀ a ∈ s, p a = true) (w : List α) : runs p (s ++ w) = runs p w := by
  induction s with
  | nil => rfl
  | cons a s ih =>
    obtain ⟨ha, hs⟩ := List.forall_mem_cons.mp hs
    rw [← ih hs]
    simp [runs, List.splitOnP_cons_eq_if_modifyHead, ha]

theorem runs_append (hne : u ≠ []) (hu : ∀ a ∈ u, p a = false) (hs : s ≠ [])
    (hsep : ∀ a ∈ s, p a = true) (v : List α) : runs p (u ++ (s ++ v)) = u :: runs p v := by
  cases s with
  | nil => exact absurd rfl hs
  | cons a s =>
    obtain ⟨ha, hsep⟩ := List.forall_mem_cons.mp hsep
    rw [← runs_append_left hsep v]
    simp [runs, List.splitOnP_append_cons_of_forall_mem hu a ha, hne]

/-- A text is one run, or has separators and perhaps more behind its first run. -/
theorem cases_of_head (hne : w ≠ []) (hhead : ∀ a ∈ w.head?, p a = false) :
    ∃ u, u ≠ [] ∧ (∀ a ∈ u, p a = false) ∧ (w = u ∨ ∃ s v, s ≠ [] ∧ (∀ a ∈ s, p a = true) ∧
      (∀ a ∈ v.head?, p a = false) ∧ w = u ++ (s ++ v)) := by
  have htake : ∀ a ∈ w.takeWhile (fun a => !p a), p a = false := by
    intro a ha
    simpa using List.all_eq_true.mp List.all_takeWhile a ha
  refine ⟨w.takeWhile fun a => !p a, ?_, htake, ?_⟩
  · cases w with
    | nil => exact absurd rfl hne
    | cons a w => simp [hhead a rfl]
  by_cases hrest : w.dropWhile (fun a => !p a) = []
  · left
    have happend := List.takeWhile_append_dropWhile (p := fun a => !p a) (l := w)
    rw [hrest, List.append_nil] at happend
    exact happend.symm
  · right
    generalize hdrop : w.dropWhile (fun a => !p a) = rest at hrest
    have hfirst := List.head?_dropWhile_not (fun a => !p a) w
    rw [hdrop] at hfirst
    refine ⟨rest.takeWhile p, rest.dropWhile p, ?_, List.all_eq_true.mp List.all_takeWhile, ?_, ?_⟩
    · cases rest with
      | nil => exact absurd rfl hrest
      | cons a rest => simp_all
    · intro a ha
      have hnot := List.head?_dropWhile_not p rest
      rw [Option.mem_def.mp ha] at hnot
      simpa using hnot
    · rw [List.takeWhile_append_dropWhile, ← hdrop, List.takeWhile_append_dropWhile]

/-- A run, and `n` more behind separators. -/
def separated (p : α → Bool) (n : ℕ) : Regex α :=
  seq (plus (set fun a => !p a)) (times (seq (plus (set p)) (plus (set fun a => !p a))) n)

theorem mem_separated_zero :
    w ∈ (separated p 0).language ↔ w ≠ [] ∧ ∀ a ∈ w, p a = false := by
  simp only [separated, mem_seq, mem_plus_set, mem_times_zero, Bool.not_eq_true']
  constructor
  · rintro ⟨u, hu, v, rfl, rfl⟩
    rwa [List.append_nil]
  · exact fun h => ⟨w, h, [], rfl, List.append_nil w⟩

theorem mem_separated_succ : w ∈ (separated p (n+1)).language ↔
    ∃ u s v, (u ≠ [] ∧ ∀ a ∈ u, p a = false) ∧ (s ≠ [] ∧ ∀ a ∈ s, p a = true) ∧
      v ∈ (separated p n).language ∧ w = u ++ (s ++ v) := by
  simp only [separated, mem_seq, mem_plus_set, mem_times_succ, Bool.not_eq_true']
  constructor
  · rintro ⟨u, hu, _, ⟨_, ⟨s, hs, v, hv, rfl⟩, rest, hrest, rfl⟩, rfl⟩
    exact ⟨u, s, v ++ rest, hu, hs, ⟨v, hv, rest, hrest, rfl⟩, by simp⟩
  · rintro ⟨u, s, _, hu, hs, ⟨v, hv, rest, hrest, rfl⟩, rfl⟩
    exact ⟨u, hu, _, ⟨s ++ v, ⟨s, hs, v, hv, rfl⟩, rest, hrest, rfl⟩, by simp⟩

theorem runs_ne_nil (hne : w ≠ []) (hhead : ∀ a ∈ w.head?, p a = false) : runs p w ≠ [] := by
  obtain ⟨u, hu, hrun, rfl | ⟨s, v, hs, hsep, -, rfl⟩⟩ := cases_of_head hne hhead
  · simp [runs_of_forall hu hrun]
  · simp [runs_append hu hrun hs hsep]

/-- A text that does not end with a separator has more behind each of them. -/
theorem ne_nil_of_getLast (hs : s ≠ []) (hsep : ∀ a ∈ s, p a = true)
    (hlast : ∀ a ∈ (u ++ (s ++ v)).getLast?, p a = false) :
    v ≠ [] ∧ ∀ a ∈ v.getLast?, p a = false := by
  have hne : v ≠ [] := by
    rintro rfl
    have hmem := List.getLast_mem hs
    rw [List.append_nil, List.getLast?_append_of_ne_nil _ hs,
      List.getLast?_eq_some_getLast hs] at hlast
    exact absurd (hsep _ hmem) (by simp [hlast _ rfl])
  refine ⟨hne, fun a ha => hlast a ?_⟩
  rwa [List.getLast?_append_of_ne_nil _ (by simp [hne]), List.getLast?_append_of_ne_nil _ hne]

theorem ne_nil_of_runs (h : (runs p w).length = n + 1) : w ≠ [] := by
  rintro rfl
  simp [runs] at h

/-- What matches is a text of `n+1` runs without separators at either end. -/
theorem mem_separated : w ∈ (separated p n).language ↔ (runs p w).length = n + 1 ∧
    (∀ a ∈ w.head?, p a = false) ∧ ∀ a ∈ w.getLast?, p a = false := by
  induction n generalizing w with
  | zero =>
    rw [mem_separated_zero]
    constructor
    · rintro ⟨hne, hall⟩
      rw [runs_of_forall hne hall]
      exact ⟨rfl, fun a ha => hall a (List.mem_of_mem_head? ha),
        fun a ha => hall a (List.mem_of_mem_getLast? ha)⟩
    · rintro ⟨hlength, hhead, hlast⟩
      obtain ⟨u, hu, hrun, rfl | ⟨s, v, hs, hsep, hv, rfl⟩⟩ :=
        cases_of_head (ne_nil_of_runs hlength) hhead
      · exact ⟨hu, hrun⟩
      · have hmore := runs_ne_nil (ne_nil_of_getLast hs hsep hlast).1 hv
        rw [runs_append hu hrun hs hsep, List.length_cons, Nat.add_right_cancel_iff,
          List.length_eq_zero_iff] at hlength
        exact absurd hlength hmore
  | succ n ih =>
    rw [mem_separated_succ]
    constructor
    · rintro ⟨u, s, v, ⟨hu, hrun⟩, ⟨hs, hsep⟩, hv, rfl⟩
      obtain ⟨hlength, -, hlast⟩ := ih.mp hv
      have hne : v ≠ [] := ne_nil_of_runs hlength
      refine ⟨?_, fun a ha => ?_, fun a ha => ?_⟩
      · rw [runs_append hu hrun hs hsep, List.length_cons, hlength]
      · rw [List.head?_append_of_ne_nil _ hu] at ha
        exact hrun a (List.mem_of_mem_head? ha)
      · rw [List.getLast?_append_of_ne_nil _ (by simp [hne]),
          List.getLast?_append_of_ne_nil _ hne] at ha
        exact hlast a ha
    · rintro ⟨hlength, hhead, hlast⟩
      obtain ⟨u, hu, hrun, rfl | ⟨s, v, hs, hsep, hv, rfl⟩⟩ :=
        cases_of_head (ne_nil_of_runs hlength) hhead
      · rw [runs_of_forall hu hrun] at hlength
        cases hlength
      · obtain ⟨hmore, hend⟩ := ne_nil_of_getLast hs hsep hlast
        rw [runs_append hu hrun hs hsep, List.length_cons, Nat.add_right_cancel_iff] at hlength
        exact ⟨u, s, v, ⟨hu, hrun⟩, ⟨hs, hsep⟩, ih.mpr ⟨hlength, hv, hend⟩, rfl⟩

end Runs
