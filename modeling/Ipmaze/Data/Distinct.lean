import Ipmaze.Data.BTreeSet

/-! Sorting a list and keeping one element for each key. On elements that are told apart by
their keys the result depends only on which elements the list has. -/
universe u v

namespace BTreeSet
variable {α : Type u} {β : Type v} [LinearOrder β] (key : α → β)

/-- The first element of each key that was not seen before, in the order of the list. -/
def distinctFrom (seen : BTreeSet β) : List α → List α
  | [] => []
  | a :: l =>
    if key a ∈ seen then distinctFrom seen l else a :: distinctFrom (seen.insert (key a)) l

variable {key}

theorem mem_of_mem_distinctFrom {seen : BTreeSet β} {l : List α} {a : α}
    (h : a ∈ distinctFrom key seen l) : a ∈ l ∧ key a ∉ seen := by
  induction l generalizing seen with
  | nil => simp [distinctFrom] at h
  | cons b l ih =>
    unfold distinctFrom at h
    split_ifs at h with hb
    · exact ⟨List.mem_cons_of_mem b (ih h).1, (ih h).2⟩
    · rcases List.mem_cons.mp h with rfl | h
      · exact ⟨List.mem_cons_self .., hb⟩
      · refine ⟨List.mem_cons_of_mem b (ih h).1, fun ha => (ih h).2 ?_⟩
        simp [ha]

/-- Every key of the list is kept once. -/
theorem exists_mem_distinctFrom {seen : BTreeSet β} {l : List α} {a : α} (ha : a ∈ l)
    (hseen : key a ∉ seen) : ∃ b ∈ distinctFrom key seen l, key b = key a := by
  induction l generalizing seen with
  | nil => simp at ha
  | cons b l ih =>
    unfold distinctFrom
    split_ifs with hb
    · rcases List.mem_cons.mp ha with rfl | ha
      · exact absurd hb hseen
      · exact ih ha hseen
    · by_cases hab : key a = key b
      · exact ⟨b, List.mem_cons_self .., hab.symm⟩
      · rcases List.mem_cons.mp ha with rfl | ha
        · exact absurd rfl hab
        · have hinsert : key a ∉ seen.insert (key b) := by simp [hab, hseen]
          obtain ⟨c, hc, he⟩ := ih ha hinsert
          exact ⟨c, List.mem_cons_of_mem b hc, he⟩

theorem distinctFrom_pairwise (seen : BTreeSet β) (l : List α) :
    (distinctFrom key seen l).Pairwise fun a b => key a ≠ key b := by
  induction l generalizing seen with
  | nil => exact .nil
  | cons b l ih =>
    unfold distinctFrom
    split_ifs with hb
    · exact ih seen
    · refine List.pairwise_cons.mpr ⟨fun a ha he => ?_, ih _⟩
      exact (mem_of_mem_distinctFrom ha).2 (by simp [he])

theorem mem_distinctFrom_empty {l : List α} (hinj : ∀ a ∈ l, ∀ b ∈ l, key a = key b → a = b)
    (a : α) : a ∈ distinctFrom key empty l ↔ a ∈ l := by
  constructor
  · exact fun h => (mem_of_mem_distinctFrom h).1
  · intro ha
    obtain ⟨b, hb, he⟩ := exists_mem_distinctFrom ha (not_mem_empty (key a))
    rwa [hinj a ha b (mem_of_mem_distinctFrom hb).1 he.symm]

section Sorted
variable [LinearOrder α]

variable (key) in
def sortDistinct (l : List α) : List α := (distinctFrom key empty l).insertionSort (· ≤ ·)

/-- Sorted by an order that refines the order of the keys, the keys increase strictly. -/
theorem sortDistinct_pairwise (hmono : Monotone key) (l : List α) :
    (sortDistinct key l).Pairwise fun a b => key a < key b := by
  have hsorted : (sortDistinct key l).Pairwise (· ≤ ·) := List.pairwise_insertionSort _ _
  have hne : (sortDistinct key l).Pairwise fun a b => key a ≠ key b :=
    (List.perm_insertionSort (· ≤ ·) _).symm.pairwise (distinctFrom_pairwise _ l) Ne.symm
  exact hsorted.imp₂ (fun a b hle hne => lt_of_le_of_ne (hmono hle) hne) hne

theorem mem_sortDistinct {l : List α} (hinj : ∀ a ∈ l, ∀ b ∈ l, key a = key b → a = b) (a : α) :
    a ∈ sortDistinct key l ↔ a ∈ l := by
  rw [sortDistinct, List.mem_insertionSort]
  exact mem_distinctFrom_empty hinj a

theorem mem_of_mem_sortDistinct {l : List α} {a : α} (h : a ∈ sortDistinct key l) : a ∈ l := by
  rw [sortDistinct, List.mem_insertionSort] at h
  exact (mem_of_mem_distinctFrom h).1

theorem exists_mem_sortDistinct {l : List α} {a : α} (ha : a ∈ l) :
    ∃ b ∈ sortDistinct key l, key b = key a := by
  obtain ⟨b, hb, he⟩ := exists_mem_distinctFrom ha (not_mem_empty (key a))
  exact ⟨b, (List.mem_insertionSort _).mpr hb, he⟩

/-- Order and repetition of the list are forgotten. -/
theorem sortDistinct_eq (hmono : Monotone key) {l m : List α}
    (hinj : ∀ a ∈ l, ∀ b ∈ l, key a = key b → a = b) (h : ∀ a, a ∈ l ↔ a ∈ m) :
    sortDistinct key l = sortDistinct key m := by
  have hinj' : ∀ a ∈ m, ∀ b ∈ m, key a = key b → a = b :=
    fun a ha b hb => hinj a ((h a).mpr ha) b ((h b).mpr hb)
  have hlt (l : List α) : (sortDistinct key l).Pairwise (· < ·) :=
    (sortDistinct_pairwise hmono l).imp fun hkey => lt_of_not_ge fun hle => (hmono hle).not_gt hkey
  refine (hlt l).eq_of_mem_iff (hlt m) fun a => ?_
  rw [mem_sortDistinct hinj, mem_sortDistinct hinj', h]

end Sorted
end BTreeSet
