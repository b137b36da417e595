import Mathlib.Data.List.Sort
import Mathlib.Tactic.Tauto

/-! Sets kept as strictly increasing lists, iterated in increasing order. -/
universe u

/-- The order of the elements is part of the value, so equal sets are equal lists. -/
structure BTreeSet (α : Type u) [LinearOrder α] where
  toList : List α
  sorted : toList.Pairwise (· < ·)

namespace BTreeSet
variable {α : Type u} [LinearOrder α]

/-- Put an element at its place unless it is there already. -/
def place (a : α) : List α → List α
  | [] => [a]
  | b :: bs => if a < b then a :: b :: bs else if b < a then b :: place a bs else b :: bs

@[simp] theorem mem_place (a x : α) (l : List α) : x ∈ place a l ↔ x = a ∨ x ∈ l := by
  induction l with
  | nil => simp [place]
  | cons b bs ih =>
    unfold place
    split_ifs with h h'
    · simp
    · simp only [List.mem_cons, ih]
      tauto
    · have hb : a = b := le_antisymm (not_lt.mp h') (not_lt.mp h)
      simp [hb]

theorem place_sorted (a : α) {l : List α} (h : l.Pairwise (· < ·)) :
    (place a l).Pairwise (· < ·) := by
  induction l with
  | nil => simp [place]
  | cons b bs ih =>
    obtain ⟨hb, hbs⟩ := List.pairwise_cons.mp h
    unfold place
    split_ifs with hlt hgt
    · refine List.pairwise_cons.mpr ⟨?_, h⟩
      intro x hx
      rcases List.mem_cons.mp hx with rfl | hx
      · exact hlt
      · exact hlt.trans (hb x hx)
    · refine List.pairwise_cons.mpr ⟨?_, ih hbs⟩
      intro x hx
      rcases (mem_place a x bs).mp hx with rfl | hx
      · exact hgt
      · exact hb x hx
    · exact h

instance : Membership α (BTreeSet α) := ⟨fun s a => a ∈ s.toList⟩

instance (a : α) (s : BTreeSet α) : Decidable (a ∈ s) := inferInstanceAs (Decidable (a ∈ s.toList))

theorem mem_toList {a : α} {s : BTreeSet α} : a ∈ s.toList ↔ a ∈ s := Iff.rfl

/-- Two strictly increasing lists with the same elements are the same list. -/
theorem ext {s t : BTreeSet α} (h : ∀ a, a ∈ s ↔ a ∈ t) : s = t := by
  obtain ⟨l, hl⟩ := s
  obtain ⟨m, hm⟩ := t
  have hlm : l = m := hl.eq_of_mem_iff hm h
  subst hlm
  rfl

def empty : BTreeSet α := ⟨[], .nil⟩

def insert (a : α) (s : BTreeSet α) : BTreeSet α := ⟨place a s.toList, place_sorted a s.sorted⟩

@[simp] theorem not_mem_empty (a : α) : a ∉ (empty : BTreeSet α) := List.not_mem_nil

@[simp] theorem mem_insert (a x : α) (s : BTreeSet α) : x ∈ s.insert a ↔ x = a ∨ x ∈ s :=
  mem_place a x s.toList

/-- The set of the elements of a list, inserted from left to right. -/
def ofList (l : List α) : BTreeSet α := l.foldl (fun s a => s.insert a) empty

theorem mem_foldl_insert (l : List α) (s : BTreeSet α) (x : α) :
    x ∈ l.foldl (fun s a => s.insert a) s ↔ x ∈ s ∨ x ∈ l := by
  induction l generalizing s with
  | nil => simp
  | cons a l ih =>
    rw [List.foldl_cons, ih, mem_insert, List.mem_cons]
    tauto

@[simp] theorem mem_ofList (l : List α) (x : α) : x ∈ ofList l ↔ x ∈ l := by
  simp [ofList, mem_foldl_insert]

end BTreeSet
