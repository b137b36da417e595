import Ipmaze.Data.JsonMembers

/-! JSON merge patches: an object patches the members it names, member by member; null removes a
member, and any other document takes the place of its target. -/
namespace Json

def isNull : Json → Bool
  | null => true
  | _ => false

def remove (name : String) (members : List (String × Json)) : List (String × Json) :=
  members.filter fun member => member.1 != name

/-- A member is written in its place, or last. -/
def write (name : String) (value : Json) (members : List (String × Json)) : List (String × Json) :=
  if members.any fun member => member.1 == name then
    members.map fun member => if member.1 == name then (name, value) else member
  else members ++ [(name, value)]

mutual

def mergePatch (target : Json) : Json → Json
  | object members => object (mergeMembers target.members members)
  | patch => patch

def mergeMembers (target : List (String × Json)) : List (String × Json) → List (String × Json)
  | [] => target
  | (name, value) :: rest =>
    mergeMembers (if value.isNull then remove name target
      else write name (mergePatch ((target.lookup name).getD null) value) target) rest

end

section Members
variable {members target : List (String × Json)} {name other : String} {value found : Json}

theorem mem_remove :
    (other, found) ∈ remove name members ↔ other ≠ name ∧ (other, found) ∈ members := by
  simp [remove, and_comm]

theorem mem_write : (other, found) ∈ write name value members ↔
    other = name ∧ found = value ∨ other ≠ name ∧ (other, found) ∈ members := by
  unfold write
  split
  · next hany =>
    rw [List.any_eq_true] at hany
    obtain ⟨member, hmember, hname⟩ := hany
    simp only [List.mem_map]
    constructor
    · rintro ⟨⟨name', value'⟩, hmem, heq⟩
      by_cases hname' : name' = name
      · simp only [hname', beq_self_eq_true, if_true, Prod.mk.injEq] at heq
        exact Or.inl ⟨heq.1.symm, heq.2.symm⟩
      · simp only [beq_eq_false_iff_ne.mpr hname', Bool.false_eq_true, if_false,
          Prod.mk.injEq] at heq
        obtain ⟨rfl, rfl⟩ := heq
        exact Or.inr ⟨hname', hmem⟩
    · rintro (⟨rfl, rfl⟩ | ⟨hne, hmem⟩)
      · exact ⟨member, hmember, if_pos hname⟩
      · exact ⟨_, hmem, if_neg (by simpa using hne)⟩
  · next hnone =>
    have hne (hmem : (other, found) ∈ members) : other ≠ name := by
      rintro rfl
      exact hnone (List.any_eq_true.mpr ⟨_, hmem, beq_self_eq_true _⟩)
    simp only [List.mem_append, List.mem_singleton, Prod.mk.injEq]
    constructor
    · rintro (hmem | heq)
      · exact Or.inr ⟨hne hmem, hmem⟩
      · exact Or.inl heq
    · rintro (heq | ⟨-, hmem⟩)
      · exact Or.inr heq
      · exact Or.inl hmem

/-- Members of other names are found where they were. -/
theorem lookup_filterMap_congr {f : String × Json → Option (String × Json)}
    (hkept : ∀ value, f (other, value) = some (other, value))
    (hother : ∀ member member', member.1 ≠ other → f member = some member' → member'.1 ≠ other) :
    (members.filterMap f).lookup other = members.lookup other := by
  induction members with
  | nil => rfl
  | cons member members ih =>
    obtain ⟨name', value'⟩ := member
    rw [List.lookup_cons]
    by_cases hname : name' = other
    · subst hname
      rw [List.filterMap_cons_some (hkept value'), List.lookup_cons, beq_self_eq_true]
    · have hne : (other == name') = false := beq_false_of_ne (Ne.symm hname)
      rw [hne]
      cases hf : f (name', value') with
      | none =>
        rw [List.filterMap_cons_none hf]
        exact ih
      | some member' =>
        have hne' : (other == member'.1) = false :=
          beq_false_of_ne (Ne.symm (hother _ _ hname hf))
        obtain ⟨name'', value''⟩ := member'
        rw [List.filterMap_cons_some hf, List.lookup_cons, hne']
        exact ih

theorem lookup_remove (h : other ≠ name) :
    (remove name members).lookup other = members.lookup other := by
  rw [remove, ← List.filterMap_eq_filter]
  apply lookup_filterMap_congr
  · intro value
    simp [Option.guard, h]
  · rintro member member' hne hf
    obtain ⟨rfl, -⟩ := Option.guard_eq_some_iff.mp hf
    exact hne

theorem lookup_append_other (h : other ≠ name) :
    (members ++ [(name, value)]).lookup other = members.lookup other := by
  induction members with
  | nil => simp [h]
  | cons member members ih =>
    obtain ⟨name', value'⟩ := member
    rw [List.cons_append, List.lookup_cons, List.lookup_cons, ih]

theorem lookup_write (h : other ≠ name) :
    (write name value members).lookup other = members.lookup other := by
  unfold write
  split
  · rw [← List.filterMap_eq_map]
    apply lookup_filterMap_congr
    · intro value'
      simp [h]
    · rintro member member' hne hf
      obtain rfl := Option.some.inj hf
      by_cases hname : member.1 = name
      · simpa [hname] using h.symm
      · simpa [hname] using hne
  · exact lookup_append_other h

end Members

section Merging
variable {target patch : List (String × Json)} {name : String} {value found : Json}

/-- One member of a patch. -/
def mergeMember (target : List (String × Json)) (name : String) (value : Json) :
    List (String × Json) :=
  if value.isNull then remove name target
  else write name (mergePatch ((target.lookup name).getD null) value) target

theorem mergeMembers_cons :
    mergeMembers target ((name, value) :: patch) =
      mergeMembers (mergeMember target name value) patch := by
  rw [mergeMembers, mergeMember]

theorem lookup_mergeMember {other : String} (h : other ≠ name) :
    (mergeMember target name value).lookup other = target.lookup other := by
  unfold mergeMember
  split
  · exact lookup_remove h
  · exact lookup_write h

theorem mem_mergeMember {other : String} : (other, found) ∈ mergeMember target name value ↔
    other = name ∧ value.isNull = false ∧
        found = mergePatch ((target.lookup name).getD null) value ∨
      other ≠ name ∧ (other, found) ∈ target := by
  unfold mergeMember
  split
  · next hnull => simp [mem_remove, hnull]
  · next hnull => simp [mem_write, hnull]

/-- Members that a patch does not name stay as they are. -/
theorem mem_mergeMembers_of_none (h : patch.lookup name = none) :
    (name, found) ∈ mergeMembers target patch ↔ (name, found) ∈ target := by
  induction patch generalizing target with
  | nil => rw [mergeMembers]
  | cons member patch ih =>
    obtain ⟨name', value'⟩ := member
    rw [List.lookup_cons] at h
    cases hname : name == name' with
    | true =>
      rw [hname] at h
      cases h
    | false =>
      rw [hname] at h
      have hne : name ≠ name' := ne_of_beq_false hname
      rw [mergeMembers_cons, ih h, mem_mergeMember]
      simp [hne]

theorem lookup_mergeMembers_of_none (h : patch.lookup name = none) :
    (mergeMembers target patch).lookup name = target.lookup name := by
  induction patch generalizing target with
  | nil => rw [mergeMembers]
  | cons member patch ih =>
    obtain ⟨name', value'⟩ := member
    rw [List.lookup_cons] at h
    cases hname : name == name' with
    | true =>
      rw [hname] at h
      cases h
    | false =>
      rw [hname] at h
      rw [mergeMembers_cons, ih h]
      exact lookup_mergeMember (ne_of_beq_false hname)

/-- A member that a patch names holds what the patch makes of it, or is gone. -/
theorem mem_mergeMembers_of_some (hunique : (patch.map Prod.fst).Nodup)
    (h : patch.lookup name = some value) : (name, found) ∈ mergeMembers target patch ↔
      value.isNull = false ∧ found = mergePatch ((target.lookup name).getD null) value := by
  induction patch generalizing target with
  | nil => cases h
  | cons member patch ih =>
    obtain ⟨name', value'⟩ := member
    rw [List.map_cons, List.nodup_cons] at hunique
    rw [List.lookup_cons] at h
    rw [mergeMembers_cons]
    cases hname : name == name' with
    | true =>
      rw [hname] at h
      obtain rfl := eq_of_beq hname
      obtain rfl := Option.some.inj h
      have hnone : patch.lookup name = none := by
        apply lookup_eq_none_of_forall
        intro found hmem
        exact hunique.1 (List.mem_map.mpr ⟨_, hmem, rfl⟩)
      rw [mem_mergeMembers_of_none hnone, mem_mergeMember]
      simp
    | false =>
      rw [hname] at h
      rw [ih hunique.2 h, lookup_mergeMember (ne_of_beq_false hname)]

theorem lookup_mergeMembers_of_some (hunique : (patch.map Prod.fst).Nodup)
    (h : patch.lookup name = some value) : (mergeMembers target patch).lookup name =
      if value.isNull then none else some (mergePatch ((target.lookup name).getD null) value) := by
  have hmem (found : Json) : (name, found) ∈ mergeMembers target patch ↔
      value.isNull = false ∧ found = mergePatch ((target.lookup name).getD null) value :=
    mem_mergeMembers_of_some hunique h
  split
  · next hnull => exact lookup_eq_none_of_forall fun found hfound => by simp [hmem, hnull] at hfound
  · next hnull =>
    have hnot : value.isNull = false := by simpa using hnull
    exact lookup_eq_some_of_forall ((hmem _).mpr ⟨hnot, rfl⟩)
      fun found hfound => ((hmem found).mp hfound).2

theorem countP_mergeMember_le {other : String}
    (h : target.countP (fun member => member.1 == other) ≤ 1) :
    (mergeMember target name value).countP (fun member => member.1 == other) ≤ 1 := by
  unfold mergeMember
  split
  · exact (List.filter_sublist.countP_le).trans h
  · unfold write
    split
    · rw [List.countP_map]
      refine le_of_eq_of_le (List.countP_congr fun member _ => ?_) h
      by_cases hname : member.1 = name
      · simp [hname]
      · simp [hname]
    · next hnone =>
      rw [List.countP_append]
      by_cases hname : name = other
      · subst hname
        have hzero : target.countP (fun member => member.1 == name) = 0 := by
          rw [List.countP_eq_zero]
          exact fun member hmem heq => hnone (List.any_eq_true.mpr ⟨member, hmem, heq⟩)
        simp [hzero]
      · simpa [hname] using h

/-- A patch lets no name stand twice that stood once. -/
theorem countP_mergeMembers_le (h : target.countP (fun member => member.1 == name) ≤ 1) :
    (mergeMembers target patch).countP (fun member => member.1 == name) ≤ 1 := by
  induction patch generalizing target with
  | nil => rwa [mergeMembers]
  | cons member patch ih =>
    obtain ⟨name', value'⟩ := member
    rw [mergeMembers_cons]
    exact ih (countP_mergeMember_le h)

/-- The law of a merge patch, read off its members. -/
theorem get_mergePatch_of_none {document : Json} (h : patch.lookup name = none) :
    (mergePatch document (object patch)).get name = document.get name := by
  rw [mergePatch]
  exact lookup_mergeMembers_of_none h

example : mergePatch
    (object [("a", string "b"), ("c", object [("d", string "e"), ("f", string "g")])])
    (object [("a", string "z"), ("c", object [("f", null)])]) ==
      object [("a", string "z"), ("c", object [("d", string "e")])] := by decide

end Merging

end Json
