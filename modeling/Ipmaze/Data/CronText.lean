import Ipmaze.Data.Cron

/-! The characters and the blanks of a text that reads as cron fields. -/
namespace Cron

section Pieces
variable {α β : Type} {f : α → Option β} {l : List α} {l' : List β}

theorem length_of_mapM (h : l.mapM f = some l') : l'.length = l.length := by
  induction l generalizing l' with
  | nil =>
    cases h
    rfl
  | cons a l ih =>
    rw [List.mapM_cons] at h
    obtain ⟨b, -, h⟩ := Option.bind_eq_some_iff.mp h
    obtain ⟨l'', hrest, h⟩ := Option.bind_eq_some_iff.mp h
    cases h
    rw [List.length_cons, List.length_cons, ih hrest]

theorem exists_of_mapM (h : l.mapM f = some l') : ∀ a ∈ l, ∃ b, f a = some b := by
  induction l generalizing l' with
  | nil => simp
  | cons a l ih =>
    rw [List.mapM_cons] at h
    obtain ⟨b, hb, h⟩ := Option.bind_eq_some_iff.mp h
    obtain ⟨l'', hrest, -⟩ := Option.bind_eq_some_iff.mp h
    exact List.forall_mem_cons.mpr ⟨⟨b, hb⟩, ih hrest⟩

theorem mem_of_mapM (h : l.mapM f = some l') : ∀ b ∈ l', ∃ a ∈ l, f a = some b := by
  induction l generalizing l' with
  | nil =>
    cases h
    simp
  | cons a l ih =>
    rw [List.mapM_cons] at h
    obtain ⟨b, hb, h⟩ := Option.bind_eq_some_iff.mp h
    obtain ⟨l'', hrest, h⟩ := Option.bind_eq_some_iff.mp h
    cases h
    refine List.forall_mem_cons.mpr ⟨⟨a, by simp, hb⟩, fun b' hb' => ?_⟩
    obtain ⟨a', ha', hf⟩ := ih hrest b' hb'
    exact ⟨a', List.mem_cons_of_mem a ha', hf⟩

end Pieces

section Characters
variable {cs : List Char}

def isFieldChar (c : Char) : Bool := c.isAlphanum || c == '*' || c == ',' || c == '-' || c == '/'

theorem isFieldChar_of_isAlphanum {c : Char} (h : c.isAlphanum) : isFieldChar c := by
  simp [isFieldChar, h]

theorem readNumber_chars {n : ℕ} (h : readNumber cs = some n) : ∀ c ∈ cs, isFieldChar c := by
  intro c hc
  unfold readNumber at h
  split_ifs at h with hdigits
  have hdigit := List.all_eq_true.mp hdigits.2 c hc
  exact isFieldChar_of_isAlphanum (Bool.or_eq_true_iff.mpr (Or.inr hdigit))

theorem readValue_chars {v : Value} (h : readValue cs = some v) : ∀ c ∈ cs, isFieldChar c := by
  unfold readValue at h
  split_ifs at h with hletters
  · intro c hc
    have hletter := List.all_eq_true.mp hletters.2 c hc
    exact isFieldChar_of_isAlphanum (Bool.or_eq_true_iff.mpr (Or.inl hletter))
  · obtain ⟨n, hn, -⟩ := Option.map_eq_some_iff.mp h
    exact readNumber_chars hn

theorem readBase_chars {step : Option ℕ} {item : Item} (h : readBase cs step = some item) :
    ∀ c ∈ cs, isFieldChar c := by
  unfold readBase at h
  split_ifs at h with hall
  · rw [hall]
    simp [isFieldChar]
  · apply Text.forall_mem_of_splitOn (P := fun c => isFieldChar c) (by decide : isFieldChar '-')
    split at h
    next value hpieces =>
      obtain ⟨v, hv, -⟩ := Option.map_eq_some_iff.mp h
      simpa [hpieces] using readValue_chars hv
    next low high _ hpieces =>
      obtain ⟨v, hv, h⟩ := Option.bind_eq_some_iff.mp h
      obtain ⟨v', hv', -⟩ := Option.bind_eq_some_iff.mp h
      simpa [hpieces] using ⟨readValue_chars hv, readValue_chars hv'⟩
    next => cases h

theorem readItem_chars {item : Item} (h : readItem cs = some item) : ∀ c ∈ cs, isFieldChar c := by
  apply Text.forall_mem_of_splitOn (P := fun c => isFieldChar c) (by decide : isFieldChar '/')
  unfold readItem at h
  split at h
  next => cases h
  next base steps hpieces =>
    obtain ⟨step, hstep, hbase⟩ := Option.bind_eq_some_iff.mp h
    rw [hpieces, List.forall_mem_cons]
    refine ⟨readBase_chars hbase, ?_⟩
    unfold readStep at hstep
    split at hstep
    next => simp
    next number =>
      obtain ⟨n, hn, -⟩ := Option.map_eq_some_iff.mp hstep
      simpa using readNumber_chars hn
    next => cases hstep

theorem readField_chars {field : Field} (h : readField cs = some field) :
    ∀ c ∈ cs, isFieldChar c := by
  apply Text.forall_mem_of_splitOn (P := fun c => isFieldChar c) (by decide : isFieldChar ',')
  intro piece hpiece
  obtain ⟨item, hitem⟩ := exists_of_mapM h piece hpiece
  exact readItem_chars hitem

theorem readField_ne_nil {field : Field} (h : readField cs = some field) : field ≠ [] := by
  intro h0
  have hlength := length_of_mapM h
  rw [h0] at hlength
  exact List.splitOn_ne_nil ',' cs (List.length_eq_zero_iff.mp hlength.symm)

theorem isFieldChar_bounds {c : Char} (h : isFieldChar c) : 42 ≤ c.toNat ∧ c.toNat ≤ 122 := by
  have hpunctuation {d : Char} (hd : 42 ≤ d.toNat ∧ d.toNat ≤ 122) (hc : c = d) :
      42 ≤ c.toNat ∧ c.toNat ≤ 122 := hc ▸ hd
  simp only [isFieldChar, Bool.or_eq_true, beq_iff_eq, Text.isAlphanum_iff] at h
  rcases h with (((h | h) | h) | h) | h
  · omega
  all_goals exact hpunctuation (by decide) h

theorem isWhitespace_of_isFieldChar {c : Char} (h : isFieldChar c) :
    Text.isWhitespace c = false ∧ isBlank c = false := by
  have hbounds := isFieldChar_bounds h
  refine ⟨?_, ?_⟩
  · simp only [Text.isWhitespace, Bool.or_eq_false_iff, Bool.and_eq_false_iff,
      decide_eq_false_iff_not, beq_eq_false_iff_ne]
    omega
  · have hne {d : Char} (hd : isFieldChar d = false) : c ≠ d := by
      rintro rfl
      rw [h] at hd
      cases hd
    simp [isBlank, hne (by decide : isFieldChar ' ' = false),
      hne (by decide : isFieldChar '\t' = false)]

theorem isWhitespace_of_isBlank {c : Char} (h : isBlank c) : Text.isWhitespace c = true := by
  simp only [isBlank, Bool.or_eq_true, beq_iff_eq] at h
  cases h with
  | inl h =>
    rw [h]
    decide
  | inr h =>
    rw [h]
    decide

end Characters

section Fields
variable {text : String} {fields : List Field} {e : Expr}

/-- All the whitespace of such a text are its blanks. -/
theorem isWhitespace_eq_isBlank (h : readFields text = some fields) :
    ∀ c ∈ text.toList, Text.isWhitespace c = isBlank c := by
  apply Text.forall_mem_of_splitOnP
    (P := fun c => Text.isWhitespace c = isBlank c) (p := isBlank)
  · intro c hc
    rw [isWhitespace_of_isBlank hc, hc]
  · intro piece hpiece c hc
    have hne : piece ≠ [] := List.ne_nil_of_mem hc
    have hfield : piece ∈ fieldTexts text.toList := List.mem_filter.mpr ⟨hpiece, by simpa using hne⟩
    obtain ⟨field, hread⟩ := exists_of_mapM h piece hfield
    obtain ⟨hwhitespace, hblank⟩ := isWhitespace_of_isFieldChar (readField_chars hread c hc)
    rw [hwhitespace, hblank]

theorem length_splitWhitespace (h : readFields text = some fields) :
    (Text.splitWhitespace text).length = fields.length := by
  rw [length_of_mapM h, Text.splitWhitespace, fieldTexts, List.length_map,
    Text.splitOnP_congr (isWhitespace_eq_isBlank h)]

theorem fieldTexts_zero (text : String) :
    fieldTexts ("0 " ++ text).toList = ['0'] :: fieldTexts text.toList := by
  have hchars : ("0 " ++ text).toList = '0' :: ' ' :: text.toList := by simp
  have hzero : isBlank '0' = false := by decide
  have hblank : isBlank ' ' = true := by decide
  simp [hchars, fieldTexts, List.splitOnP_cons_eq_if_modifyHead, hzero, hblank]

theorem readFields_zero (h : readFields text = some fields) :
    readFields ("0 " ++ text) = some ([.point (.number 0)] :: fields) := by
  have hzero : readField ['0'] = some [.point (.number 0)] := by decide
  unfold readFields at h ⊢
  rw [fieldTexts_zero, List.mapM_cons, hzero, h]
  rfl

theorem readFields_of_readExpr (h : readExpr text = some e) : readFields text = some e.fields := by
  unfold readExpr at h
  split at h
  next hfields =>
    cases h
    exact hfields
  next => cases h

theorem fields_ne_nil (h : readFields text = some fields) : ∀ field ∈ fields, field ≠ [] := by
  intro field hfield
  obtain ⟨piece, -, hread⟩ := mem_of_mapM h field hfield
  exact readField_ne_nil hread

end Fields
end Cron
