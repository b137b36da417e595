import Mathlib.Data.List.DropRight
import Mathlib.Data.Nat.Notation
import Mathlib.Tactic.SplitIfs

/-! The operations of Rust's `str` that the controller uses. -/
namespace Text

/-- The Unicode property White_Space, as `char::is_whitespace` has it. -/
def isWhitespace (c : Char) : Bool :=
  let n := c.toNat
  (9 ≤ n && n ≤ 13) || n == 0x20 || n == 0x85 || n == 0xA0 || n == 0x1680 ||
    (0x2000 ≤ n && n ≤ 0x200A) || n == 0x2028 || n == 0x2029 || n == 0x202F || n == 0x205F ||
    n == 0x3000

/-- Drop whitespace at both ends. -/
def trimChars (cs : List Char) : List Char :=
  ((cs.dropWhile isWhitespace).reverse.dropWhile isWhitespace).reverse

def trim (s : String) : String := String.ofList (trimChars s.toList)

/-- The maximal runs of characters that are not whitespace. -/
def splitWhitespace (s : String) : List String :=
  ((s.toList.splitOnP isWhitespace).filter (· ≠ [])).map String.ofList

/-- The pieces between the occurrences of a separator, empty pieces included. -/
def split (s : String) (separator : Char) : List String :=
  (s.toList.splitOn separator).map String.ofList

section Trim
variable {cs : List Char} {p : Char → Bool}

theorem dropWhile_eq_self (h : ∀ c ∈ cs.head?, p c = false) : cs.dropWhile p = cs := by
  cases cs with
  | nil => rfl
  | cons c cs => simp [h c rfl]

theorem rdropWhile_append_cons {c : Char} (hc : p c = false) (cs ds : List Char) :
    (cs ++ c :: ds).rdropWhile p = cs ++ c :: ds.rdropWhile p := by
  induction ds using List.reverseRecOn with
  | nil =>
    rw [List.rdropWhile_concat_neg _ _ _ (by simp [hc])]
    rfl
  | append_singleton ds d ih =>
    rw [← List.cons_append, ← List.append_assoc, List.rdropWhile_concat, List.rdropWhile_concat]
    split_ifs
    · exact ih
    · simp

theorem trimChars_eq_self (h : ∀ c ∈ cs, isWhitespace c = false) : trimChars cs = cs := by
  have hhead : ∀ c ∈ cs.head?, isWhitespace c = false := fun c hc => h c (List.mem_of_mem_head? hc)
  change (cs.dropWhile isWhitespace).rdropWhile isWhitespace = cs
  rw [dropWhile_eq_self hhead, List.rdropWhile_eq_self_iff]
  intro hne
  simp [h _ (List.getLast_mem hne)]

/-- All that is cut from a text which begins with a word is what stands at its end. -/
theorem rdropWhile_dropWhile_append_cons (hcs : ∀ c ∈ cs, p c = false) {c : Char} (hc : p c = false)
    (ds : List Char) :
    ((cs ++ c :: ds).dropWhile p).rdropWhile p = cs ++ c :: ds.rdropWhile p := by
  have hhead : ∀ d ∈ (cs ++ c :: ds).head?, p d = false := by
    intro d hd
    cases cs with
    | nil =>
      cases hd
      exact hc
    | cons d' cs =>
      cases hd
      exact hcs d (by simp)
  rw [dropWhile_eq_self hhead, rdropWhile_append_cons hc]

theorem trimChars_trimChars (cs : List Char) : trimChars (trimChars cs) = trimChars cs := by
  have hhead : ∀ c ∈ (trimChars cs).head?, isWhitespace c = false := by
    intro c hc
    obtain ⟨ds, hds⟩ : trimChars cs <+: cs.dropWhile isWhitespace := List.rdropWhile_prefix _ _
    have hnot := List.head?_dropWhile_not isWhitespace cs
    rw [← hds, List.head?_append, Option.mem_def.mp hc] at hnot
    exact hnot
  change ((trimChars cs).dropWhile isWhitespace).rdropWhile isWhitespace = _
  rw [dropWhile_eq_self hhead]
  exact List.rdropWhile_idempotent _ _

theorem trim_trim (s : String) : trim (trim s) = trim s := by
  simp [trim, trimChars_trimChars]

end Trim

theorem forall_mem_of_splitOnP {P : Char → Prop} {p : Char → Bool} {cs : List Char}
    (hp : ∀ c, p c → P c) (h : ∀ piece ∈ cs.splitOnP p, ∀ c ∈ piece, P c) : ∀ c ∈ cs, P c := by
  induction cs with
  | nil => simp
  | cons c cs ih =>
    rw [List.splitOnP_cons_eq_if_modifyHead] at h
    split_ifs at h with hc
    · rw [List.forall_mem_cons] at h
      exact List.forall_mem_cons.mpr ⟨hp c hc, ih h.2⟩
    · cases hpieces : cs.splitOnP p with
      | nil => exact absurd hpieces (List.splitOnP_ne_nil p cs)
      | cons piece pieces =>
        rw [hpieces, List.modifyHead_cons, List.forall_mem_cons, List.forall_mem_cons] at h
        rw [hpieces, List.forall_mem_cons] at ih
        exact List.forall_mem_cons.mpr ⟨h.1.1, ih ⟨h.1.2, h.2⟩⟩

theorem forall_mem_of_splitOn {P : Char → Prop} {separator : Char} {cs : List Char}
    (hseparator : P separator) (h : ∀ piece ∈ cs.splitOn separator, ∀ c ∈ piece, P c) :
    ∀ c ∈ cs, P c := by
  refine forall_mem_of_splitOnP (fun c hc => ?_) h
  rw [beq_iff_eq.mp hc]
  exact hseparator

theorem splitOnP_congr {p q : Char → Bool} {cs : List Char} (h : ∀ c ∈ cs, p c = q c) :
    cs.splitOnP p = cs.splitOnP q := by
  induction cs with
  | nil => rfl
  | cons c cs ih =>
    rw [List.forall_mem_cons] at h
    rw [List.splitOnP_cons_eq_if_modifyHead, List.splitOnP_cons_eq_if_modifyHead, h.1, ih h.2]

/-- The length in bytes of the UTF-8 text. -/
def byteLength (s : String) : ℕ := s.toList.foldl (fun n c => n + c.utf8Size) 0

def toLowercase (s : String) : String := String.ofList (s.toList.map Char.toLower)

/-- The codes of letters. -/
theorem isAlpha_iff {c : Char} : c.isAlpha = true ↔
    (65 ≤ c.toNat ∧ c.toNat ≤ 90) ∨ (97 ≤ c.toNat ∧ c.toNat ≤ 122) := by
  have hupper : c.isUpper = true ↔ 65 ≤ c.toNat ∧ c.toNat ≤ 90 := decide_eq_true_iff
  have hlower : c.isLower = true ↔ 97 ≤ c.toNat ∧ c.toNat ≤ 122 :=
    (Bool.and_eq_true _ _).to_iff.trans (and_congr decide_eq_true_iff decide_eq_true_iff)
  change (c.isUpper || c.isLower) = true ↔ _
  rw [Bool.or_eq_true, hupper, hlower]

theorem isDigit_iff {c : Char} : c.isDigit = true ↔ 48 ≤ c.toNat ∧ c.toNat ≤ 57 :=
  (Bool.and_eq_true _ _).to_iff.trans (and_congr decide_eq_true_iff decide_eq_true_iff)

theorem isAlphanum_iff {c : Char} : c.isAlphanum = true ↔
    (65 ≤ c.toNat ∧ c.toNat ≤ 90) ∨ (97 ≤ c.toNat ∧ c.toNat ≤ 122) ∨
      (48 ≤ c.toNat ∧ c.toNat ≤ 57) := by
  change (c.isAlpha || c.isDigit) = true ↔ _
  rw [Bool.or_eq_true, isAlpha_iff, isDigit_iff, or_assoc]

section Lowercase

theorem toLower_of_not_upper {c : Char} (h : ¬ (65 ≤ c.toNat ∧ c.toNat ≤ 90)) : c.toLower = c :=
  dif_neg h

theorem toNat_toLower {c : Char} (h : 65 ≤ c.toNat ∧ c.toNat ≤ 90) :
    c.toLower.toNat = c.toNat + 32 := by
  have hval : c.toLower.val = c.val + 32 := by
    unfold Char.toLower
    rw [dif_pos (show c.val ≥ 'A'.val ∧ c.val ≤ 'Z'.val from h)]
    rfl
  have hlt : c.val.toNat ≤ 90 := h.2
  change c.toLower.val.toNat = c.val.toNat + 32
  rw [hval, UInt32.toNat_add]
  change (c.val.toNat + 32) % 4294967296 = c.val.toNat + 32
  omega

theorem toLower_toLower (c : Char) : c.toLower.toLower = c.toLower := by
  by_cases h : 65 ≤ c.toNat ∧ c.toNat ≤ 90
  · have hlower := toNat_toLower h
    exact toLower_of_not_upper (by omega)
  · rw [toLower_of_not_upper h, toLower_of_not_upper h]

theorem toLowercase_toLowercase (s : String) : toLowercase (toLowercase s) = toLowercase s := by
  have hlower : Char.toLower ∘ Char.toLower = Char.toLower := funext toLower_toLower
  simp [toLowercase, hlower]

end Lowercase

example : splitWhitespace " 0 0  * * *" = ["0", "0", "*", "*", "*"] := by decide

end Text
