import Ipmaze.Data.IpAddr
import Mathlib.Tactic.IntervalCases
import Mathlib.Tactic.NormNum

/-! The texts of addresses and networks, and what the address parser makes of them. -/
namespace IpAddr

section Digits
variable {radix : ℕ}

def digitValue (radix : ℕ) (cs : List Char) : ℕ :=
  cs.foldl (fun n c => radix*n + (toDigit radix c).getD 0) 0

theorem digitValue_append (cs : List Char) (c : Char) :
    digitValue radix (cs ++ [c]) = radix * digitValue radix cs + (toDigit radix c).getD 0 := by
  simp [digitValue]

theorem toDigit_digitChar {d : ℕ} (hd : d < radix) (hradix : radix ≤ 16) :
    toDigit radix d.digitChar = some d := by
  have h16 : d < 16 := by omega
  interval_cases d <;> simp [toDigit, Nat.digitChar] <;> omega

def NoDigit (radix : ℕ) (s : List Char) : Prop := ∀ c ∈ s.head?, toDigit radix c = none

/-- The digits of a number read back as that number. -/
theorem digits_toDigits (h1 : 1 < radix) (hradix : radix ≤ 16) (n : ℕ) :
    (∀ c ∈ Nat.toDigits radix n, (toDigit radix c).isSome) ∧
      digitValue radix (Nat.toDigits radix n) = n := by
  induction n using Nat.strongRecOn with
  | ind n ih =>
    rw [Nat.toDigits_eq_if h1]
    split_ifs with hn
    · simp [digitValue, toDigit_digitChar hn hradix]
    · have hlt : n % radix < radix := Nat.mod_lt _ (by omega)
      obtain ⟨hall, hvalue⟩ := ih (n / radix) (Nat.div_lt_self (by omega) h1)
      refine ⟨?_, ?_⟩
      · intro c hc
        rcases List.mem_append.mp hc with hc | hc
        · exact hall c hc
        · rw [List.mem_singleton.mp hc, toDigit_digitChar hlt hradix]
          rfl
      · rw [digitValue_append, hvalue, toDigit_digitChar hlt hradix]
        exact Nat.div_add_mod n radix

theorem notMem_toDigits (h1 : 1 < radix) (hradix : radix ≤ 16) {c : Char}
    (hc : toDigit radix c = none) (n : ℕ) : c ∉ Nat.toDigits radix n := by
  intro hmem
  have hsome := (digits_toDigits h1 hradix n).1 c hmem
  rw [hc] at hsome
  cases hsome

theorem head_toDigits (h1 : 1 < radix) {n : ℕ} (hn : 0 < n) (hradix : radix ≤ 16) :
    (Nat.toDigits radix n).head? ≠ some '0' := by
  induction n using Nat.strongRecOn with
  | ind n ih =>
    rw [Nat.toDigits_eq_if h1]
    split_ifs with hlt
    · have h16 : n < 16 := by omega
      interval_cases n <;> simp [Nat.digitChar]
    · rw [List.head?_append_of_ne_nil _ Nat.toDigits_ne_nil]
      exact ih (n / radix) (Nat.div_lt_self hn h1) (Nat.div_pos (by omega) (by omega))

theorem takeWhile_digits {cs rest : List Char} (hcs : ∀ c ∈ cs, (toDigit radix c).isSome)
    (hrest : NoDigit radix rest) :
    (cs ++ rest).takeWhile (fun c => (toDigit radix c).isSome) = cs := by
  rw [List.takeWhile_append_of_pos hcs]
  cases rest with
  | nil => simp
  | cons c rest =>
    have hc : toDigit radix c = none := hrest c rfl
    simp [hc]

theorem readNumber_toDigits (h1 : 1 < radix) (hradix : radix ≤ 16) {n maxDigits bound : ℕ}
    (hmax : 0 < maxDigits) (hlen : n < radix ^ maxDigits) (hbound : n ≤ bound)
    (allowZeroPrefix : Bool) {rest : List Char} (hrest : NoDigit radix rest) :
    readNumber radix maxDigits bound allowZeroPrefix (Nat.toDigits radix n ++ rest) =
      some (n, rest) := by
  obtain ⟨hall, hvalue⟩ := digits_toDigits h1 hradix n
  have hdigits := takeWhile_digits hall hrest
  have hpos : (Nat.toDigits radix n).length ≠ 0 := Nat.length_toDigits_pos.ne'
  have hle := (Nat.length_toDigits_le_iff h1 hmax).mpr hlen
  have hzero : ¬ ((Nat.toDigits radix n ++ rest).head? = some '0' ∧
      1 < (Nat.toDigits radix n).length) := by
    rintro ⟨hhead, hlong⟩
    rw [List.head?_append_of_ne_nil _ Nat.toDigits_ne_nil] at hhead
    rcases Nat.eq_zero_or_pos n with rfl | hn
    · simp at hlong
    · exact head_toDigits h1 hn hradix hhead
  unfold digitValue at hvalue
  simp only [readNumber, hdigits, hvalue]
  rw [if_neg (by omega), if_neg (by simpa using fun _ => hzero), if_neg (by omega),
    List.drop_left]

/-- What a number that was read looked like. -/
theorem readNumber_eq_some {maxDigits bound n : ℕ} {allowZeroPrefix : Bool}
    {s rest : List Char}
    (h : readNumber radix maxDigits bound allowZeroPrefix s = some (n, rest)) :
    ∃ cs, s = cs ++ rest ∧ cs ≠ [] ∧ (∀ c ∈ cs, (toDigit radix c).isSome) ∧
      n = digitValue radix cs ∧ n ≤ bound ∧ NoDigit radix rest ∧
      (allowZeroPrefix = false → cs.head? = some '0' → cs.length = 1) := by
  have hs : s.takeWhile (fun c => (toDigit radix c).isSome) ++
      s.dropWhile (fun c => (toDigit radix c).isSome) = s := List.takeWhile_append_dropWhile
  have hhead := List.head?_dropWhile_not (fun c => (toDigit radix c).isSome) s
  have hall : ∀ c ∈ s.takeWhile (fun c => (toDigit radix c).isSome), (toDigit radix c).isSome :=
    List.all_eq_true.mp List.all_takeWhile
  generalize s.takeWhile (fun c => (toDigit radix c).isSome) = cs at hs hall
  generalize s.dropWhile (fun c => (toDigit radix c).isSome) = tail at hs hhead
  have hnotail : NoDigit radix tail := by
    intro c hc
    rw [Option.mem_def.mp hc] at hhead
    simpa using hhead
  subst hs
  unfold readNumber at h
  simp only [takeWhile_digits hall hnotail, List.drop_left] at h
  split_ifs at h with hlength hzero hbound
  simp only [Option.some.injEq, Prod.mk.injEq] at h
  obtain ⟨rfl, rfl⟩ := h
  refine ⟨cs, rfl, ?_, hall, rfl, not_lt.mp hbound, hnotail, ?_⟩
  · rintro rfl
    simp at hlength
  · rintro rfl hhead
    have hne : cs ≠ [] := by
      rintro rfl
      simp at hlength
    rw [List.head?_append_of_ne_nil _ hne] at hzero
    simp only [hhead, Bool.not_false, Bool.true_and, beq_self_eq_true, decide_eq_true_eq] at hzero
    have hpos := List.length_pos_iff.mpr hne
    omega

theorem toDigit_ten {c : Char} {d : ℕ} (h : toDigit 10 c = some d) : d < 10 ∧ d.digitChar = c := by
  have hdigit : 48 ≤ c.toNat ∧ c.toNat ≤ 57 ∧ d = c.toNat - 48 := by
    unfold toDigit at h
    simp only [Option.ite_none_right_eq_some, Option.some.injEq] at h
    split_ifs at h <;> omega
  refine ⟨by omega, Char.toNat_inj.mp ?_⟩
  rw [Nat.toNat_digitChar_of_lt_ten (by omega)]
  omega

/-- Without superfluous zeros the decimal digits of a number are determined by it. -/
theorem toDigits_digitValue {cs : List Char} (hne : cs ≠ [])
    (hall : ∀ c ∈ cs, (toDigit 10 c).isSome) (hzero : cs.head? = some '0' → cs.length = 1) :
    Nat.toDigits 10 (digitValue 10 cs) = cs := by
  induction cs using List.reverseRecOn with
  | nil => exact absurd rfl hne
  | append_singleton cs c ih =>
    obtain ⟨d, hd⟩ := Option.isSome_iff_exists.mp (hall c (by simp))
    obtain ⟨hlt, hchar⟩ := toDigit_ten hd
    rw [digitValue_append, hd, Option.getD_some]
    by_cases hcs : cs = []
    · subst hcs
      simp [digitValue, Nat.toDigits_of_lt_base hlt, hchar]
    · rw [List.head?_append_of_ne_nil _ hcs] at hzero
      have hlength : (cs ++ [c]).length ≠ 1 := by
        simpa using hcs
      have hhead : cs.head? ≠ some '0' := fun h => hlength (hzero h)
      have hih := ih hcs (fun c hc => hall c (List.mem_append_left _ hc)) fun h => absurd h hhead
      have hpos : 0 < digitValue 10 cs := by
        refine Nat.pos_of_ne_zero fun h0 => hhead ?_
        rw [h0] at hih
        rw [← hih]
        rfl
      rw [← Nat.toDigits_append_toDigits (by omega) hpos hlt, hih,
        Nat.toDigits_of_lt_base hlt, hchar]

end Digits

section V4

/-- Four numbers in decimal, separated by dots. -/
def dotted (a b c d : ℕ) : List Char :=
  Nat.toDigits 10 a ++ '.' :: (Nat.toDigits 10 b ++ '.' :: (Nat.toDigits 10 c ++
    '.' :: Nat.toDigits 10 d))

theorem noDigit_cons {radix : ℕ} {c : Char} (h : toDigit radix c = none) (rest : List Char) :
    NoDigit radix (c :: rest) := by
  intro c' hc'
  cases hc'
  exact h

theorem readOctet_toDigits {n : ℕ} (h : n ≤ 255) {rest : List Char} (hrest : NoDigit 10 rest) :
    readOctet (Nat.toDigits 10 n ++ rest) = some (n, rest) :=
  readNumber_toDigits (by omega) (by omega) (by omega) (by omega) h false hrest

theorem readOctet_eq_some {n : ℕ} {s rest : List Char} (h : readOctet s = some (n, rest)) :
    n ≤ 255 ∧ s = Nat.toDigits 10 n ++ rest ∧ NoDigit 10 rest := by
  obtain ⟨cs, rfl, hne, hall, rfl, hbound, hrest, hzero⟩ := readNumber_eq_some h
  rw [toDigits_digitValue hne hall (hzero rfl)]
  exact ⟨hbound, rfl, hrest⟩

theorem readSeparator_eq_some {α : Type} {separator : Char} {index : ℕ} (hindex : index ≠ 0)
    {inner : List Char → Option (α × List Char)} {s : List Char} {r : α × List Char} :
    readSeparator separator index inner s = some r ↔
      ∃ rest, s = separator :: rest ∧ inner rest = some r := by
  unfold readSeparator
  rw [if_neg hindex]
  cases s with
  | nil => simp
  | cons c rest =>
    by_cases hc : c = separator
    · simp [hc]
    · simp [hc]

theorem readIpv4Addr_dotted {a b c d : ℕ} (ha : a ≤ 255) (hb : b ≤ 255) (hc : c ≤ 255)
    (hd : d ≤ 255) {rest : List Char} (hrest : NoDigit 10 rest) :
    readIpv4Addr (dotted a b c d ++ rest) = some ([a, b, c, d], rest) := by
  have hdot (s : List Char) : NoDigit 10 ('.' :: s) := noDigit_cons rfl s
  simp only [dotted, readIpv4Addr, List.append_assoc, List.cons_append, readSeparator, if_true,
    readOctet_toDigits ha (hdot _), readOctet_toDigits hb (hdot _), readOctet_toDigits hc (hdot _),
    readOctet_toDigits hd hrest, one_ne_zero, if_false, OfNat.ofNat_ne_zero, Option.bind_eq_bind,
    Option.bind_some, Option.pure_def]

theorem readIpv4Addr_eq_some {os : List ℕ} {s rest : List Char}
    (h : readIpv4Addr s = some (os, rest)) : ∃ a b c d, a ≤ 255 ∧ b ≤ 255 ∧ c ≤ 255 ∧ d ≤ 255 ∧
      os = [a, b, c, d] ∧ s = dotted a b c d ++ rest := by
  unfold readIpv4Addr at h
  simp only [Option.bind_eq_bind, Option.bind_eq_some_iff, Prod.exists, Option.pure_def,
    Option.some.injEq, Prod.mk.injEq] at h
  obtain ⟨a, s₁, ha, b, s₂, hb, c, s₃, hc, d, s₄, hd, rfl, rfl⟩ := h
  simp only [readSeparator, if_true] at ha
  obtain ⟨t₁, rfl, hb⟩ := (readSeparator_eq_some (by omega)).mp hb
  obtain ⟨t₂, rfl, hc⟩ := (readSeparator_eq_some (by omega)).mp hc
  obtain ⟨t₃, rfl, hd⟩ := (readSeparator_eq_some (by omega)).mp hd
  obtain ⟨ha', rfl, -⟩ := readOctet_eq_some ha
  obtain ⟨hb', rfl, -⟩ := readOctet_eq_some hb
  obtain ⟨hc', rfl, -⟩ := readOctet_eq_some hc
  obtain ⟨hd', rfl, -⟩ := readOctet_eq_some hd
  exact ⟨a, b, c, d, ha', hb', hc', hd', rfl, by simp [dotted]⟩

/-- The text of an IPv4 address. -/
def v4Text (bits : BitVec 32) : List Char :=
  dotted (bits.toNat / 16777216) (bits.toNat / 65536 % 256) (bits.toNat / 256 % 256)
    (bits.toNat % 256)

theorem readIpv4Addr_v4Text (bits : BitVec 32) {rest : List Char} (hrest : NoDigit 10 rest) :
    ∃ os, readIpv4Addr (v4Text bits ++ rest) = some (os, rest) ∧ ofOctets os = v4 bits := by
  have hlt := bits.isLt
  refine ⟨_, readIpv4Addr_dotted (by omega) (by omega) (by omega) (by omega) hrest, ?_⟩
  simp only [ofOctets, List.foldl_cons, List.foldl_nil, v4.injEq]
  apply BitVec.eq_of_toNat_eq
  rw [BitVec.toNat_ofNat]
  omega

theorem v4Text_ofOctets {a b c d : ℕ} (ha : a ≤ 255) (hb : b ≤ 255) (hc : c ≤ 255)
    (hd : d ≤ 255) {bits : BitVec 32} (h : ofOctets [a, b, c, d] = v4 bits) :
    v4Text bits = dotted a b c d := by
  simp only [ofOctets, List.foldl_cons, List.foldl_nil, v4.injEq] at h
  have hnat : bits.toNat = 16777216*a + 65536*b + 256*c + d := by
    rw [← h, BitVec.toNat_ofNat]
    omega
  rw [v4Text, hnat]
  congr 1 <;> omega

/-- The address parser takes exactly one text for an IPv4 address. -/
theorem fromStr_eq_v4_iff {text : String} {bits : BitVec 32} :
    fromStr text = some (v4 bits) ↔ text.toList = v4Text bits := by
  constructor
  · intro h
    unfold fromStr at h
    cases hread : readIpv4Addr text.toList with
    | none =>
      simp only [hread] at h
      split at h
      · simp [ofGroups] at h
      · cases h
    | some r =>
      obtain ⟨os, rest⟩ := r
      simp only [hread, Option.ite_none_right_eq_some, Option.some.injEq] at h
      obtain ⟨rfl, h⟩ := h
      obtain ⟨a, b, c, d, ha, hb, hc, hd, rfl, hs⟩ := readIpv4Addr_eq_some hread
      rw [v4Text_ofOctets ha hb hc hd h, hs, List.append_nil]
  · intro h
    have hend : NoDigit 10 [] := by simp [NoDigit]
    obtain ⟨os, hread, hos⟩ := readIpv4Addr_v4Text bits hend
    rw [List.append_nil, ← h] at hread
    simp [fromStr, hread, hos]

end V4

section V6

/-- Groups in hexadecimal, each preceded by a colon except the first of all. -/
def groupText (index : ℕ) : List ℕ → List Char
  | [] => []
  | g :: gs => (if index = 0 then [] else [':']) ++ Nat.toDigits 16 g ++ groupText (index+1) gs

theorem noDigit_groupText (index : ℕ) (gs : List ℕ) : NoDigit 16 (groupText (index+1) gs) := by
  cases gs with
  | nil => simp [groupText, NoDigit]
  | cons g gs => exact noDigit_cons rfl _

theorem notMem_groupText {c : Char} (hc : toDigit 16 c = none) (hcolon : c ≠ ':') (index : ℕ)
    (gs : List ℕ) : c ∉ groupText index gs := by
  induction gs generalizing index with
  | nil => simp [groupText]
  | cons g gs ih =>
    simp only [groupText, List.mem_append, not_or]
    refine ⟨⟨?_, notMem_toDigits (by omega) (by omega) hc g⟩, ih _⟩
    split_ifs <;> simp [hcolon]

/-- Nothing without a dot reads as an IPv4 address. -/
theorem readIpv4Addr_of_notMem {s : List Char} (h : '.' ∉ s) : readIpv4Addr s = none := by
  rw [Option.eq_none_iff_forall_ne_some]
  rintro ⟨os, rest⟩ hread
  obtain ⟨a, b, c, d, -, -, -, -, -, rfl⟩ := readIpv4Addr_eq_some hread
  simp [dotted] at h

theorem readGroups_groupText (index : ℕ) {gs : List ℕ} (h : ∀ g ∈ gs, g ≤ 65535) :
    readGroups index gs.length (groupText index gs) = (gs, false, []) := by
  induction gs generalizing index with
  | nil => rfl
  | cons g gs ih =>
    rw [List.forall_mem_cons] at h
    have hv4 : readSeparator ':' index readIpv4Addr (groupText index (g :: gs)) = none := by
      rw [Option.eq_none_iff_forall_ne_some]
      intro r hr
      have hdot : '.' ∉ groupText index (g :: gs) := notMem_groupText rfl (by decide) index _
      by_cases hindex : index = 0
      · subst hindex
        simp only [readSeparator, if_true, readIpv4Addr_of_notMem hdot] at hr
        cases hr
      · obtain ⟨rest, hs, hread⟩ := (readSeparator_eq_some hindex).mp hr
        rw [hs, List.mem_cons, not_or] at hdot
        rw [readIpv4Addr_of_notMem hdot.2] at hread
        cases hread
    have hread : readSeparator ':' index (readNumber 16 4 65535 true) (groupText index (g :: gs)) =
        some (g, groupText (index+1) gs) := by
      have hnumber : readNumber 16 4 65535 true (Nat.toDigits 16 g ++ groupText (index+1) gs) =
          some (g, groupText (index+1) gs) :=
        readNumber_toDigits (by omega) (by omega) (by omega) (by omega) h.1 true
          (noDigit_groupText index gs)
      by_cases hindex : index = 0
      · simpa [readSeparator, groupText, hindex] using hnumber
      · rw [readSeparator_eq_some hindex]
        exact ⟨_, by simp [groupText, hindex], hnumber⟩
    rw [List.length_cons, readGroups, hv4]
    simp only [ite_self, hread, ih (index+1) h.2]

/-- The eight groups of an IPv6 address, the most significant one first. -/
def groups (bits : BitVec 128) : List ℕ :=
  (List.range 8).map fun i => bits.toNat / 65536^(7-i) % 65536

theorem ofGroups_groups (bits : BitVec 128) : ofGroups (groups bits) = v6 bits := by
  have hlt := bits.isLt
  simp only [groups, List.range, List.range.loop, List.map_cons, List.map_nil, ofGroups,
    List.foldl_cons, List.foldl_nil, v6.injEq]
  apply BitVec.eq_of_toNat_eq
  rw [BitVec.toNat_ofNat]
  norm_num
  omega

def v6Text (bits : BitVec 128) : List Char := groupText 0 (groups bits)

theorem readIpv6Addr_v6Text (bits : BitVec 128) :
    readIpv6Addr (v6Text bits) = some (groups bits, []) := by
  have hle : ∀ g ∈ groups bits, g ≤ 65535 := by
    intro g hg
    obtain ⟨i, -, rfl⟩ := List.mem_map.mp hg
    exact Nat.le_of_lt_succ (Nat.mod_lt _ (by omega))
  have hlength : (groups bits).length = 8 := by simp [groups]
  have hread := readGroups_groupText 0 hle
  rw [hlength] at hread
  simp [readIpv6Addr, v6Text, hread, hlength]

end V6

section Spelling

/-- What the text of an address is made of. -/
def IsAddressChar (c : Char) : Prop := c = ':' ∨ c = '.' ∨ (toDigit 16 c).isSome

theorem isSome_toDigit_sixteen {c : Char} (h : (toDigit 10 c).isSome) : (toDigit 16 c).isSome := by
  obtain ⟨d, hd⟩ := Option.isSome_iff_exists.mp h
  obtain ⟨hlt, rfl⟩ := toDigit_ten hd
  rw [toDigit_digitChar (by omega) (by omega)]
  rfl

theorem isAddressChar_dotted (a b c d : ℕ) : ∀ ch ∈ dotted a b c d, IsAddressChar ch := by
  have hdigits (n : ℕ) : ∀ ch ∈ Nat.toDigits 10 n, IsAddressChar ch := by
    intro ch hch
    have hdecimal : (toDigit 10 ch).isSome := (digits_toDigits (by omega) (by omega) n).1 ch hch
    exact Or.inr (Or.inr (isSome_toDigit_sixteen hdecimal))
  have hdot : IsAddressChar '.' := Or.inr (Or.inl rfl)
  simp only [dotted, List.forall_mem_append, List.forall_mem_cons]
  exact ⟨hdigits a, hdot, hdigits b, hdot, hdigits c, hdot, hdigits d⟩

/-- What precedes an item of this index. -/
def mark (index : ℕ) : List Char := if index = 0 then [] else [':']

theorem isAddressChar_mark (index : ℕ) : ∀ c ∈ mark index, IsAddressChar c := by
  intro c hc
  unfold mark at hc
  split_ifs at hc
  · cases hc
  · exact Or.inl (List.mem_singleton.mp hc)

theorem count_mark (index : ℕ) : (mark index).count ':' + (if index = 0 then 1 else 0) = 1 := by
  unfold mark
  split_ifs <;> simp

theorem readSeparator_consumes {α : Type} {index : ℕ} {inner : List Char → Option (α × List Char)}
    {s : List Char} {r : α × List Char} (h : readSeparator ':' index inner s = some r) :
    ∃ s', s = mark index ++ s' ∧ inner s' = some r := by
  by_cases hindex : index = 0
  · simp only [readSeparator, hindex, if_true] at h
    exact ⟨s, by simp [mark, hindex], h⟩
  · obtain ⟨s', hs, hinner⟩ := (readSeparator_eq_some hindex).mp h
    exact ⟨s', by simp [mark, hindex, hs], hinner⟩

/-- Every group that was read but the first one, and the second half of an IPv4 address, has a
colon of its own. -/
theorem readGroups_consumes {index left : ℕ} {s rest : List Char} {gs : List ℕ} {embedded : Bool}
    (h : readGroups index left s = (gs, embedded, rest)) :
    ∃ cs, s = cs ++ rest ∧ (∀ c ∈ cs, IsAddressChar c) ∧
      gs.length ≤ cs.count ':' + (if index = 0 then 1 else 0) + (if embedded then 1 else 0) := by
  induction left generalizing index s gs with
  | zero =>
    cases h
    exact ⟨[], rfl, by simp, by simp⟩
  | succ left ih =>
    have hcount := count_mark index
    rw [readGroups] at h
    split at h
    next octets tail hread =>
      cases h
      split_ifs at hread
      obtain ⟨s', rfl, hoctets⟩ := readSeparator_consumes hread
      obtain ⟨a, b, c, d, -, -, -, -, -, rfl⟩ := readIpv4Addr_eq_some hoctets
      refine ⟨mark index ++ dotted a b c d, by rw [List.append_assoc], ?_, ?_⟩
      · exact List.forall_mem_append.mpr ⟨isAddressChar_mark index, isAddressChar_dotted a b c d⟩
      · rw [List.count_append]
        simp only [List.length_cons, List.length_nil, if_true]
        omega
    next =>
      split at h
      next group tail hread =>
        obtain ⟨s', rfl, hgroup⟩ := readSeparator_consumes hread
        obtain ⟨digits, rfl, -, hall, -⟩ := readNumber_eq_some hgroup
        have hdigits : ∀ c ∈ digits, IsAddressChar c := fun c hc => Or.inr (Or.inr (hall c hc))
        cases hrest : readGroups (index+1) left tail with
        | mk gs' r =>
          obtain ⟨embedded', rest'⟩ := r
          simp only [hrest, Prod.mk.injEq] at h
          obtain ⟨rfl, rfl, rfl⟩ := h
          obtain ⟨cs, rfl, hcs, hlength⟩ := ih hrest
          refine ⟨mark index ++ digits ++ cs, by simp only [List.append_assoc], ?_, ?_⟩
          · simp only [List.forall_mem_append]
            exact ⟨⟨isAddressChar_mark index, hdigits⟩, hcs⟩
          · simp only [List.count_append, List.length_cons]
            simp only [Nat.add_eq_zero_iff, one_ne_zero, and_false, if_false] at hlength
            omega
      next =>
        cases h
        exact ⟨[], rfl, by simp, by simp⟩

/-- The text of an IPv6 address has two colons at least. -/
theorem fromStr_v6_text {text : String} {bits : BitVec 128} (h : fromStr text = some (v6 bits)) :
    2 ≤ text.toList.count ':' ∧ ∀ c ∈ text.toList, IsAddressChar c := by
  have hread : ∃ gs, readIpv6Addr text.toList = some (gs, []) := by
    unfold fromStr at h
    split at h
    · split_ifs at h
      simp [ofOctets] at h
    · split at h
      next gs rest hread =>
        split_ifs at h with hrest
        exact ⟨gs, hrest ▸ hread⟩
      next => cases h
  obtain ⟨gs, hread⟩ := hread
  unfold readIpv6Addr at hread
  cases hhead : readGroups 0 8 text.toList with
  | mk head r =>
    obtain ⟨embedded, rest⟩ := r
    obtain ⟨cs, htext, hcs, hlength⟩ := readGroups_consumes hhead
    rw [htext]
    simp only [hhead] at hread
    split_ifs at hread with hfull
    · cases hread
      simp only [if_true] at hlength
      rw [List.append_nil]
      refine ⟨?_, hcs⟩
      split_ifs at hlength <;> omega
    · split at hread
      next s =>
        cases htail : readGroups 0 (8 - (head.length + 1)) s with
        | mk tail r =>
          obtain ⟨embedded', rest'⟩ := r
          simp only [htail, Option.some.injEq, Prod.mk.injEq] at hread
          obtain ⟨-, rfl⟩ := hread
          obtain ⟨cs', rfl, hcs', -⟩ := readGroups_consumes htail
          have hcolon : IsAddressChar ':' := Or.inl rfl
          simp only [List.append_nil, List.forall_mem_append, List.forall_mem_cons]
          refine ⟨?_, hcs, hcolon, hcolon, hcs'⟩
          simp only [List.count_append, List.count_cons_self]
          omega
      next => cases hread

end Spelling
/-- IPv4 in dotted decimal, IPv6 with all of its eight groups. -/
def toText : IpAddr → String
  | v4 bits => String.ofList (v4Text bits)
  | v6 bits => String.ofList (v6Text bits)

theorem fromStr_toText (a : IpAddr) : fromStr a.toText = some a := by
  cases a with
  | v4 bits => exact fromStr_eq_v4_iff.mpr (by simp [toText])
  | v6 bits =>
    have hv4 : readIpv4Addr (v6Text bits) = none :=
      readIpv4Addr_of_notMem (notMem_groupText rfl (by decide) _ _)
    simp [fromStr, toText, hv4, readIpv6Addr_v6Text, ofGroups_groups]

theorem slash_notMem_toText (a : IpAddr) : '/' ∉ a.toText.toList := by
  cases a with
  | v4 bits =>
    have hdigits (n : ℕ) : '/' ∉ Nat.toDigits 10 n := notMem_toDigits (by omega) (by omega) rfl n
    simp [toText, v4Text, dotted, hdigits]
  | v6 bits =>
    rw [toText, String.toList_ofList]
    exact notMem_groupText rfl (by decide) 0 (groups bits)

end IpAddr

namespace IpNet

def address : IpNet → IpAddr
  | v4 bits _ => .v4 bits
  | v6 bits _ => .v6 bits

def prefixLength : IpNet → ℕ
  | v4 _ length => length.val
  | v6 _ length => length.val

def ofParts : IpAddr → ℕ → Option IpNet
  | .v4 bits, length => if h : length < 33 then some (v4 bits ⟨length, h⟩) else none
  | .v6 bits, length => if h : length < 129 then some (v6 bits ⟨length, h⟩) else none

/-- An address and a prefix length, separated by a slash. -/
def toText (net : IpNet) : String :=
  String.ofList (net.address.toText.toList ++ '/' :: Nat.toDigits 10 net.prefixLength)

def fromStr (text : String) : Option IpNet := do
  let address ← IpAddr.fromStr (String.ofList (text.toList.takeWhile (· ≠ '/')))
  let (length, rest) ← IpAddr.readSeparator '/' 1 (IpAddr.readNumber 10 3 128 false)
    (text.toList.dropWhile (· ≠ '/'))
  if rest = [] then ofParts address length else none

theorem ofParts_parts (net : IpNet) : ofParts net.address net.prefixLength = some net := by
  cases net with
  | v4 bits length => simp [ofParts, address, prefixLength]
  | v6 bits length => simp [ofParts, address, prefixLength]

theorem fromStr_toText (net : IpNet) : fromStr net.toText = some net := by
  have hslash : ∀ c ∈ net.address.toText.toList, decide (c ≠ '/') = true := by
    intro c hc
    have hne : c ≠ '/' := fun h => net.address.slash_notMem_toText (h ▸ hc)
    simp [hne]
  have hlength : net.prefixLength ≤ 128 := by
    cases net with
    | v4 bits length => exact (Nat.le_of_lt_succ length.isLt).trans (by omega)
    | v6 bits length => exact Nat.le_of_lt_succ length.isLt
  have hread : IpAddr.readNumber 10 3 128 false (Nat.toDigits 10 net.prefixLength ++ []) =
      some (net.prefixLength, []) :=
    IpAddr.readNumber_toDigits (by omega) (by omega) (by omega) (by omega) hlength false
      (by simp [IpAddr.NoDigit])
  rw [List.append_nil] at hread
  have htake : net.toText.toList.takeWhile (· ≠ '/') = net.address.toText.toList := by
    rw [toText, String.toList_ofList, List.takeWhile_append_of_pos hslash]
    simp
  have hdrop : net.toText.toList.dropWhile (· ≠ '/') = '/' :: Nat.toDigits 10 net.prefixLength := by
    rw [toText, String.toList_ofList, List.dropWhile_append_of_pos hslash]
    simp
  rw [fromStr, htake, hdrop, String.ofList_toList, IpAddr.fromStr_toText]
  simp [IpAddr.readSeparator, hread, ofParts_parts]

end IpNet
