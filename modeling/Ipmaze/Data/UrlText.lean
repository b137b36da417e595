import Ipmaze.Data.IpText
import Ipmaze.Data.Text
import Mathlib.Data.List.TakeWhile

/-! How the URL Standard divides the text of an http or https URL, up to its authority, and when
it takes a host for an IPv4 address. -/
namespace UrlText

def isC0OrSpace (c : Char) : Bool := c.toNat ≤ 0x20

def isTabOrNewline (c : Char) : Bool := c == '\t' || c == '\n' || c == '\r'

/-- What is read of a text: blanks at its ends, tabs and line breaks are not. -/
def clean (cs : List Char) : List Char :=
  ((cs.dropWhile isC0OrSpace).reverse.dropWhile isC0OrSpace).reverse.filter fun c =>
    !isTabOrNewline c

def isSchemeChar (c : Char) : Bool := c.isAlphanum || c == '+' || c == '-' || c == '.'

/-- The scheme in lower case, and the text behind its colon. -/
def splitScheme (cs : List Char) : Option (List Char × List Char) :=
  if cs.head?.any Char.isAlpha then
    match cs.dropWhile isSchemeChar with
    | ':' :: rest => some ((cs.takeWhile isSchemeChar).map Char.toLower, rest)
    | _ => none
  else none

def isSlash (c : Char) : Bool := c == '/' || c == '\\'

def endsAuthority (c : Char) : Bool := isSlash c || c == '?' || c == '#'

def authority (rest : List Char) : List Char :=
  (rest.dropWhile isSlash).takeWhile fun c => !endsAuthority c

/-- What stands before the last at sign of an authority. -/
def userinfo (authority : List Char) : List Char :=
  ((authority.reverse.dropWhile (· != '@')).drop 1).reverse

def hostPort (authority : List Char) : List Char :=
  (authority.reverse.takeWhile (· != '@')).reverse

/-- What stands before the first colon of a userinfo, and what stands behind it. -/
def username (userinfo : List Char) : List Char := userinfo.takeWhile (· != ':')
def password (userinfo : List Char) : List Char := (userinfo.dropWhile (· != ':')).drop 1

/-- What stands behind the first colon of a host that is not in brackets. -/
def port (hostPort : List Char) : List Char := (hostPort.dropWhile (· != ':')).drop 1

section Texts

theorem mem_of_mem_clean {cs : List Char} {c : Char} (h : c ∈ clean cs) : c ∈ cs := by
  have hinner := (List.mem_filter.mp h).1
  rw [List.mem_reverse] at hinner
  have hreverse := (List.dropWhile_sublist _).subset hinner
  rw [List.mem_reverse] at hreverse
  exact (List.dropWhile_sublist _).subset hreverse

theorem not_isTabOrNewline {c : Char} (h : isC0OrSpace c = false) : (!isTabOrNewline c) = true := by
  simp only [isTabOrNewline, Bool.not_eq_true', Bool.or_eq_false_iff, beq_eq_false_iff_ne]
  refine ⟨⟨?_, ?_⟩, ?_⟩
  all_goals
    rintro rfl
    revert h
    decide

/-- Nothing is dropped from a text without blanks and control characters. -/
theorem clean_eq_self {cs : List Char} (h : ∀ c ∈ cs, isC0OrSpace c = false) : clean cs = cs := by
  have hdrop {l : List Char} (hl : ∀ c ∈ l, isC0OrSpace c = false) :
      l.dropWhile isC0OrSpace = l := by
    cases l with
    | nil => rfl
    | cons c l => simp [hl c (by simp)]
  rw [clean, hdrop h, hdrop (by simpa using h), List.reverse_reverse, List.filter_eq_self]
  exact fun c hc => not_isTabOrNewline (h c hc)

/-- A word at the start of a text is kept, and so is the character behind it. -/
theorem clean_append_cons {cs : List Char} (hcs : ∀ c ∈ cs, isC0OrSpace c = false) {c : Char}
    (hc : isC0OrSpace c = false) (ds : List Char) :
    ∃ ds', clean (cs ++ c :: ds) = cs ++ c :: ds' := by
  refine ⟨(ds.rdropWhile isC0OrSpace).filter fun d => !isTabOrNewline d, ?_⟩
  change (((cs ++ c :: ds).dropWhile isC0OrSpace).rdropWhile isC0OrSpace).filter _ = _
  rw [Text.rdropWhile_dropWhile_append_cons hcs hc, List.filter_append,
    List.filter_cons_of_pos (p := fun d => !isTabOrNewline d) (not_isTabOrNewline hc),
    List.filter_eq_self.mpr fun d hd => not_isTabOrNewline (hcs d hd)]

theorem splitScheme_append_cons {cs : List Char} (hcs : ':' ∉ cs) {c : Char}
    (hc : isSchemeChar c = false) (hcolon : c ≠ ':') (ds : List Char) :
    splitScheme (cs ++ c :: ds) = none := by
  have hrest : ∀ rest, (cs ++ c :: ds).dropWhile isSchemeChar ≠ ':' :: rest := by
    intro rest heq
    rw [List.dropWhile_append] at heq
    split_ifs at heq with hempty
    · rw [List.dropWhile_cons_of_neg (by simp [hc])] at heq
      exact hcolon (List.cons.inj heq).1
    · cases hdrop : cs.dropWhile isSchemeChar with
      | nil => simp [hdrop] at hempty
      | cons d tail =>
        rw [hdrop] at heq
        have hmem : d ∈ cs := (List.dropWhile_sublist _).subset (by rw [hdrop]; simp)
        exact hcs ((List.cons.inj heq).1 ▸ hmem)
  unfold splitScheme
  split_ifs
  · split
    next rest heq => exact absurd heq (hrest rest)
    next => rfl
  · rfl

theorem splitScheme_eq_none {cs : List Char} (h : ':' ∉ cs) : splitScheme cs = none := by
  have hrest : ':' ∉ cs.dropWhile isSchemeChar := fun hc => h ((List.dropWhile_sublist _).subset hc)
  unfold splitScheme
  split_ifs
  · split
    next rest heq => simp [heq] at hrest
    next => rfl
  · rfl

theorem splitScheme_append {scheme : List Char} (hhead : scheme.head?.any Char.isAlpha)
    (hchars : ∀ c ∈ scheme, isSchemeChar c) (rest : List Char) :
    splitScheme (scheme ++ ':' :: rest) = some (scheme.map Char.toLower, rest) := by
  have hne : scheme ≠ [] := by
    rintro rfl
    simp at hhead
  have hcolon : isSchemeChar ':' = false := by decide
  rw [splitScheme, List.head?_append_of_ne_nil _ hne, if_pos hhead,
    List.dropWhile_append_of_pos hchars, List.takeWhile_append_of_pos hchars]
  simp [hcolon]

theorem mem_of_mem_splitScheme {cs scheme rest : List Char} (h : splitScheme cs = some (scheme, rest))
    {c : Char} (hc : c ∈ rest) : c ∈ cs := by
  unfold splitScheme at h
  split_ifs at h
  split at h
  next tail heq =>
    cases h
    have hmem : c ∈ cs.dropWhile isSchemeChar := by
      rw [heq]
      exact List.mem_cons_of_mem _ hc
    exact (List.dropWhile_sublist _).subset hmem
  next => cases h

theorem mem_of_mem_authority {rest : List Char} {c : Char} (h : c ∈ authority rest) : c ∈ rest :=
  (List.dropWhile_sublist _).subset ((List.takeWhile_sublist _).subset h)

theorem authority_eq {cs : List Char} (hne : cs ≠ []) (h : ∀ c ∈ cs, endsAuthority c = false)
    (path : List Char) : authority ('/' :: '/' :: (cs ++ '/' :: path)) = cs := by
  have hslash : isSlash '/' = true := by decide
  have hends : endsAuthority '/' = true := by decide
  have hdrop : (cs ++ '/' :: path).dropWhile isSlash = cs ++ '/' :: path := by
    cases cs with
    | nil => exact absurd rfl hne
    | cons c cs =>
      have hc := h c (by simp)
      simp only [endsAuthority, Bool.or_eq_false_iff] at hc
      simp [hc.1.1]
  have hall : ∀ c ∈ cs, (!endsAuthority c) = true := by simpa using h
  rw [authority, List.dropWhile_cons_of_pos hslash, List.dropWhile_cons_of_pos hslash, hdrop,
    List.takeWhile_append_of_pos hall]
  simp [hends]

theorem userinfo_eq_nil {cs : List Char} (h : '@' ∉ cs) : userinfo cs = [] := by
  have hdrop : cs.reverse.dropWhile (· != '@') = [] := by
    rw [List.dropWhile_eq_nil_iff]
    intro c hc
    have hne : c ≠ '@' := fun he => h (by simpa [he] using hc)
    simpa using hne
  simp [userinfo, hdrop]

theorem hostPort_eq_self {cs : List Char} (h : '@' ∉ cs) : hostPort cs = cs := by
  have htake : cs.reverse.takeWhile (· != '@') = cs.reverse := by
    rw [List.takeWhile_eq_self_iff]
    intro c hc
    have hne : c ≠ '@' := fun he => h (by simpa [he] using hc)
    simpa using hne
  simp [hostPort, htake]

/-- Behind its first colon a text with two colons has another one. -/
theorem colon_mem_port {cs : List Char} (h : 2 ≤ cs.count ':') : ':' ∈ port cs := by
  have hsplit : cs.takeWhile (· != ':') ++ cs.dropWhile (· != ':') = cs :=
    List.takeWhile_append_dropWhile
  have hnone : (cs.takeWhile (· != ':')).count ':' = 0 := by
    rw [List.count_eq_zero]
    intro hc
    have hne := List.mem_takeWhile_imp hc
    simp at hne
  rw [← hsplit, List.count_append, hnone] at h
  rw [port]
  cases hdrop : cs.dropWhile (· != ':') with
  | nil => simp [hdrop] at h
  | cons c rest =>
    rw [hdrop, List.count_cons] at h
    rw [List.drop_one, List.tail_cons, ← List.count_pos_iff]
    split_ifs at h <;> omega

end Texts

section Hosts

/-- The characters of a host name; every other host is encoded before it is looked at. -/
def isHostChar (c : Char) : Bool := c.isAlphanum || c == '-' || c == '.'

def IsPlainHost (host : List Char) : Prop := host ≠ [] ∧ ∀ c ∈ host, isHostChar c

instance (host : List Char) : Decidable (IsPlainHost host) :=
  decidable_of_iff (host ≠ [] ∧ host.all isHostChar) (by simp [IsPlainHost])

/-- The characters of a host name and a port. -/
def isHostPortChar (c : Char) : Bool := isHostChar c || c == ':'

/-- The codes of letters, digits, hyphens, dots and colons. -/
theorem isHostPortChar_iff {c : Char} : isHostPortChar c = true ↔
    (65 ≤ c.toNat ∧ c.toNat ≤ 90) ∨ (97 ≤ c.toNat ∧ c.toNat ≤ 122) ∨
      (48 ≤ c.toNat ∧ c.toNat ≤ 58) ∨ c.toNat = 45 ∨ c.toNat = 46 := by
  have hhyphen : c = '-' ↔ c.toNat = 45 := Char.toNat_inj.symm
  have hdot : c = '.' ↔ c.toNat = 46 := Char.toNat_inj.symm
  have hcolon : c = ':' ↔ c.toNat = 58 := Char.toNat_inj.symm
  simp only [isHostPortChar, isHostChar, Bool.or_eq_true, beq_iff_eq, Text.isAlphanum_iff, hhyphen,
    hdot, hcolon]
  omega

theorem isHostPortChar_of_isHostChar {c : Char} (h : isHostChar c) : isHostPortChar c := by
  simp [isHostPortChar, h]

theorem ne_of_isHostPortChar {c d : Char} (hc : isHostPortChar c) (hd : isHostPortChar d = false) :
    c ≠ d := by
  rintro rfl
  rw [hc] at hd
  cases hd

theorem notMem_of_isHostPortChar {cs : List Char} (h : ∀ c ∈ cs, isHostPortChar c) {c : Char}
    (hc : isHostPortChar c = false) : c ∉ cs := fun hmem => ne_of_isHostPortChar (h c hmem) hc rfl

theorem isC0OrSpace_of_isHostPortChar {c : Char} (h : isHostPortChar c) :
    isC0OrSpace c = false := by
  have hcode := isHostPortChar_iff.mp h
  simp only [isC0OrSpace, decide_eq_false_iff_not]
  omega

theorem endsAuthority_of_isHostPortChar {c : Char} (h : isHostPortChar c) :
    endsAuthority c = false := by
  have hne {d : Char} (hd : isHostPortChar d = false) : c ≠ d := ne_of_isHostPortChar h hd
  simp only [endsAuthority, isSlash, Bool.or_eq_false_iff, beq_eq_false_iff_ne]
  exact ⟨⟨⟨hne (by decide), hne (by decide)⟩, hne (by decide)⟩, hne (by decide)⟩

theorem isHostPortChar_of_isAddressChar {c : Char} (h : IpAddr.IsAddressChar c) :
    isHostPortChar c := by
  rw [isHostPortChar_iff]
  rcases h with rfl | rfl | h
  · decide
  · decide
  · simp only [IpAddr.toDigit] at h
    split_ifs at h with h1 h2 h3 h4 <;> first | omega | cases h

/-- How the text of a URL that has only a scheme, a host and a port divides. -/
theorem splitScheme_clean_hostPort {scheme cs : List Char} (hhead : scheme.head?.any Char.isAlpha)
    (hscheme : ∀ c ∈ scheme, isSchemeChar c ∧ isC0OrSpace c = false)
    (hcs : ∀ c ∈ cs, isHostPortChar c) :
    splitScheme (clean (scheme ++ ':' :: '/' :: '/' :: (cs ++ ['/']))) =
      some (scheme.map Char.toLower, '/' :: '/' :: (cs ++ ['/'])) := by
  rw [clean_eq_self, splitScheme_append hhead fun c hc => (hscheme c hc).1]
  simp only [List.forall_mem_append, List.forall_mem_cons]
  refine ⟨fun c hc => (hscheme c hc).2, by decide, by decide, by decide, ?_, by decide, by simp⟩
  exact fun c hc => isC0OrSpace_of_isHostPortChar (hcs c hc)

/-- The radix a number is written in, and its digits. -/
def numberRadix (part : List Char) : ℕ × List Char :=
  if part.head? = some '0' ∧ 1 < part.length then
    if part[1]? = some 'x' ∨ part[1]? = some 'X' then (16, part.drop 2) else (8, part.drop 1)
  else (10, part)

def ipv4Number (part : List Char) : Option ℕ :=
  let (radix, digits) := numberRadix part
  if part = [] then none
  else if digits.all fun c => (IpAddr.toDigit radix c).isSome then
    some (IpAddr.digitValue radix digits)
  else none

/-- The labels of a host, without the empty one behind a dot at its end. -/
def labels (host : List Char) : List (List Char) :=
  if (host.splitOn '.').getLast? = some [] then (host.splitOn '.').dropLast else host.splitOn '.'

/-- Such a host is an IPv4 address or nothing. -/
def endsInNumber (host : List Char) : Bool :=
  (labels host).getLast?.any fun last =>
    (last != [] && last.all Char.isDigit) || (ipv4Number last).isSome

/-- Up to four numbers, of which the last one fills the bytes that the others leave. -/
def ipv4 (host : List Char) : Option (BitVec 32) := do
  let numbers ← (labels host).mapM ipv4Number
  let leading := numbers.dropLast
  let last ← numbers.getLast?
  if 4 < numbers.length ∨ (∃ n ∈ leading, 255 < n) ∨ 256^(4 - leading.length) ≤ last then none
  else some (BitVec.ofNat 32 (leading.foldl (256*· + ·) 0 * 256^(4 - leading.length) + last))

example : ipv4 "127.1".toList = some 0x7F000001#32 := by decide
example : ipv4 "0x7f.0.0.01".toList = some 0x7F000001#32 := by decide
example : endsInNumber "lists.example".toList = false := by decide

/-- A label that begins with a letter is no number. -/
theorem endsInNumber_of_letter {host : List Char}
    (h : (host.splitOn '.').getLast?.any fun label => label.head?.any Char.isAlpha) :
    endsInNumber host = false := by
  cases hlast : (host.splitOn '.').getLast? with
  | none => simp [hlast] at h
  | some last =>
    rw [hlast] at h
    cases last with
    | nil => simp at h
    | cons c label =>
      have hletter := Text.isAlpha_iff.mp (by simpa using h)
      have hlabels : labels host = host.splitOn '.' := if_neg (by rw [hlast]; simp)
      have hdigit : c.isDigit = false := by
        rw [← Bool.not_eq_true, Text.isDigit_iff]
        omega
      have hten : IpAddr.toDigit 10 c = none := by
        simp only [IpAddr.toDigit]
        split_ifs <;> first | omega | rfl
      have hzero : c ≠ '0' := by
        rintro rfl
        exact absurd hletter (by decide)
      simp [endsInNumber, hlabels, hlast, hdigit, ipv4Number, numberRadix, hzero, hten]

theorem ipv4Number_toDigits (n : ℕ) : ipv4Number (Nat.toDigits 10 n) = some n := by
  have hdigits : (∀ c ∈ Nat.toDigits 10 n, (IpAddr.toDigit 10 c).isSome) ∧
      IpAddr.digitValue 10 (Nat.toDigits 10 n) = n := IpAddr.digits_toDigits (by omega) (by omega) n
  obtain ⟨hall, hvalue⟩ := hdigits
  have hradix : numberRadix (Nat.toDigits 10 n) = (10, Nat.toDigits 10 n) := by
    refine if_neg ?_
    rintro ⟨hhead, hlength⟩
    cases Nat.eq_zero_or_pos n with
    | inl h0 =>
      subst h0
      simp at hlength
    | inr hn => exact IpAddr.head_toDigits (by omega) hn (by omega) hhead
  simp only [ipv4Number, hradix, hvalue, if_neg Nat.toDigits_ne_nil]
  exact if_pos (List.all_eq_true.mpr hall)

open IpAddr in
theorem labels_dotted (a b c d : ℕ) :
    labels (dotted a b c d) =
      [Nat.toDigits 10 a, Nat.toDigits 10 b, Nat.toDigits 10 c, Nat.toDigits 10 d] := by
  have hdot (n : ℕ) : '.' ∉ Nat.toDigits 10 n := notMem_toDigits (by omega) (by omega) rfl n
  have hsplit : (dotted a b c d).splitOn '.' =
      [Nat.toDigits 10 a, Nat.toDigits 10 b, Nat.toDigits 10 c, Nat.toDigits 10 d] := by
    simp only [dotted, List.splitOn_append_cons_self_of_not_mem (hdot _),
      List.splitOn_eq_singleton (hdot d)]
  rw [labels, hsplit, if_neg]
  simp [Nat.toDigits_ne_nil]

open IpAddr in
theorem ipv4_dotted {a b c d : ℕ} (ha : a < 256) (hb : b < 256) (hc : c < 256) (hd : d < 256) :
    ipv4 (dotted a b c d) = some (BitVec.ofNat 32 ((256*(256*a + b) + c)*256 + d)) := by
  have hbounds : ((a ≤ 255 ∧ b ≤ 255) ∧ c ≤ 255) ∧ d < 256 := by omega
  simp [ipv4, labels_dotted, ipv4Number_toDigits, hbounds]

/-- A dotted quad names the address it is the text of. -/
theorem ipv4_v4Text (bits : BitVec 32) : ipv4 (IpAddr.v4Text bits) = some bits := by
  have hlt := bits.isLt
  rw [IpAddr.v4Text, ipv4_dotted (by omega) (by omega) (by omega) (by omega), Option.some.injEq]
  apply BitVec.eq_of_toNat_eq
  rw [BitVec.toNat_ofNat]
  omega

theorem endsInNumber_v4Text (bits : BitVec 32) : endsInNumber (IpAddr.v4Text bits) = true := by
  simp [endsInNumber, IpAddr.v4Text, labels_dotted, ipv4Number_toDigits]

theorem isPlainHost_v4Text (bits : BitVec 32) : IsPlainHost (IpAddr.v4Text bits) := by
  have hdigit (n : ℕ) : ∀ c ∈ Nat.toDigits 10 n, isHostChar c := by
    intro c hc
    have hdecimal := Nat.isDigit_of_mem_toDigits (by omega) (by omega) hc
    have halphanum : c.isAlphanum = true := Bool.or_eq_true_iff.mpr (Or.inr hdecimal)
    simp [isHostChar, halphanum]
  have hdot : isHostChar '.' := by decide
  refine ⟨by simp [IpAddr.v4Text, IpAddr.dotted], ?_⟩
  simp only [IpAddr.v4Text, IpAddr.dotted, List.forall_mem_append, List.forall_mem_cons]
  exact ⟨hdigit _, hdot, hdigit _, hdot, hdigit _, hdot, hdigit _⟩

end Hosts
end UrlText
