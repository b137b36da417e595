import Mathlib.Data.List.Basic
import Mathlib.Data.BitVec
import Mathlib.Data.Nat.Notation

/-! IP addresses and networks: the address parser of Rust's `std::net`, and the set of
addresses a network denotes. -/

inductive IpAddr
  | v4 (bits : BitVec 32)
  | v6 (bits : BitVec 128)
  deriving DecidableEq, Repr

namespace IpAddr

def toDigit (radix : ℕ) (c : Char) : Option ℕ :=
  let n := c.toNat
  let value := if 48 ≤ n ∧ n ≤ 57 then n - 48
    else if 97 ≤ n ∧ n ≤ 122 then n - 87
    else if 65 ≤ n ∧ n ≤ 90 then n - 55
    else radix
  if value < radix then some value else none

/-- A number of at most `maxDigits` digits and at most `bound`, with the text behind it. -/
def readNumber (radix maxDigits bound : ℕ) (allowZeroPrefix : Bool) (s : List Char) :
    Option (ℕ × List Char) :=
  let digits := s.takeWhile fun c => (toDigit radix c).isSome
  let value := digits.foldl (fun n c => radix*n + (toDigit radix c).getD 0) 0
  if digits.length = 0 ∨ maxDigits < digits.length then none
  else if !allowZeroPrefix && s.head? == some '0' && 1 < digits.length then none
  else if bound < value then none
  else some (value, s.drop digits.length)

/-- From the second item on, an item is preceded by its separator. -/
def readSeparator {α : Type} (separator : Char) (index : ℕ)
    (inner : List Char → Option (α × List Char)) (s : List Char) : Option (α × List Char) :=
  if index = 0 then inner s
  else match s with
    | c :: rest => if c = separator then inner rest else none
    | [] => none

def readOctet : List Char → Option (ℕ × List Char) := readNumber 10 3 255 false

def readIpv4Addr (s : List Char) : Option (List ℕ × List Char) := do
  let (a, s) ← readSeparator '.' 0 readOctet s
  let (b, s) ← readSeparator '.' 1 readOctet s
  let (c, s) ← readSeparator '.' 2 readOctet s
  let (d, s) ← readSeparator '.' 3 readOctet s
  return ([a, b, c, d], s)

/-- Up to `left` colon-separated groups, where the last two may be written as an IPv4
address. The flag says whether they were. -/
def readGroups (index : ℕ) : (left : ℕ) → List Char → List ℕ × Bool × List Char
  | 0, s => ([], false, s)
  | left+1, s =>
    match if 1 ≤ left then readSeparator ':' index readIpv4Addr s else none with
    | some (octets, rest) =>
      ([256*octets.getD 0 0 + octets.getD 1 0, 256*octets.getD 2 0 + octets.getD 3 0], true, rest)
    | none =>
      match readSeparator ':' index (readNumber 16 4 65535 true) s with
      | some (group, rest) =>
        let (groups, embedded, rest) := readGroups (index+1) left rest
        (group :: groups, embedded, rest)
      | none => ([], false, s)

def readIpv6Addr (s : List Char) : Option (List ℕ × List Char) :=
  let (head, embedded, s) := readGroups 0 8 s
  if head.length = 8 then some (head, s)
  else if embedded then none
  else match s with
    | ':' :: ':' :: s =>
      let (tail, _, s) := readGroups 0 (8 - (head.length + 1)) s
      some (head ++ List.replicate (8 - head.length - tail.length) 0 ++ tail, s)
    | _ => none

def ofOctets (octets : List ℕ) : IpAddr := v4 (BitVec.ofNat 32 (octets.foldl (256*· + ·) 0))
def ofGroups (groups : List ℕ) : IpAddr := v6 (BitVec.ofNat 128 (groups.foldl (65536*· + ·) 0))

/-- `IpAddr::from_str`: an IPv4 address is tried first, and the whole text must be used. -/
def fromStr (text : String) : Option IpAddr :=
  match readIpv4Addr text.toList with
  | some (octets, rest) => if rest = [] then some (ofOctets octets) else none
  | none =>
    match readIpv6Addr text.toList with
    | some (groups, rest) => if rest = [] then some (ofGroups groups) else none
    | none => none

example : fromStr "203.0.113.10" = some (.v4 0xCB00710A#32) := by decide
example : fromStr "::ffff:1.2.3.4" = some (.v6 0xFFFF01020304#128) := by decide
example : fromStr "1.2.3.04" = none := by decide

end IpAddr

/-- A network as `ipnet` keeps it: an address, host bits included, and a prefix length. -/
inductive IpNet
  | v4 (bits : BitVec 32) (length : Fin 33)
  | v6 (bits : BitVec 128) (length : Fin 129)
  deriving DecidableEq, Repr

namespace IpNet

/-- The addresses of the same family that share the leading bits of the network. -/
def Contains : IpNet → IpAddr → Prop
  | v4 net length, .v4 a => (net ^^^ a) >>> (32 - length.val) = 0#32
  | v6 net length, .v6 a => (net ^^^ a) >>> (128 - length.val) = 0#128
  | _, _ => False

instance : (net : IpNet) → (a : IpAddr) → Decidable (net.Contains a)
  | v4 net length, .v4 a => inferInstanceAs (Decidable ((net ^^^ a) >>> (32 - length.val) = 0#32))
  | v6 net length, .v6 a => inferInstanceAs (Decidable ((net ^^^ a) >>> (128 - length.val) = 0#128))
  | v4 _ _, .v6 _ => instDecidableFalse
  | v6 _ _, .v4 _ => instDecidableFalse

example : (v4 0x0A000000#32 24).Contains (.v4 0x0A0000FE#32) := by decide

end IpNet
