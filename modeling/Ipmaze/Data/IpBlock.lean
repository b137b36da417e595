import Ipmaze.Data.IpAddr
import Mathlib.Order.Basic

/-! The block of addresses a network denotes is determined by its family, its prefix length and
its network bits, and determines them. -/

/-- Two words differ in their last bits only. -/
def AgreeAbove {w : ℕ} (host : ℕ) (a b : BitVec w) : Prop := (a ^^^ b) >>> host = 0#w

namespace AgreeAbove
variable {w host host' : ℕ} {a b : BitVec w}

theorem iff_getLsbD : AgreeAbove host a b ↔ ∀ i, host ≤ i → a.getLsbD i = b.getLsbD i := by
  unfold AgreeAbove
  constructor
  · intro h i hi
    have hbit : ((a ^^^ b) >>> host).getLsbD (i - host) = false := by simp [h]
    rw [BitVec.getLsbD_ushiftRight, Nat.add_sub_cancel' hi, BitVec.getLsbD_xor] at hbit
    simpa using hbit
  · intro h
    apply BitVec.eq_of_getLsbD_eq
    intro i hi
    simp [h (host + i) (Nat.le_add_right host i)]

theorem refl (host : ℕ) (a : BitVec w) : AgreeAbove host a a :=
  iff_getLsbD.mpr fun _ _ => rfl

theorem congr (h : AgreeAbove host a b) (x : BitVec w) :
    AgreeAbove host a x ↔ AgreeAbove host b x := by
  rw [iff_getLsbD] at h
  simp only [iff_getLsbD]
  refine forall_congr' fun i => forall_congr' fun hi => ?_
  rw [h i hi]

/-- Flipping a bit above the host part leaves the block. -/
theorem flip_iff {i : ℕ} (hi : i < w) : AgreeAbove host a (a ^^^ BitVec.twoPow w i) ↔ i < host := by
  rw [iff_getLsbD]
  simp only [BitVec.getLsbD_xor, BitVec.getLsbD_twoPow, hi, decide_true, Bool.true_and]
  constructor
  · intro h
    by_contra hhost
    have hbit := h i (not_lt.mp hhost)
    simp at hbit
  · intro h j hj
    have hne : i ≠ j := by omega
    simp [hne]

/-- A block that reaches as far as another and no further has as many host bits. -/
theorem host_le (hhost : host ≤ w)
    (h : ∀ x, AgreeAbove host a x ↔ AgreeAbove host' b x) : host ≤ host' := by
  by_contra hlt
  have hpos : host - 1 < w := by omega
  have hin : AgreeAbove host a (a ^^^ BitVec.twoPow w (host - 1)) :=
    (flip_iff hpos).mpr (by omega)
  have hbase : AgreeAbove host' b a := (h a).mp (refl host a)
  have hflip : AgreeAbove host' a (a ^^^ BitVec.twoPow w (host - 1)) :=
    (hbase.congr _).mp ((h _).mp hin)
  have hout := (flip_iff hpos).mp hflip
  omega

theorem ext_iff (hhost : host ≤ w) (hhost' : host' ≤ w) :
    (∀ x, AgreeAbove host a x ↔ AgreeAbove host' b x) ↔ host = host' ∧ AgreeAbove host a b := by
  constructor
  · intro h
    have heq : host = host' :=
      Nat.le_antisymm (host_le hhost h) (host_le hhost' fun x => (h x).symm)
    subst heq
    exact ⟨rfl, (h b).mpr (refl host b)⟩
  · rintro ⟨rfl, h⟩
    exact h.congr

end AgreeAbove

namespace IpNet

/-- The same family and prefix length, and addresses that differ in host bits only. -/
def SameBlock : IpNet → IpNet → Prop
  | v4 a length, v4 b length' => length = length' ∧ AgreeAbove (32 - length.val) a b
  | v6 a length, v6 b length' => length = length' ∧ AgreeAbove (128 - length.val) a b
  | _, _ => False

/-- Two networks denote the same addresses exactly if they are the same block. -/
theorem contains_congr_iff (net net' : IpNet) :
    (∀ ip, net.Contains ip ↔ net'.Contains ip) ↔ net.SameBlock net' := by
  cases net with
  | v4 a length =>
    cases net' with
    | v4 b length' =>
      have hlength : 32 - length.val = 32 - length'.val ↔ length = length' := by
        rw [Fin.ext_iff]
        omega
      have hwords := AgreeAbove.ext_iff (a := a) (b := b) (Nat.sub_le 32 length.val)
        (Nat.sub_le 32 length'.val)
      rw [hlength] at hwords
      refine Iff.trans ⟨fun h x => h (.v4 x), fun h ip => ?_⟩ hwords
      cases ip with
      | v4 x => exact h x
      | v6 x => exact Iff.rfl
    | v6 b length' =>
      refine iff_of_false (fun h => ?_) id
      exact (h (.v4 a)).mp (AgreeAbove.refl _ a)
  | v6 a length =>
    cases net' with
    | v4 b length' =>
      refine iff_of_false (fun h => ?_) id
      exact (h (.v6 a)).mp (AgreeAbove.refl _ a)
    | v6 b length' =>
      have hlength : 128 - length.val = 128 - length'.val ↔ length = length' := by
        rw [Fin.ext_iff]
        omega
      have hwords := AgreeAbove.ext_iff (a := a) (b := b) (Nat.sub_le 128 length.val)
        (Nat.sub_le 128 length'.val)
      rw [hlength] at hwords
      refine Iff.trans ⟨fun h x => h (.v6 x), fun h ip => ?_⟩ hwords
      cases ip with
      | v4 x => exact Iff.rfl
      | v6 x => exact h x

end IpNet
