import Mathlib.Algebra.Ring.Nat
import Mathlib.Tactic.Common

/-! Words cut into fields of one width: reading a field, and the read-modify-write that replaces
one. -/
namespace Swindle.Machine

variable {w k i j : ℕ} {v x : BitVec w}

def field (k i : ℕ) (x : BitVec w) : BitVec k := x.extractLsb' (k * i) k

/-- Field `i` is cleared under a mask, and `v` is put in by or. -/
def putField (k i : ℕ) (v x : BitVec w) : BitVec w :=
  (x &&& ~~~(BitVec.ofNat w (2 ^ k - 1) <<< (k * i))) ||| v <<< (k * i)

theorem getLsbD_of_fits (hv : v.toNat < 2 ^ k) {n : ℕ} (hn : k ≤ n) : v.getLsbD n = false := by
  exact Nat.testBit_lt_two_pow (Nat.lt_of_lt_of_le hv (Nat.pow_le_pow_right (by decide) hn))

theorem getLsbD_putField (n : ℕ) :
    (putField k i v x).getLsbD n =
      (x.getLsbD n && !(decide (n < w) && !decide (n < k * i) && decide (n - k * i < k)) ||
        (!decide (n < k * i) && decide (n < w) && v.getLsbD (n - k * i))) := by
  rw [putField, BitVec.getLsbD_or, BitVec.getLsbD_and, BitVec.getLsbD_not, BitVec.getLsbD_shiftLeft,
    BitVec.getLsbD_shiftLeft, BitVec.getLsbD_ofNat, Nat.testBit_two_pow_sub_one]
  by_cases hn : n < w
  · by_cases hlt : n < k * i
    · simp [hn, hlt]
    · have hsub : n - k * i < w := by omega
      simp [hn, hlt, hsub]
  · simp [hn, BitVec.getLsbD_of_ge x n (Nat.not_lt.mp hn)]

theorem field_putField_self (hw : k * i + k ≤ w) :
    field k i (putField k i v x) = v.setWidth k := by
  apply BitVec.eq_of_getLsbD_eq
  intro n hn
  have hin : k * i + n < w := by omega
  have hge : ¬k * i + n < k * i := by omega
  rw [field, BitVec.getLsbD_extractLsb', getLsbD_putField, BitVec.getLsbD_setWidth]
  simp [hn, hin, hge]

theorem field_putField_of_ne (hv : v.toNat < 2 ^ k) (hij : i ≠ j) :
    field k j (putField k i v x) = field k j x := by
  apply BitVec.eq_of_getLsbD_eq
  intro n hn
  rw [field, field, BitVec.getLsbD_extractLsb', BitVec.getLsbD_extractLsb', getLsbD_putField]
  rcases Nat.lt_or_gt_of_ne hij with hlt | hlt
  · -- the field lies above, where neither the mask nor the value reaches
    have hmul := Nat.mul_le_mul_left k hlt
    rw [Nat.mul_succ] at hmul
    have hbeyond : ¬k * j + n - k * i < k := by omega
    have hout := getLsbD_of_fits hv (Nat.not_lt.mp hbeyond)
    simp [hbeyond, hout]
  · have hmul := Nat.mul_le_mul_left k hlt
    rw [Nat.mul_succ] at hmul
    have hbelow : k * j + n < k * i := by omega
    simp [hbelow]

end Swindle.Machine
