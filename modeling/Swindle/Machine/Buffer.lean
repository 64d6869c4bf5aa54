import Mathlib.Data.List.GetD
import Mathlib.Tactic.Common

/-! Byte buffers as total functions: reading a slice, copying a list in, and cutting a list
into blocks of one size. -/
namespace Swindle.Machine

variable {α : Type*}

def slice (b : ℕ → α) (off n : ℕ) : List α := (List.range n).map fun i => b (off + i)

/-- Copy `d` to the cells from `off` on. -/
def blit (off : ℕ) (d : List α) (b : ℕ → α) : ℕ → α :=
  fun i => if off ≤ i then d.getD (i - off) (b i) else b i

@[simp] theorem length_slice (b : ℕ → α) (off n : ℕ) : (slice b off n).length = n := by
  simp [slice]

theorem slice_congr {b b' : ℕ → α} {off n : ℕ} (h : ∀ i < n, b (off + i) = b' (off + i)) :
    slice b off n = slice b' off n :=
  List.map_congr_left fun i hi => h i (List.mem_range.mp hi)

theorem slice_append (b : ℕ → α) (off m n : ℕ) :
    slice b off (m + n) = slice b off m ++ slice b (off + m) n := by
  simp [slice, List.range_add, Nat.add_assoc, Function.comp_def]

theorem getElem?_slice (b : ℕ → α) (off n : ℕ) {i : ℕ} (h : i < n) :
    (slice b off n)[i]? = some (b (off + i)) := by
  simp [slice, h]

theorem blit_of_lt {off i : ℕ} (d : List α) (b : ℕ → α) (h : i < off) : blit off d b i = b i :=
  if_neg (by omega)

theorem blit_of_le {off i : ℕ} {d : List α} (b : ℕ → α) (h : off + d.length ≤ i) :
    blit off d b i = b i := by
  rw [blit, if_pos (by omega), List.getD_eq_default _ _ (by omega)]

theorem blit_add (off : ℕ) (d : List α) (b : ℕ → α) (i : ℕ) :
    blit off d b (off + i) = d.getD i (b (off + i)) := by
  simp [blit]

theorem blit_zero (d : List α) (b : ℕ → α) (i : ℕ) : blit 0 d b i = d.getD i (b i) := by
  simp [blit]

theorem slice_blit_of_le {off n : ℕ} (d : List α) (b : ℕ → α) (h : n ≤ off) :
    slice (blit off d b) 0 n = slice b 0 n :=
  slice_congr fun _ hi => blit_of_lt _ _ (by omega)

theorem slice_blit (off : ℕ) (d : List α) (b : ℕ → α) :
    slice (blit off d b) off d.length = d := by
  apply List.ext_getElem?
  intro i
  by_cases hi : i < d.length
  · rw [getElem?_slice _ _ _ hi, blit_add, List.getD_eq_getElem?_getD]
    simp [hi]
  · simp [hi]

theorem slice_blit_append (off : ℕ) (d : List α) (b : ℕ → α) :
    slice (blit off d b) 0 (off + d.length) = slice b 0 off ++ d := by
  rw [slice_append, slice_blit_of_le d b (Nat.le_refl off), Nat.zero_add, slice_blit]

theorem blit_blit (l d : List α) (b : ℕ → α) :
    blit l.length d (blit 0 l b) = blit 0 (l ++ d) b := by
  funext i
  by_cases h : l.length ≤ i
  · obtain ⟨j, rfl⟩ := Nat.exists_eq_add_of_le h
    rw [blit_add, blit, blit, if_pos (Nat.zero_le _), if_pos (Nat.zero_le _), Nat.sub_zero,
      List.getD_append_right _ _ _ _ h, List.getD_eq_default _ _ h, Nat.add_sub_cancel_left]
  · have h' : i < l.length := Nat.not_le.mp h
    rw [blit_of_lt _ _ h', blit, blit, if_pos (Nat.zero_le _), if_pos (Nat.zero_le _),
      Nat.sub_zero, List.getD_append _ _ _ _ h']

theorem slice_getD (d : List α) (b : ℕ → α) {n : ℕ} (h : n ≤ d.length) :
    slice (fun i => d.getD i (b i)) 0 n = d.take n := by
  apply List.ext_getElem?
  intro i
  by_cases hi : i < n
  · rw [getElem?_slice _ _ _ hi, List.getElem?_take_of_lt hi, Nat.zero_add,
      List.getElem?_eq_getElem (by omega), List.getD_eq_getElem _ _ (by omega)]
  · rw [List.getElem?_eq_none (by simpa using hi), List.getElem?_eq_none (by simp; omega)]

/-- Block `i` of `d`, cut into blocks of `k`. -/
def block (k : ℕ) (d : List α) (i : ℕ) : List α := (d.drop (k * i)).take k

def blockCount (k : ℕ) (d : List α) : ℕ := (d.length + (k - 1)) / k

def blocks (k : ℕ) (d : List α) : List (List α) := (List.range (blockCount k d)).map (block k d)

theorem length_block (k : ℕ) (d : List α) (i : ℕ) :
    (block k d i).length = min k (d.length - k * i) := by
  simp [block]

theorem getElem?_block {k : ℕ} (d : List α) (i : ℕ) {j : ℕ} (h : j < k) :
    (block k d i)[j]? = d[k * i + j]? := by
  simp [block, List.getElem?_take_of_lt h]

theorem take_append_block (k : ℕ) (d : List α) (i : ℕ) :
    d.take (k * i) ++ block k d i = d.take (k * (i + 1)) := by
  rw [block, Nat.mul_succ, List.take_add]

theorem lt_blockCount_iff {k : ℕ} (hk : 0 < k) (d : List α) (i : ℕ) :
    i < blockCount k d ↔ k * i < d.length := by
  rw [blockCount, ← Nat.succ_le_iff, Nat.le_div_iff_mul_le hk, Nat.succ_mul, Nat.mul_comm i k]
  omega

end Swindle.Machine
