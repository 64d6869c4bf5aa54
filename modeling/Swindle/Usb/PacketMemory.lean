import Swindle.Flash.Program
import Swindle.Machine.Buffer

/-! Packet memory: cells of 16 bits, each at a word of its own in the address space, and the two
routines that copy bytes into and out of it. -/
namespace Swindle
open Machine

/-- A cell for each word address, and the cells accessed so far, newest first. -/
structure Pm where
  cell : Addr → BitVec 16
  touched : List Addr

namespace Pm

/-- A 32-bit store, of which the cell keeps the low half. -/
def store32 (a : Addr) (v : BitVec 32) (m : Pm) : Pm :=
  { cell := Function.update m.cell a (v.setWidth 16), touched := a :: m.touched }

def touch (a : Addr) (m : Pm) : Pm := { m with touched := a :: m.touched }

end Pm

/-- `for (; len; len--) *PM++ = *lbuf++`, with the byte offset of `lbuf` in the buffer. -/
def copyToPmLoop (buf : ℕ → Byte) : ℕ → Addr → ℕ → Pm → Pm
  | 0, _, _, m => m
  | len + 1, pm, lbuf, m =>
    copyToPmLoop buf len (pm + 4#32) (lbuf + 2)
      (m.store32 pm ((load16 buf lbuf).setWidth 32))

/-- `st_usbfs_copy_to_pm`; the sum is an `int`. -/
def stUsbfsCopyToPm (vPM : Addr) (buf : ℕ → Byte) (len : BitVec 16) (m : Pm) : Pm :=
  copyToPmLoop buf ((len.toNat + 1) / 2) vPM 0 m

/-- The destination and the packet memory while bytes are copied out. -/
structure FromPm where
  buf : ℕ → Byte
  lbuf : ℕ
  pm : Addr
  mem : Pm

/-- `for (; len; PM += 2, lbuf++, len--) *lbuf = *PM`. -/
def copyFromPmLoop : ℕ → FromPm → FromPm
  | 0, r => r
  | len + 1, r =>
    let v := r.mem.cell r.pm
    copyFromPmLoop len
      { buf := blit r.lbuf [leByte v 0, leByte v 1] r.buf
        lbuf := r.lbuf + 2
        pm := r.pm + 4#32
        mem := r.mem.touch r.pm }

/-- `st_usbfs_copy_from_pm`: the destination after it, and the packet memory. -/
def stUsbfsCopyFromPm (buf : ℕ → Byte) (vPM : Addr) (len : BitVec 16) (m : Pm) :
    (ℕ → Byte) × Pm :=
  let odd := len &&& 1#16
  let r := copyFromPmLoop (len.toNat / 2) ⟨buf, 0, vPM, m⟩
  if odd ≠ 0#16 then (blit r.lbuf [leByte (r.mem.cell r.pm) 0] r.buf, r.mem.touch r.pm)
  else (r.buf, r.mem)

/-! Copying in. -/

section CopyTo

variable (buf : ℕ → Byte)

theorem wordAddr_add (pm : Addr) (i j : ℕ) :
    pm + BitVec.ofNat 32 (4 * (i + j)) =
      pm + BitVec.ofNat 32 (4 * i) + BitVec.ofNat 32 (4 * j) := by
  rw [BitVec.add_assoc, Nat.mul_add, BitVec.ofNat_add]

theorem wordAddr_succ (pm : Addr) (i : ℕ) :
    pm + BitVec.ofNat 32 (4 * (i + 1)) = pm + 4#32 + BitVec.ofNat 32 (4 * i) := by
  rw [Nat.add_comm, wordAddr_add]

theorem wordAddrs_add (pm : Addr) (m n : ℕ) :
    wordAddrs pm (m + n) = wordAddrs pm m ++ wordAddrs (pm + BitVec.ofNat 32 (4 * m)) n := by
  simp only [wordAddrs, List.range_add, List.map_append, List.map_map, Function.comp_def,
    wordAddr_add]

theorem wordAddr_ne {pm : Addr} {i : ℕ} (h : 4 * (i + 1) < 2 ^ 32) :
    pm + BitVec.ofNat 32 (4 * (i + 1)) ≠ pm := by
  intro heq
  have hnat := congrArg BitVec.toNat heq
  have hpm := pm.isLt
  rw [BitVec.toNat_add, BitVec.toNat_ofNat] at hnat
  omega

theorem copyToPmLoop_touched (len : ℕ) (pm : Addr) (lbuf : ℕ) (m : Pm) :
    (copyToPmLoop buf len pm lbuf m).touched = (wordAddrs pm len).reverse ++ m.touched := by
  induction len generalizing pm lbuf m with
  | zero => rfl
  | succ len ih =>
    rw [copyToPmLoop, ih, wordAddrs_succ, List.reverse_cons, List.append_assoc]
    rfl

theorem copyToPmLoop_other {len : ℕ} {pm a : Addr} (lbuf : ℕ) (m : Pm)
    (h : a ∉ wordAddrs pm len) : (copyToPmLoop buf len pm lbuf m).cell a = m.cell a := by
  induction len generalizing pm lbuf m with
  | zero => rfl
  | succ len ih =>
    rw [wordAddrs_succ, List.mem_cons, not_or] at h
    rw [copyToPmLoop, ih _ _ h.2]
    exact Function.update_of_ne h.1 _ _

theorem copyToPmLoop_cell {len : ℕ} (hlen : 4 * len < 2 ^ 32) (pm : Addr) (lbuf : ℕ) (m : Pm)
    {i : ℕ} (hi : i < len) :
    (copyToPmLoop buf len pm lbuf m).cell (pm + BitVec.ofNat 32 (4 * i)) =
      load16 buf (lbuf + 2 * i) := by
  induction len generalizing pm lbuf m i with
  | zero => exact absurd hi (Nat.not_lt_zero i)
  | succ len ih =>
    rw [copyToPmLoop]
    cases i with
    | zero =>
      have hnot : pm + BitVec.ofNat 32 (4 * 0) ∉ wordAddrs (pm + 4#32) len := by
        intro hmem
        obtain ⟨j, hj, heq⟩ := mem_wordAddrs.mp hmem
        rw [← wordAddr_succ, Nat.mul_zero, BitVec.add_zero] at heq
        exact wordAddr_ne (by omega) heq.symm
      rw [copyToPmLoop_other buf _ _ hnot, Nat.mul_zero, BitVec.add_zero]
      simp [Pm.store32]
    | succ i =>
      rw [wordAddr_succ, ih (by omega) _ _ _ (by omega)]
      congr 1
      omega

end CopyTo

/-! Copying out. -/

/-- After `len` rounds: whole half-words have been taken, and nothing else has changed. -/
structure CopiedOut (len : ℕ) (r r' : FromPm) : Prop where
  lbuf : r'.lbuf = r.lbuf + 2 * len
  pm : r'.pm = r.pm + BitVec.ofNat 32 (4 * len)
  cell : r'.mem.cell = r.mem.cell
  touched : r'.mem.touched = (wordAddrs r.pm len).reverse ++ r.mem.touched
  other : ∀ i, (i < r.lbuf ∨ r.lbuf + 2 * len ≤ i) → r'.buf i = r.buf i
  bytes : ∀ i < 2 * len, r'.buf (r.lbuf + i) =
    leByte (r.mem.cell (r.pm + BitVec.ofNat 32 (4 * (i / 2)))) (i % 2)

def FromPm.next (r : FromPm) : FromPm :=
  { buf := blit r.lbuf [leByte (r.mem.cell r.pm) 0, leByte (r.mem.cell r.pm) 1] r.buf
    lbuf := r.lbuf + 2
    pm := r.pm + 4#32
    mem := r.mem.touch r.pm }

theorem copiedOut_next (r : FromPm) : CopiedOut 1 r r.next := by
  constructor
  · rfl
  · rfl
  · rfl
  · rw [wordAddrs_succ]
    rfl
  · intro i hi
    rcases hi with hlt | hle
    · exact blit_of_lt _ _ hlt
    · exact blit_of_le _ (by simp only [List.length_cons, List.length_nil]; omega)
  · intro i hi
    change blit r.lbuf _ r.buf (r.lbuf + i) = _
    rw [blit_add, Nat.div_eq_of_lt hi, Nat.mod_eq_of_lt hi, Nat.mul_zero, BitVec.add_zero]
    have hcases : i = 0 ∨ i = 1 := by omega
    rcases hcases with rfl | rfl <;> rfl

theorem CopiedOut.add {a b : ℕ} {r s t : FromPm} (h : CopiedOut a r s) (h' : CopiedOut b s t) :
    CopiedOut (a + b) r t := by
  have hlbuf := h.lbuf
  constructor
  · rw [h'.lbuf, hlbuf]
    omega
  · rw [h'.pm, h.pm, wordAddr_add]
  · rw [h'.cell, h.cell]
  · rw [h'.touched, h.touched, h.pm, wordAddrs_add, List.reverse_append, List.append_assoc]
  · intro i hi
    rw [h'.other i (by omega), h.other i (by omega)]
  · intro i hi
    by_cases hfirst : i < 2 * a
    · rw [h'.other _ (by omega), h.bytes i hfirst]
    · obtain ⟨k, rfl⟩ := Nat.exists_eq_add_of_le (Nat.not_lt.mp hfirst)
      have hlater := h'.bytes k (by omega)
      have hdiv : (2 * a + k) / 2 = a + k / 2 := by omega
      have hmod : (2 * a + k) % 2 = k % 2 := by omega
      rw [hlbuf, h.cell, h.pm, ← wordAddr_add, Nat.add_assoc] at hlater
      rw [hlater, hdiv, hmod]

theorem copyFromPmLoop_copiedOut (len : ℕ) (r : FromPm) :
    CopiedOut len r (copyFromPmLoop len r) := by
  induction len generalizing r with
  | zero =>
    refine ⟨rfl, ?_, rfl, rfl, fun _ _ => rfl, fun i hi => absurd hi (Nat.not_lt_zero i)⟩
    rw [Nat.mul_zero, BitVec.add_zero]
    rfl
  | succ len ih =>
    have hrest : CopiedOut len r.next (copyFromPmLoop (len + 1) r) := ih r.next
    rw [Nat.add_comm len 1] at hrest ⊢
    exact (copiedOut_next r).add hrest

theorem odd_iff (n : BitVec 16) : n &&& 1#16 ≠ 0#16 ↔ n.toNat % 2 = 1 := by
  have hand : (n &&& 1#16).toNat = n.toNat % 2 := by
    rw [BitVec.toNat_and, show (1#16).toNat = 1 from rfl, Nat.and_one_is_mod]
  rw [← hand, ne_eq, ← BitVec.toNat_inj, hand, show (0#16).toNat = 0 from rfl]
  omega

section CopyFrom

variable (vPM : Addr) (dst : ℕ → Byte) (n : BitVec 16) (m : Pm)

theorem copyFromPm_byte (i : ℕ) :
    (stUsbfsCopyFromPm dst vPM n m).1 i =
      if i < n.toNat then leByte (m.cell (vPM + BitVec.ofNat 32 (4 * (i / 2)))) (i % 2)
      else dst i := by
  have h := copyFromPmLoop_copiedOut (n.toNat / 2) ⟨dst, 0, vPM, m⟩
  have hlbuf := h.lbuf
  have hpm := h.pm
  have hbytes := h.bytes
  have hother := h.other
  dsimp only at hlbuf hpm hbytes hother
  simp only [Nat.zero_add, Nat.not_lt_zero, false_or] at hlbuf hbytes hother
  unfold stUsbfsCopyFromPm
  dsimp only
  by_cases hodd : n &&& 1#16 ≠ 0#16
  · have hmod := (odd_iff n).mp hodd
    rw [if_pos hodd, hlbuf, hpm, h.cell]
    dsimp only
    rcases Nat.lt_trichotomy i (2 * (n.toNat / 2)) with hlt | heq | hgt
    · rw [blit_of_lt _ _ hlt, hbytes i hlt, if_pos (by omega)]
    · have hhalf : i / 2 = n.toNat / 2 := by omega
      have hlow : i % 2 = 0 := by omega
      have hat := blit_add (2 * (n.toNat / 2))
        [leByte (m.cell (vPM + BitVec.ofNat 32 (4 * (n.toNat / 2)))) 0]
        (copyFromPmLoop (n.toNat / 2) ⟨dst, 0, vPM, m⟩).buf 0
      rw [Nat.add_zero, ← heq] at hat
      rw [← heq, hat, if_pos (by omega), hhalf, hlow]
      rfl
    · rw [blit_of_le _ (by simp only [List.length_cons, List.length_nil]; omega),
        hother i (by omega), if_neg (by omega)]
  · have hmod := mt (odd_iff n).mpr hodd
    rw [if_neg hodd]
    dsimp only
    by_cases hlt : i < n.toNat
    · rw [hbytes i (by omega), if_pos hlt]
    · rw [hother i (by omega), if_neg hlt]

theorem copyFromPm_mem :
    (stUsbfsCopyFromPm dst vPM n m).2.cell = m.cell ∧
      (stUsbfsCopyFromPm dst vPM n m).2.touched =
        (wordAddrs vPM ((n.toNat + 1) / 2)).reverse ++ m.touched := by
  have h := copyFromPmLoop_copiedOut (n.toNat / 2) ⟨dst, 0, vPM, m⟩
  have hpm := h.pm
  have htouched := h.touched
  dsimp only at hpm htouched
  unfold stUsbfsCopyFromPm
  dsimp only
  by_cases hodd : n &&& 1#16 ≠ 0#16
  · have hmod := (odd_iff n).mp hodd
    have hup : (n.toNat + 1) / 2 = n.toNat / 2 + 1 := by omega
    have hlast : wordAddrs vPM (n.toNat / 2 + 1) =
        wordAddrs vPM (n.toNat / 2) ++ [vPM + BitVec.ofNat 32 (4 * (n.toNat / 2))] := by
      rw [wordAddrs_add, wordAddrs_succ]
      rfl
    rw [if_pos hodd, hpm, hup, hlast]
    refine ⟨h.cell, ?_⟩
    simp [Pm.touch, htouched]
  · have hmod := mt (odd_iff n).mpr hodd
    have hdown : (n.toNat + 1) / 2 = n.toNat / 2 := by omega
    rw [if_neg hodd, hdown]
    exact ⟨h.cell, htouched⟩

end CopyFrom

section RoundTrip

variable (vPM : Addr) (buf dst : ℕ → Byte) (n : BitVec 16) (m : Pm)

theorem copied_byte (i : ℕ) :
    (stUsbfsCopyFromPm dst vPM n (stUsbfsCopyToPm vPM buf n m)).1 i =
      if i < n.toNat then buf i else dst i := by
  have hn := n.isLt
  rw [copyFromPm_byte]
  by_cases hi : i < n.toNat
  · have hstored : (stUsbfsCopyToPm vPM buf n m).cell (vPM + BitVec.ofNat 32 (4 * (i / 2))) =
        load16 buf (0 + 2 * (i / 2)) :=
      copyToPmLoop_cell buf (by omega) vPM 0 m (by omega)
    rw [if_pos hi, if_pos hi, hstored, leByte_load16 _ _ (Nat.mod_lt i (by decide)), Nat.zero_add,
      Nat.div_add_mod]
  · rw [if_neg hi, if_neg hi]

/-- What the endpoint routines take the two copies for. -/
theorem copied_eq_blit :
    (stUsbfsCopyFromPm dst vPM n (stUsbfsCopyToPm vPM buf n m)).1 =
      blit 0 (slice buf 0 n.toNat) dst := by
  funext i
  rw [blit_zero, copied_byte, List.getD_eq_getElem?_getD]
  by_cases hi : i < n.toNat
  · rw [if_pos hi, getElem?_slice _ _ _ hi, Nat.zero_add, Option.getD_some]
  · rw [if_neg hi, List.getElem?_eq_none (by simpa using hi), Option.getD_none]

end RoundTrip

/-- Bytes copied into packet memory and out again are the same bytes; both copies access exactly
the cells that hold them, and the destination changes nowhere else. -/
theorem pm_round_trip (vPM : Addr) (buf dst : ℕ → Byte) (n : BitVec 16) (m : Pm) :
    let cells := wordAddrs vPM ((n.toNat + 1) / 2)
    let m' := stUsbfsCopyToPm vPM buf n m
    let r := stUsbfsCopyFromPm dst vPM n m'
    (∀ i < n.toNat, r.1 i = buf i) ∧ (∀ i, n.toNat ≤ i → r.1 i = dst i) ∧
      m'.touched = cells.reverse ++ m.touched ∧ (∀ a ∉ cells, m'.cell a = m.cell a) ∧
      r.2.touched = cells.reverse ++ m'.touched ∧ r.2.cell = m'.cell := by
  intro cells m' r
  have hbyte : ∀ i, r.1 i = if i < n.toNat then buf i else dst i := copied_byte vPM buf dst n m
  obtain ⟨hcell, htouched⟩ := copyFromPm_mem vPM dst n m'
  refine ⟨fun i hi => ?_, fun i hi => ?_, ?_, fun a ha => ?_, htouched, hcell⟩
  · rw [hbyte, if_pos hi]
  · rw [hbyte, if_neg (by omega)]
  · exact copyToPmLoop_touched buf _ vPM 0 m
  · exact copyToPmLoop_other buf 0 m ha

end Swindle
