import Swindle.Flash.Program
import Swindle.Machine.Checksum
import Swindle.Stage1

/-! What the CRC test protects: every byte in the whole words of an image, and none of the one
to three bytes behind the last of them. -/
namespace Swindle
open Machine

def imageSize (mem : Addr → Byte) : ℕ := (read32 mem (startAddr + 8#32)).toNat

def bodyByte (mem : Addr → Byte) (k : ℕ) : Byte := mem (startAddr + 16#32 + BitVec.ofNat 32 k)

def bodyWord (mem : Addr → Byte) (i : ℕ) : BitVec 32 :=
  read32 mem (startAddr + 16#32 + BitVec.ofNat 32 (4 * i))

/-- Stage 1 compares the checksum and starts the application. -/
structure AcceptedByCrc (mem : Addr → Byte) (r : ResetState) : Prop where
  hashed : ¬(read32 mem (startAddr + 8#32) = 0x1234#32 ∧
    read32 mem (startAddr + 12#32) = 0x5678#32)
  starts : (main .crc32 mem r).chainTo = appAddress

/-- The same header, and bodies that differ in byte `k` only. -/
structure OneByteApart (mem₁ mem₂ : Addr → Byte) (k : ℕ) : Prop where
  header : ∀ i < 16, mem₂ (startAddr + BitVec.ofNat 32 i) = mem₁ (startAddr + BitVec.ofNat 32 i)
  inBody : k < imageSize mem₁
  changed : bodyByte mem₁ k ≠ bodyByte mem₂ k
  same : ∀ i < imageSize mem₁, i ≠ k → bodyByte mem₁ i = bodyByte mem₂ i

/-! Words and their bytes. -/

theorem bodyWord_inj {mem₁ mem₂ : Addr → Byte} {i : ℕ} :
    bodyWord mem₁ i = bodyWord mem₂ i ↔
      ∀ j < 4, bodyByte mem₁ (4 * i + j) = bodyByte mem₂ (4 * i + j) := by
  simp only [bodyWord, read32, load32_inj, bodyByte, Nat.zero_add, BitVec.ofNat_add,
    BitVec.add_assoc]

theorem read32_header {mem₁ mem₂ : Addr → Byte}
    (h : ∀ i < 16, mem₂ (startAddr + BitVec.ofNat 32 i) = mem₁ (startAddr + BitVec.ofNat 32 i))
    {i : ℕ} (hi : i + 4 ≤ 16) :
    read32 mem₂ (startAddr + BitVec.ofNat 32 i) = read32 mem₁ (startAddr + BitVec.ofNat 32 i) := by
  rw [read32, read32, load32_inj]
  intro j hj
  rw [Nat.zero_add, BitVec.add_assoc, ← BitVec.ofNat_add]
  exact h (i + j) (by omega)

theorem words_eq_map (mem : Addr → Byte) (n : ℕ) :
    words mem (startAddr + 16#32) n = (List.range n).map (bodyWord mem) := by
  rw [words, wordAddrs, List.map_map]
  rfl

/-! The decision. -/

theorem crc32_lossless : Checksum.Lossless CrcUnit.crc32.feed :=
  Checksum.lossless_xor
    ((show Function.Injective crcBit from Checksum.shift_injective (by decide)).iterate 32)

theorem main_starts_iff (crc : CrcUnit) (mem : Addr → Byte) (r : ResetState) :
    (main crc mem r).chainTo = appAddress ↔
      ¬r.Forced ∧ StackInRam mem ∧ (checkImage crc mem).1 = 0#32 := by
  have hne : ramStartAddr ≠ appAddress := by decide
  by_cases hskip : r.Forced ∨ ¬StackInRam mem
  · rw [(main_of_skipped crc mem r hskip).2]
    simp only [hne, false_iff]
    intro h
    exact hskip.elim h.1 (fun hs => hs h.2.1)
  · obtain ⟨hf, hs⟩ := not_or.mp hskip
    rw [(main_of_checked crc mem r hf (not_not.mp hs)).2]
    simp [hf, not_not.mp hs, hne]

theorem main_chainTo (crc : CrcUnit) (mem : Addr → Byte) (r : ResetState) :
    (main crc mem r).chainTo = appAddress ∨ (main crc mem r).chainTo = ramStartAddr := by
  by_cases hskip : r.Forced ∨ ¬StackInRam mem
  · exact .inr (main_of_skipped crc mem r hskip).2
  · obtain ⟨hf, hs⟩ := not_or.mp hskip
    rw [(main_of_checked crc mem r hf (not_not.mp hs)).2]
    split <;> simp

theorem checkImage_iff {crc : CrcUnit} {mem : Addr → Byte} (h : ¬NoCrc mem) :
    (checkImage crc mem).1 = 0#32 ↔
      ((List.range (imageSize mem / 4)).map (bodyWord mem)).foldl crc.feed crc.reset =
        read32 mem (startAddr + 12#32) := by
  rw [checkImage_of_crc crc h, ← words_eq_map]
  dsimp only [imageSize]
  split
  · simp_all
  · simp_all

section Changed

variable {mem₁ mem₂ : Addr → Byte} {k : ℕ}

theorem AcceptedByCrc.not_noCrc {r : ResetState} (h : AcceptedByCrc mem₁ r) : ¬NoCrc mem₁ := by
  intro hno
  have hzero := ((main_starts_iff _ _ _).mp h.starts).2.2
  have hbig := hno.resolve_right h.hashed
  rw [checkImage_of_noCrc _ hno, if_pos hbig] at hzero
  exact absurd hzero (by decide)

theorem OneByteApart.foldl_eq_iff (h : OneByteApart mem₁ mem₂ k) (r : BitVec 32) :
    ((List.range (imageSize mem₁ / 4)).map (bodyWord mem₁)).foldl CrcUnit.crc32.feed r =
        ((List.range (imageSize mem₁ / 4)).map (bodyWord mem₂)).foldl CrcUnit.crc32.feed r ↔
      4 * (imageSize mem₁ / 4) ≤ k := by
  have hin := h.inBody
  have hsame : ∀ i < imageSize mem₁ / 4, i ≠ k / 4 → bodyWord mem₁ i = bodyWord mem₂ i := by
    intro i hi hne
    exact bodyWord_inj.mpr fun j hj => h.same _ (by omega) (by omega)
  constructor
  · intro heq
    by_contra hlt
    have hk : k / 4 ∈ List.range (imageSize mem₁ / 4) := List.mem_range.mpr (by omega)
    have hne : bodyWord mem₁ (k / 4) ≠ bodyWord mem₂ (k / 4) := by
      intro hword
      have hbyte := bodyWord_inj.mp hword (k % 4) (by omega)
      rw [Nat.div_add_mod] at hbyte
      exact h.changed hbyte
    exact crc32_lossless.foldl_ne List.nodup_range hk hne
      (fun i hi => hsame i (List.mem_range.mp hi)) r heq
  · intro hle
    refine congrArg (List.foldl _ r) (List.map_congr_left fun i hi => ?_)
    have hi' := List.mem_range.mp hi
    exact hsame i hi' (by omega)

/-- A change of one byte is found exactly if the byte lies in a whole word of the image. -/
theorem changed_byte_found_iff {r : ResetState} (h : AcceptedByCrc mem₁ r)
    (hd : OneByteApart mem₁ mem₂ k) :
    (main .crc32 mem₂ r).chainTo = ramStartAddr ↔ k < 4 * (imageSize mem₁ / 4) := by
  have hstack : read32 mem₂ startAddr = read32 mem₁ startAddr := by
    have := read32_header hd.header (show 0 + 4 ≤ 16 by decide)
    simpa using this
  have hsize : read32 mem₂ (startAddr + 8#32) = read32 mem₁ (startAddr + 8#32) :=
    read32_header hd.header (show 8 + 4 ≤ 16 by decide)
  have hsum : read32 mem₂ (startAddr + 12#32) = read32 mem₁ (startAddr + 12#32) :=
    read32_header hd.header (show 12 + 4 ≤ 16 by decide)
  have hno₁ := h.not_noCrc
  have hno₂ : ¬NoCrc mem₂ := by
    unfold NoCrc at hno₁ ⊢
    rwa [hsize, hsum]
  obtain ⟨hf, hs, hcheck⟩ := (main_starts_iff _ _ _).mp h.starts
  have hs₂ : StackInRam mem₂ := by
    unfold StackInRam at hs ⊢
    rwa [hstack]
  have hboots : (main .crc32 mem₂ r).chainTo = appAddress ↔ 4 * (imageSize mem₁ / 4) ≤ k := by
    rw [main_starts_iff, checkImage_iff hno₂, hsum, ← (checkImage_iff hno₁).mp hcheck,
      ← hd.foldl_eq_iff, imageSize, hsize, eq_comm]
    simp only [hf, hs₂, not_false_eq_true, true_and]
    rfl
  have hne : appAddress ≠ ramStartAddr := by decide
  rcases main_chainTo .crc32 mem₂ r with happ | hram
  · have hle := hboots.mp happ
    rw [happ]
    simp only [hne, false_iff]
    omega
  · have hlt := mt hboots.mpr (by rw [hram]; exact hne.symm)
    rw [hram]
    simp only [true_iff]
    omega

end Changed

/-- A flash that is blank but for an image of five bytes, one word and `last`. -/
def fiveByteImage (last : Byte) (x : Addr) : Byte :=
  [0x00#8, 0x00#8, 0x00#8, 0x20#8, 0x11#8, 0x20#8, 0x00#8, 0x08#8, 0x05#8, 0x00#8, 0x00#8, 0x00#8,
    0x4F#8, 0xE7#8, 0xAB#8, 0x1D#8, 0x01#8, 0x02#8, 0x03#8, 0x04#8, last].getD
    (x - startAddr).toNat 0xFF#8

theorem changed_byte_found_iff_first :
    AcceptedByCrc (fiveByteImage 5#8) ⟨0#64, true⟩ ∧
      ((main .crc32 (fun x => if x = 0x08002010#32 then 0#8 else fiveByteImage 5#8 x)
          ⟨0#64, true⟩).chainTo = ramStartAddr ↔ 0 < 4 * (imageSize (fiveByteImage 5#8) / 4)) := by
  have haccept : AcceptedByCrc (fiveByteImage 5#8) ⟨0#64, true⟩ :=
    ⟨by decide, by decide +kernel⟩
  refine ⟨haccept, changed_byte_found_iff haccept ⟨by decide, by decide, by decide, by decide⟩⟩

/-- Stage 1 starts the application although the last byte of its image is not the one that was
accepted. -/
theorem last_byte_unprotected :
    AcceptedByCrc (fiveByteImage 5#8) ⟨0#64, true⟩ ∧
      OneByteApart (fiveByteImage 5#8) (fiveByteImage 6#8) 4 ∧
      (main .crc32 (fiveByteImage 6#8) ⟨0#64, true⟩).chainTo = appAddress := by
  refine ⟨⟨by decide, by decide +kernel⟩, ?_, by decide +kernel⟩
  exact ⟨by decide, by decide, by decide, by decide⟩

end Swindle
