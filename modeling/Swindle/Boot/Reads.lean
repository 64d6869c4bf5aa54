import Swindle.Stage1

/-! Which addresses the boot check reads: inside the flash, unless the header announces an
image that runs past its end. -/
namespace Swindle
open Machine

/-- Every word the CRC loop reads lies in the on-chip flash. -/
def Boot.ReadsInside (c : Device) (b : Boot) : Prop :=
  ∀ p ∈ b.crcReads, flashBaseAddr.toNat ≤ p.toNat ∧
    p.toNat + 4 ≤ flashBaseAddr.toNat + c.flashSize * 1024

/-- The condition: the image is not checked, or the words announced end before the flash. -/
def ImageInside (c : Device) (mem : Addr → Byte) (r : ResetState) : Prop :=
  r.Forced ∨ ¬StackInRam mem ∨ NoCrc mem ∨
    (flashBootldrSizeKb * 1024 + 16) + 4 * ((read32 mem (startAddr + 8#32)).toNat / 4) ≤
      c.flashSize * 1024

section Reads

variable (crc : CrcUnit) {mem : Addr → Byte}

theorem reads_inside_of_crc (c : Device) {r : ResetState} (hf : ¬r.Forced)
    (hs : StackInRam mem) (hno : ¬NoCrc mem) :
    (main crc mem r).ReadsInside c ↔ ∀ i < (read32 mem (startAddr + 8#32)).toNat / 4,
      8208 + 4 * i + 4 ≤ c.flashSize * 1024 := by
  have hsize := (not_or.mp hno).1
  have hbase : flashBaseAddr.toNat = 0x08000000 := rfl
  have hword : ∀ i < (read32 mem (startAddr + 8#32)).toNat / 4,
      (startAddr + 16#32 + BitVec.ofNat 32 (4 * i)).toNat = 0x08002010 + 4 * i := fun i hi => by
    rw [BitVec.toNat_add, BitVec.toNat_ofNat, show (startAddr + 16#32).toNat = 0x08002010 from rfl]
    omega
  unfold Boot.ReadsInside
  rw [(main_of_checked crc mem r hf hs).1, checkImage_of_crc crc hno]
  constructor
  · intro hall i hi
    have hp := (hall _ (List.mem_reverse.mpr (mem_wordAddrs.mpr ⟨i, hi, rfl⟩))).2
    rw [hword i hi, hbase] at hp
    omega
  · intro hall p hp
    obtain ⟨i, hi, rfl⟩ := mem_wordAddrs.mp (List.mem_reverse.mp hp)
    have hle := hall i hi
    rw [hword i hi, hbase]
    omega

theorem reads_inside_of_none (c : Device) {b : Boot} (h : b.crcReads = []) : b.ReadsInside c :=
  fun p hp => by
    rw [h] at hp
    cases hp

/-- The boot check stays inside the flash exactly if the condition holds. -/
theorem reads_inside_iff (c : Device) (mem : Addr → Byte) (r : ResetState)
    (h : 12 ≤ c.flashSize) : (main crc mem r).ReadsInside c ↔ ImageInside c mem r := by
  by_cases hskip : r.Forced ∨ ¬StackInRam mem
  · have hreads := (main_of_skipped crc mem r hskip).1
    exact ⟨fun _ => hskip.elim .inl (fun hs => .inr (.inl hs)),
      fun _ => reads_inside_of_none c hreads⟩
  obtain ⟨hf, hs⟩ := not_or.mp hskip
  have hs' : StackInRam mem := not_not.mp hs
  by_cases hno : NoCrc mem
  · have hreads := (main_of_checked crc mem r hf hs').1
    rw [checkImage_of_noCrc crc hno] at hreads
    exact ⟨fun _ => .inr (.inr (.inl hno)), fun _ => reads_inside_of_none c hreads⟩
  have hcond : ImageInside c mem r ↔
      8208 + 4 * ((read32 mem (startAddr + 8#32)).toNat / 4) ≤ c.flashSize * 1024 := by
    simp only [ImageInside, hf, hs, hno, false_or]
    rfl
  rw [reads_inside_of_crc crc c hf hs' hno, hcond]
  constructor
  · intro hall
    by_cases hz : (read32 mem (startAddr + 8#32)).toNat / 4 = 0
    · omega
    · have hlast := hall ((read32 mem (startAddr + 8#32)).toNat / 4 - 1) (by omega)
      omega
  · intro hle i hi
    omega

theorem reads_inside_iff_two_words :
    let mem : Addr → Byte := fun x =>
      [0x00#8, 0x00#8, 0x00#8, 0x20#8, 0xFF#8, 0xFF#8, 0xFF#8, 0xFF#8, 0x08#8, 0x00#8, 0x00#8,
        0x00#8].getD (x - startAddr).toNat 0xFF#8
    12 ≤ Device.stm64k.flashSize ∧
      (main .crc32 mem ⟨0#64, true⟩).crcReads = [0x08002014#32, 0x08002010#32] ∧
      ((main .crc32 mem ⟨0#64, true⟩).ReadsInside Device.stm64k ↔
        ImageInside Device.stm64k mem ⟨0#64, true⟩) := by
  intro mem
  have hreads : (main .crc32 mem ⟨0#64, true⟩).crcReads = [0x08002014#32, 0x08002010#32] := by
    decide +kernel
  exact ⟨by decide, hreads, reads_inside_iff .crc32 Device.stm64k mem ⟨0#64, true⟩ (by decide)⟩

end Reads

/-- A flash that is blank but for the header of an image, with a size of 0x3FFFC. -/
def oversizedHeader (x : Addr) : Byte :=
  [0x00#8, 0x00#8, 0x00#8, 0x20#8, 0xFF#8, 0xFF#8, 0xFF#8, 0xFF#8, 0xFC#8, 0xFF#8, 0x03#8,
    0x00#8].getD (x - startAddr).toNat 0xFF#8

/-- On a part with 64 KB of flash the CRC loop runs on to the end of the announced image. -/
theorem oversized_reads_outside :
    ¬(main .crc32 oversizedHeader ⟨0#64, true⟩).ReadsInside Device.stm64k := by
  rw [reads_inside_of_crc .crc32 Device.stm64k (by decide) (by decide) (by decide)]
  intro hall
  have hword : 65534 < (read32 oversizedHeader (startAddr + 8#32)).toNat / 4 := by decide
  exact absurd (hall 65534 hword) (by decide)

end Swindle
