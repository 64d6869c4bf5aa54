import Swindle.Download.Image
import Swindle.Stage1

/-! The two stages together: which of the images that stage 2 has stored stage 1 boots. -/
namespace Swindle
open Machine

def imageWord (img : List Byte) (off : ℕ) : BitVec 32 := load32 (fun j => img.getD j 0#8) off

/-- The CRC of the words behind the header, as many as the header announces. -/
def imageCrc (crc : CrcUnit) (img : List Byte) : BitVec 32 :=
  ((List.range ((imageWord img 8).toNat / 4)).map fun i => imageWord img (16 + 4 * i)).foldl
    crc.feed crc.reset

/-- A stack pointer in SRAM, a size below 256 KB, and a matching CRC or no hash at all. -/
def Bootable (crc : CrcUnit) (img : List Byte) : Prop :=
  imageWord img 0 >>> 20 = 0x200#32 ∧ (imageWord img 8).toNat < 256 * 1024 ∧
    (imageWord img 8 = 0x1234#32 ∧ imageWord img 12 = 0x5678#32 ∨
      imageCrc crc img = imageWord img 12)

instance (crc : CrcUnit) (img : List Byte) : Decidable (Bootable crc img) :=
  inferInstanceAs (Decidable (_ ∧ _ ∧ _))

section Stored

variable {c : Device} {img : List Byte} {m mem : Addr → Byte}

theorem Holds.read32 (h : Holds c startAddr img m mem) {off : ℕ} (hoff : off + 4 ≤ img.length) :
    Swindle.read32 mem (startAddr + BitVec.ofNat 32 off) = imageWord img off := by
  have hbyte : ∀ j < 4, mem (startAddr + BitVec.ofNat 32 off + BitVec.ofNat 32 j) =
      img.getD (off + j) 0#8 := fun j hj => by
    rw [BitVec.add_assoc, ← BitVec.ofNat_add, h.image (off + j) (by omega),
      List.getD_eq_getElem _ _ (by omega)]
  rw [Swindle.read32, imageWord, load32, load32]
  rw [hbyte 0 (by decide), hbyte 1 (by decide), hbyte 2 (by decide), hbyte 3 (by decide)]
  rfl

theorem Holds.words (h : Holds c startAddr img m mem) {n : ℕ} (hn : 16 + 4 * n ≤ img.length) :
    Swindle.words mem (startAddr + 16#32) n =
      (List.range n).map fun i => imageWord img (16 + 4 * i) := by
  rw [Swindle.words, wordAddrs, List.map_map]
  refine List.map_congr_left fun i hi => ?_
  have hi' : i < n := List.mem_range.mp hi
  have hadr : startAddr + 16#32 + BitVec.ofNat 32 (4 * i) =
      startAddr + BitVec.ofNat 32 (16 + 4 * i) := by
    rw [BitVec.add_assoc, BitVec.ofNat_add]
  rw [Function.comp_apply, hadr, h.read32 (by omega)]

theorem Holds.checkImage_iff (crc : CrcUnit) (h : Holds c startAddr img m mem)
    (h16 : 16 ≤ img.length) (hsize : 16 + (imageWord img 8).toNat ≤ img.length) :
    StackInRam mem ∧ (checkImage crc mem).1 = 0#32 ↔ Bootable crc img := by
  have hsig : Swindle.read32 mem startAddr = imageWord img 0 := by
    rw [← h.read32 (by omega), BitVec.add_zero]
  have hlen : Swindle.read32 mem (startAddr + 8#32) = imageWord img 8 := h.read32 (by omega)
  have hsum : Swindle.read32 mem (startAddr + 12#32) = imageWord img 12 := h.read32 (by omega)
  have hcrc : (Swindle.words mem (startAddr + 16#32) ((imageWord img 8).toNat / 4)).foldl
      crc.feed crc.reset = imageCrc crc img := by
    rw [h.words (by omega)]
    rfl
  rw [StackInRam, hsig, Bootable]
  refine and_congr_right' ?_
  by_cases hno : NoCrc mem
  · have hno' : 256 * 1024 ≤ (imageWord img 8).toNat ∨
        imageWord img 8 = 0x1234#32 ∧ imageWord img 12 = 0x5678#32 := by
      rw [← hlen, ← hsum]
      exact hno
    rw [checkImage_of_noCrc crc hno, hlen]
    by_cases hbig : 256 * 1024 ≤ (imageWord img 8).toNat
    · rw [if_pos hbig]
      exact ⟨fun h1 => absurd h1 (by decide), fun hb => absurd hbig (Nat.not_le.mpr hb.1)⟩
    · rw [if_neg hbig]
      exact ⟨fun _ => ⟨Nat.not_le.mp hbig, .inl (hno'.resolve_left hbig)⟩, fun _ => rfl⟩
  · have hno' : ¬(256 * 1024 ≤ (imageWord img 8).toNat ∨
        imageWord img 8 = 0x1234#32 ∧ imageWord img 12 = 0x5678#32) := by
      rw [← hlen, ← hsum]
      exact hno
    obtain ⟨hsmall, hpair⟩ := not_or.mp hno'
    rw [checkImage_of_crc crc hno, hlen, hsum, hcrc]
    by_cases heq : imageCrc crc img = imageWord img 12
    · rw [if_neg (not_not.mpr heq)]
      exact ⟨fun _ => ⟨Nat.not_le.mp hsmall, .inr heq⟩, fun _ => rfl⟩
    · rw [if_pos heq]
      have h40 : (4#32 : BitVec 32) ≠ 0#32 := by decide
      exact ⟨fun h4 => absurd h4 h40,
        fun hb => absurd hb.2 (not_or.mpr ⟨hpair, heq⟩)⟩

end Stored

/-- After a complete download to the application start, and with neither marker nor pin asking
for DFU, stage 1 boots the image if it is bootable and stage 2 if it is not. -/
theorem downloaded_image_boots (crc : CrcUnit) {c : Device} {s : State} {img : List Byte}
    (hs : Reachable c s) (h : Placed c startAddr img) (ws : Schedule img) (h16 : 16 ≤ img.length)
    (hsize : 16 + (imageWord img 8).toNat ≤ img.length) {r : ResetState}
    (hmarker : r.marker ≠ 0xDEADBEEFCC00FFEE#64) (hpin : r.pb14 = true) :
    let t := run (step c) s (download startAddr img ws.writes)
    (main crc t.dfu.flash.mem r).chainTo =
      if Bootable crc img then appAddress else ramStartAddr := by
  intro t
  have hmem : Holds c startAddr img (wiped c s.dfu.flash) t.dfu.flash.mem := stored_image hs h ws
  have hiff := hmem.checkImage_iff crc h16 hsize
  have hf : ¬r.Forced := by
    rintro (hm | hp)
    · exact hmarker hm
    · rw [hpin] at hp
      cases hp
  by_cases hstack : StackInRam t.dfu.flash.mem
  · rw [(main_of_checked crc _ r hf hstack).2]
    by_cases hb : Bootable crc img
    · rw [if_pos (hiff.mpr hb).2, if_pos hb]
    · rw [if_neg (fun hz => hb (hiff.mp ⟨hstack, hz⟩)), if_neg hb]
  · rw [(main_of_skipped crc _ r (.inr hstack)).2, if_neg fun hb => hstack (hiff.mpr hb).1]

def smallImage : List Byte :=
  [0x00#8, 0x50#8, 0x00#8, 0x20#8, 0x11#8, 0x20#8, 0x00#8, 0x08#8, 0x04#8, 0x00#8, 0x00#8, 0x00#8,
    0x7B#8, 0xDD#8, 0x04#8, 0xC7#8, 0x00#8, 0x00#8, 0x00#8, 0x00#8]

def Schedule.small : Schedule smallImage where
  writes := [(.byNumber, 0)]
  isBlock := by decide
  complete := fun i hi => ⟨.byNumber, by
    obtain rfl : i = 0 := Nat.lt_one_iff.mp hi
    decide⟩

theorem downloaded_image_boots_small :
    let c := Device.stm64k
    let s := State.start (fun _ => 0xFF#8) fun _ => 0#8
    let t := run (step c) s (download startAddr smallImage Schedule.small.writes)
    Bootable .crc32 smallImage ∧ (main .crc32 t.dfu.flash.mem ⟨0#64, true⟩).chainTo =
      if Bootable .crc32 smallImage then appAddress else ramStartAddr := by
  intro c s t
  have hs : Reachable c s := ⟨fun _ => 0xFF#8, fun _ => 0#8, [], rfl⟩
  have h : Placed c startAddr smallImage :=
    ⟨by decide, by decide, by decide, by decide, by decide⟩
  refine ⟨by decide +kernel, ?_⟩
  exact downloaded_image_boots .crc32 hs h Schedule.small (by decide) (by decide)
    (show (0#64 : BitVec 64) ≠ 0xDEADBEEFCC00FFEE#64 by decide) rfl

end Swindle
