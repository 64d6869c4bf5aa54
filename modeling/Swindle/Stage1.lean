import Mathlib.Logic.Function.Iterate
import Swindle.Flash.Controller

/-! Stage 1: `main` decides after a reset between the application and DFU, `ch32_crc` runs the
words of the image through the CRC unit. -/
namespace Swindle
open Machine

/-- The CRC unit: its register after a reset, and what a word written makes of it. -/
structure CrcUnit where
  reset : BitVec 32
  feed : BitVec 32 → BitVec 32 → BitVec 32

/-- The data register, and the addresses read so far, newest first. -/
structure CrcRun where
  data : BitVec 32
  reads : List Addr

/-- `for (p = mem; p < lim; p++)`, stopped after `fuel` rounds. -/
def crcLoop (crc : CrcUnit) (mem : Addr → Byte) (lim : Addr) : ℕ → Addr → CrcRun → CrcRun
  | 0, _, r => r
  | fuel + 1, p, r =>
    if p < lim then
      crcLoop crc mem lim fuel (p + 4#32)
        { data := crc.feed r.data (read32 mem p), reads := p :: r.reads }
    else r

/-- `lim` is at most `lenInU32` words away, modulo 2^32, which bounds the rounds. -/
def ch32Crc (crc : CrcUnit) (mem : Addr → Byte) (addr lenInU32 : Addr) : CrcRun :=
  crcLoop crc mem (addr + 4#32 * lenInU32) lenInU32.toNat addr ⟨crc.reset, []⟩

/-- CRC-32 as the unit computes it: a word at a time, most significant bit first. -/
def crcBit (v : BitVec 32) : BitVec 32 :=
  if v.msb then (v <<< 1) ^^^ 0x04C11DB7#32 else v <<< 1

def CrcUnit.crc32 : CrcUnit where
  reset := 0xFFFFFFFF#32
  feed := fun r w => crcBit^[32] (r ^^^ w)

def ramStartAddr : Addr := 0x20000000#32

def appAddress : Addr := flashBaseAddr + BitVec.ofNat 32 (flashBootldrSizeKb * 1024)

/-- What a reset finds besides the flash: the marker in RAM and the level of PB14. -/
structure ResetState where
  marker : BitVec 64
  pb14 : Bool

def rebootedIntoDfu (marker : BitVec 64) : Bool := marker = 0xDEADBEEFCC00FFEE#64

/-- `chainTo` is the vector table `main` jumps through: the application's, or that of stage 2,
which has been copied to RAM. -/
structure Boot where
  goDfu : BitVec 32
  crcReads : List Addr
  marker : BitVec 64
  chainTo : Addr

/-- The CRC test, with `go_dfu` clear: the flag it leaves and what it has read. -/
def checkImage (crc : CrcUnit) (mem : Addr → Byte) : BitVec 32 × List Addr :=
  let imageSize := read32 mem (startAddr + 8#32)
  let checksum := read32 mem (startAddr + 12#32)
  if imageSize < BitVec.ofNat 32 (256 * 1024) then
    if imageSize ≠ 0x1234#32 ∨ checksum ≠ 0x5678#32 then
      let computed := ch32Crc crc mem (startAddr + 16#32) (imageSize >>> 2)
      (if computed.data ≠ checksum then 4#32 else 0#32, computed.reads)
    else (0#32, [])
  else (1#32, [])

def main (crc : CrcUnit) (mem : Addr → Byte) (r : ResetState) : Boot :=
  let sig := read32 mem startAddr
  let goDfu : BitVec 32 := if rebootedIntoDfu r.marker then 1#32 else 0#32
  let goDfu := if !r.pb14 then goDfu ||| 1#32 else goDfu
  let goDfu := if goDfu = 0#32 ∧ sig >>> 20 ≠ 0x200#32 then goDfu ||| 2#32 else goDfu
  let (goDfu, crcReads) := if goDfu = 0#32 then checkImage crc mem else (goDfu, [])
  { goDfu := goDfu
    crcReads := crcReads
    marker := 0#64
    chainTo := if goDfu = 0#32 then appAddress &&& ~~~0xF#32 else ramStartAddr }

/-! The loop. -/

def words (mem : Addr → Byte) (p : Addr) (n : ℕ) : List (BitVec 32) :=
  (wordAddrs p n).map (read32 mem)

section Loop

variable (crc : CrcUnit) (mem : Addr → Byte)

theorem crcLoop_eq {n : ℕ} {p lim : Addr} (h : p.toNat + 4 * n = lim.toNat) (r : CrcRun) :
    crcLoop crc mem lim n p r =
      { data := (words mem p n).foldl crc.feed r.data
        reads := (wordAddrs p n).reverse ++ r.reads } := by
  induction n generalizing p r with
  | zero => rfl
  | succ n ih =>
    have hl := lim.isLt
    have hlt : p < lim := by
      rw [BitVec.lt_def]
      omega
    have hnext : (p + 4#32).toNat + 4 * n = lim.toNat := by
      rw [BitVec.toNat_add, show (4#32).toNat = 4 from rfl]
      omega
    have hround : crcLoop crc mem lim (n + 1) p r = crcLoop crc mem lim n (p + 4#32)
        { data := crc.feed r.data (read32 mem p), reads := p :: r.reads } := if_pos hlt
    rw [hround, ih hnext, words, words, wordAddrs_succ, List.map_cons, List.foldl_cons,
      List.reverse_cons, List.append_assoc]
    rfl

theorem ch32Crc_eq {addr len : Addr} (h : addr.toNat + 4 * len.toNat < 2 ^ 32) :
    ch32Crc crc mem addr len =
      { data := (words mem addr len.toNat).foldl crc.feed crc.reset
        reads := (wordAddrs addr len.toNat).reverse } := by
  have hlim : addr.toNat + 4 * len.toNat = (addr + 4#32 * len).toNat := by
    rw [BitVec.toNat_add, BitVec.toNat_mul, show (4#32).toNat = 4 from rfl]
    omega
  rw [ch32Crc, crcLoop_eq crc mem hlim, List.append_nil]

end Loop

/-! What the CRC test finds. -/

/-- The header announces a size of 256 KB or more, or an image without a hash. -/
def NoCrc (mem : Addr → Byte) : Prop :=
  let imageSize := read32 mem (startAddr + 8#32)
  let checksum := read32 mem (startAddr + 12#32)
  256 * 1024 ≤ imageSize.toNat ∨ imageSize = 0x1234#32 ∧ checksum = 0x5678#32

instance (mem : Addr → Byte) : Decidable (NoCrc mem) := inferInstanceAs (Decidable (_ ∨ _))

section Check

variable (crc : CrcUnit) {mem : Addr → Byte}

theorem checkImage_of_noCrc (h : NoCrc mem) :
    checkImage crc mem =
      (if 256 * 1024 ≤ (read32 mem (startAddr + 8#32)).toNat then 1#32 else 0#32, []) := by
  have hlt : read32 mem (startAddr + 8#32) < BitVec.ofNat 32 (256 * 1024) ↔
      ¬256 * 1024 ≤ (read32 mem (startAddr + 8#32)).toNat := by
    rw [BitVec.lt_def, BitVec.toNat_ofNat]
    omega
  unfold checkImage
  dsimp only
  by_cases hs : 256 * 1024 ≤ (read32 mem (startAddr + 8#32)).toNat
  · rw [if_neg (fun hl => hlt.mp hl hs), if_pos hs]
  · obtain ⟨hsize, hsum⟩ := h.resolve_left hs
    have hpair : ¬(read32 mem (startAddr + 8#32) ≠ 0x1234#32 ∨
        read32 mem (startAddr + 12#32) ≠ 0x5678#32) :=
      fun hne => hne.elim (absurd hsize) (absurd hsum)
    rw [if_pos (hlt.mpr hs), if_neg hpair, if_neg hs]

theorem checkImage_of_crc (h : ¬NoCrc mem) :
    let n := (read32 mem (startAddr + 8#32)).toNat / 4
    checkImage crc mem =
      (if (words mem (startAddr + 16#32) n).foldl crc.feed crc.reset ≠
          read32 mem (startAddr + 12#32) then 4#32 else 0#32,
        (wordAddrs (startAddr + 16#32) n).reverse) := by
  intro n
  obtain ⟨hs, hp⟩ := not_or.mp h
  have hlt : read32 mem (startAddr + 8#32) < BitVec.ofNat 32 (256 * 1024) := by
    rw [BitVec.lt_def, BitVec.toNat_ofNat]
    omega
  have hpair : read32 mem (startAddr + 8#32) ≠ 0x1234#32 ∨
      read32 mem (startAddr + 12#32) ≠ 0x5678#32 := Decidable.not_and_iff_not_or_not.mp hp
  have hn : (read32 mem (startAddr + 8#32) >>> 2).toNat = n := by
    rw [BitVec.toNat_ushiftRight, Nat.shiftRight_eq_div_pow]
  have hstart : (startAddr + 16#32).toNat = 0x08002010 := by decide
  have hfit : (startAddr + 16#32).toNat + 4 * (read32 mem (startAddr + 8#32) >>> 2).toNat <
      2 ^ 32 := by
    rw [hn, hstart]
    omega
  unfold checkImage
  dsimp only
  rw [if_pos hlt, if_pos hpair, ch32Crc_eq crc mem hfit, hn]

end Check

/-! What `main` decides. -/

/-- DFU is asked for before the image is looked at. -/
def ResetState.Forced (r : ResetState) : Prop := r.marker = 0xDEADBEEFCC00FFEE#64 ∨ r.pb14 = false

instance (r : ResetState) : Decidable r.Forced := inferInstanceAs (Decidable (_ ∨ _))

section Decision

variable (crc : CrcUnit) (mem : Addr → Byte) (r : ResetState)

/-- The first word looks like a stack pointer in SRAM. -/
def StackInRam : Prop := read32 mem startAddr >>> 20 = 0x200#32

instance : Decidable (StackInRam mem) := inferInstanceAs (Decidable (_ = _))

theorem main_of_checked (hf : ¬r.Forced) (hs : StackInRam mem) :
    (main crc mem r).crcReads = (checkImage crc mem).2 ∧
      (main crc mem r).chainTo =
        if (checkImage crc mem).1 = 0#32 then appAddress else ramStartAddr := by
  obtain ⟨hm, hp⟩ := not_or.mp hf
  have hm' : rebootedIntoDfu r.marker = false := decide_eq_false hm
  have hp' : r.pb14 = true := by simpa using hp
  have hs' : read32 mem startAddr >>> 20 = 0x200#32 := hs
  have happ : appAddress &&& 0xFFFFFFF0#32 = appAddress := by decide
  unfold main
  simp [hm', hp', hs', happ]

theorem main_of_skipped (h : r.Forced ∨ ¬StackInRam mem) :
    (main crc mem r).crcReads = [] ∧ (main crc mem r).chainTo = ramStartAddr := by
  unfold main
  by_cases hm : rebootedIntoDfu r.marker
  · cases hp : r.pb14 <;> simp [hm]
  · cases hp : r.pb14 with
    | false => simp [hm]
    | true =>
      have hs : ¬StackInRam mem := h.resolve_left fun hf => hf.elim
        (fun hmark => hm (decide_eq_true hmark)) (fun hpin => by rw [hp] at hpin; cases hpin)
      have hs' : ¬read32 mem startAddr >>> 20 = 0x200#32 := hs
      simp [hm, hs']

end Decision

end Swindle
