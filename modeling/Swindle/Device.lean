import Mathlib.Algebra.Ring.Nat
import Mathlib.Tactic.Common

/-! The chip stage 2 runs on and the options it is built with. -/
namespace Swindle

abbrev Byte := BitVec 8
abbrev Addr := BitVec 32

inductive LnVendor
  | unknown | stm | gd | wch | esp
  deriving DecidableEq, Repr

/-- `density` is the word at 0x1FFFF7E0 and `uniqueId` the bytes from 0x1FFFF7E8. -/
structure Device where
  density : BitVec 32
  uniqueId : ℕ → Byte
  enableDfuUpload : Bool
  enableSafewrite : Bool

namespace Device

/-- `lnCpuID::flashSize`, in KB. -/
def flashSize (c : Device) : ℕ := (c.density &&& 0xffff#32).toNat

/-- `lnCpuID::vendor`: only GD32 parts report a RAM size beside the flash size. -/
def vendor (c : Device) : LnVendor := if c.density >>> 16 ≠ 0xffff#32 then .gd else .stm

def isGd32 (c : Device) : Bool := c.vendor = .gd

/-- `get_flash_page_size`; the cached value is always this one. -/
def getFlashPageSize (c : Device) : ℕ := if c.vendor = .gd then 2048 else 1024

theorem flashSize_lt (c : Device) : c.flashSize < 65536 := by
  have h : (c.density &&& 0xffff#32).toNat ≤ 0xffff := by
    rw [BitVec.toNat_and]
    exact Nat.and_le_right
  exact Nat.lt_succ_of_le h

theorem pageSize_cases (c : Device) : c.getFlashPageSize = 1024 ∨ c.getFlashPageSize = 2048 := by
  unfold getFlashPageSize
  by_cases h : c.vendor = .gd <;> simp [h]

/-- A part with 64 KB of flash, without upload and without safe write. -/
def stm64k : Device :=
  { density := 0xFFFF0040#32
    uniqueId := fun _ => 0#8
    enableDfuUpload := false
    enableSafewrite := false }

def upload64k : Device := { stm64k with enableDfuUpload := true }

end Device

def flashBaseAddr : Addr := 0x08000000#32
def flashBootldrSizeKb : ℕ := 8
def dfuTransferSize : ℕ := 4096

theorem dfuTransferSize_pos : 0 < dfuTransferSize := by decide

/-- First byte of the application area; stage 1 and stage 2 compute it alike. -/
def startAddr : Addr := flashBaseAddr + BitVec.ofNat 32 (flashBootldrSizeKb * 1024)

def endAddr (c : Device) : Addr := flashBaseAddr + BitVec.ofNat 32 (c.flashSize * 1024)

@[simp] theorem startAddr_toNat : startAddr.toNat = 0x08002000 := rfl

theorem endAddr_toNat (c : Device) : (endAddr c).toNat = 0x08000000 + c.flashSize * 1024 := by
  have h := c.flashSize_lt
  simp only [endAddr, flashBaseAddr, BitVec.toNat_add, BitVec.toNat_ofNat]
  omega

theorem endAddr_lt (c : Device) : (endAddr c).toNat ≤ 2 ^ 31 := by
  have h := c.flashSize_lt
  rw [endAddr_toNat]
  omega

end Swindle
