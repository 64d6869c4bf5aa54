import Swindle.Device
import Mathlib.Logic.Function.Basic

/-! `usb.h`: the USB register file, how the hardware takes a store to each register, and the
macros that set endpoint status without disturbing the bits beside it. -/
namespace Swindle

/-! Word offsets from USB_DEV_FS_BASE; the endpoint registers are the first eight words. -/
def usbCntrReg : ℕ := 16
def usbIstrReg : ℕ := 17
def usbDaddrReg : ℕ := 19
def usbBtableReg : ℕ := 20

def usbDaddrEf : BitVec 16 := 0x0080#16
def usbDaddrAddr : BitVec 16 := 0x007F#16

def usbCntrSofm : BitVec 16 := 0x0200#16

def usbIstrCtr : BitVec 16 := 0x8000#16
def usbIstrWkup : BitVec 16 := 0x1000#16
def usbIstrSusp : BitVec 16 := 0x0800#16
def usbIstrReset : BitVec 16 := 0x0400#16
def usbIstrSof : BitVec 16 := 0x0200#16
def usbIstrDir : BitVec 16 := 0x0010#16
def usbIstrEpId : BitVec 16 := 0x000F#16

def usbEpRxCtr : BitVec 16 := 0x8000#16
def usbEpRxDtog : BitVec 16 := 0x4000#16
def usbEpRxStat : BitVec 16 := 0x3000#16
def usbEpSetup : BitVec 16 := 0x0800#16
def usbEpType : BitVec 16 := 0x0600#16
def usbEpKind : BitVec 16 := 0x0100#16
def usbEpTxCtr : BitVec 16 := 0x0080#16
def usbEpTxDtog : BitVec 16 := 0x0040#16
def usbEpTxStat : BitVec 16 := 0x0030#16
def usbEpAddr : BitVec 16 := 0x000F#16

def usbEpNtoggleMsk : BitVec 16 :=
  usbEpRxCtr ||| usbEpSetup ||| usbEpType ||| usbEpKind ||| usbEpTxCtr ||| usbEpAddr
def usbEpRxStatTogMsk : BitVec 16 := usbEpRxStat ||| usbEpNtoggleMsk
def usbEpTxStatTogMsk : BitVec 16 := usbEpTxStat ||| usbEpNtoggleMsk

def usbEpRxStatDisabled : BitVec 16 := 0x0000#16
def usbEpRxStatStall : BitVec 16 := 0x1000#16
def usbEpRxStatNak : BitVec 16 := 0x2000#16
def usbEpRxStatValid : BitVec 16 := 0x3000#16

def usbEpTxStatDisabled : BitVec 16 := 0x0000#16
def usbEpTxStatStall : BitVec 16 := 0x0010#16
def usbEpTxStatNak : BitVec 16 := 0x0020#16
def usbEpTxStatValid : BitVec 16 := 0x0030#16

def usbEpTypeControl : BitVec 16 := 0x0200#16
def usbEpTypeIso : BitVec 16 := 0x0400#16
def usbEpTypeBulk : BitVec 16 := 0x0000#16
def usbEpTypeInterrupt : BitVec 16 := 0x0600#16

/-- The registers, the words of the buffer table by the place of their entry, the bytes in
endpoint 0's receive buffer, and the two globals of `usb.cpp` that belong to the endpoint layer. -/
structure Usb where
  reg : ℕ → BitVec 16
  txAddr : ℕ → BitVec 16
  txCount : ℕ → BitVec 16
  rxAddr : ℕ → BitVec 16
  rxCount : ℕ → BitVec 16
  rxBuff : ℕ → Byte
  usbForceNak : ℕ → Bool
  usbPmTop : BitVec 16

/-- What a register holds after `v` is stored to it. -/
def stored (off : ℕ) (old v : BitVec 16) : BitVec 16 :=
  if off < 8 then
    -- CTR clears on 0, DTOG and STAT toggle on 1, SETUP is read-only, the rest is plain
    (old &&& v &&& (usbEpRxCtr ||| usbEpTxCtr)) |||
      ((old ^^^ v) &&& (usbEpRxDtog ||| usbEpRxStat ||| usbEpTxDtog ||| usbEpTxStat)) |||
      (old &&& usbEpSetup) ||| (v &&& (usbEpType ||| usbEpKind ||| usbEpAddr))
  else if off = usbCntrReg then v &&& 0xFF1F#16
  else if off = usbIstrReg then
    (old &&& (usbIstrCtr ||| usbIstrDir ||| usbIstrEpId)) ||| (old &&& v &&& 0x7F00#16)
  else if off = usbDaddrReg then v &&& 0x00FF#16
  else if off = usbBtableReg then v &&& 0xFFF8#16
  else old

namespace Usb

/-- `USB_GET_BTABLE + EP * 8`, where the macros find the addresses and counts of an endpoint. -/
def entry (ep : ℕ) (u : Usb) : ℕ := (u.reg usbBtableReg).toNat + ep * 8

def setReg (off : ℕ) (v : BitVec 16) (u : Usb) : Usb :=
  { u with reg := Function.update u.reg off (stored off (u.reg off) v) }

def setEpRxStat (ep : ℕ) (stat : BitVec 16) (u : Usb) : Usb :=
  u.setReg ep (((u.reg ep &&& usbEpRxStatTogMsk) ^^^ stat) ||| (usbEpRxCtr ||| usbEpTxCtr))

def setEpTxStat (ep : ℕ) (stat : BitVec 16) (u : Usb) : Usb :=
  u.setReg ep (((u.reg ep &&& usbEpTxStatTogMsk) ^^^ stat) ||| (usbEpRxCtr ||| usbEpTxCtr))

def clrEpTxDtog (ep : ℕ) (u : Usb) : Usb :=
  u.setReg ep (u.reg ep &&& (usbEpNtoggleMsk ||| usbEpTxDtog))

def clrEpRxDtog (ep : ℕ) (u : Usb) : Usb :=
  u.setReg ep (u.reg ep &&& (usbEpNtoggleMsk ||| usbEpRxDtog))

def clrEpRxCtr (ep : ℕ) (u : Usb) : Usb :=
  u.setReg ep ((u.reg ep &&& usbEpNtoggleMsk &&& ~~~usbEpRxCtr) ||| usbEpTxCtr)

def clrEpTxCtr (ep : ℕ) (u : Usb) : Usb :=
  u.setReg ep ((u.reg ep &&& usbEpNtoggleMsk &&& ~~~usbEpTxCtr) ||| usbEpRxCtr)

def setEpType (ep : ℕ) (type : BitVec 16) (u : Usb) : Usb :=
  u.setReg ep ((u.reg ep &&& (usbEpNtoggleMsk &&& ~~~usbEpType)) ||| type)

def setEpAddr (ep : ℕ) (addr : BitVec 16) (u : Usb) : Usb :=
  u.setReg ep ((u.reg ep &&& (usbEpNtoggleMsk &&& ~~~usbEpAddr)) ||| addr)

/-- `CLR_REG_BIT` on USB_ISTR. -/
def clrIstr (bit : BitVec 16) (u : Usb) : Usb := u.setReg usbIstrReg (~~~bit)

end Usb

/-! What a store makes of the bits under a mask. -/

theorem xor_and (a b m : BitVec 16) : (a ^^^ b) &&& m = (a &&& m) ^^^ (b &&& m) := by
  apply BitVec.eq_of_getLsbD_eq
  intro i hi
  simp only [BitVec.getLsbD_and, BitVec.getLsbD_xor]
  cases m.getLsbD i <;> simp

theorem stored_and {off : ℕ} (h : off < 8) (old v m : BitVec 16) :
    stored off old v &&& m =
      (old &&& (v &&& ((usbEpRxCtr ||| usbEpTxCtr) &&& m))) |||
        ((old ^^^ v) &&& ((usbEpRxDtog ||| usbEpRxStat ||| usbEpTxDtog ||| usbEpTxStat) &&& m)) |||
        (old &&& (usbEpSetup &&& m)) |||
        (v &&& ((usbEpType ||| usbEpKind ||| usbEpAddr) &&& m)) := by
  rw [stored, if_pos h]
  simp only [BitVec.and_or_distrib_right, BitVec.and_assoc]

private theorem stored_stat {off : ℕ} (h : off < 8) (old v : BitVec 16) :
    stored off old v &&& (usbEpRxStat ||| usbEpTxStat) =
      (old ^^^ v) &&& (usbEpRxStat ||| usbEpTxStat) := by
  rw [stored_and h]
  simp [usbEpRxCtr, usbEpTxCtr, usbEpRxDtog, usbEpRxStat, usbEpTxDtog, usbEpTxStat, usbEpSetup,
    usbEpType, usbEpKind, usbEpAddr]

theorem and_or_masked {r k l m : BitVec 16} (hk : k &&& m = 0#16) (hl : l &&& m = 0#16) :
    ((r &&& k) ||| l) &&& m = 0#16 := by
  rw [BitVec.and_or_distrib_right, BitVec.and_assoc, hk, hl, BitVec.and_zero, BitVec.or_zero]

namespace Usb

theorem setReg_reg_self (off : ℕ) (v : BitVec 16) (u : Usb) :
    (u.setReg off v).reg off = stored off (u.reg off) v := Function.update_self ..

theorem setReg_reg_of_ne (u : Usb) {i off : ℕ} (h : i ≠ off) (v : BitVec 16) :
    (u.setReg off v).reg i = u.reg i := Function.update_of_ne h _ _

/-! The two STAT fields of an endpoint. -/

section Stat

variable {ep : ℕ} (h : ep < 8) {m : BitVec 16} (hm : (usbEpRxStat ||| usbEpTxStat) &&& m = m)
include h hm

/-- A store toggles the STAT bits that it names. -/
theorem setReg_stat (u : Usb) (v : BitVec 16) :
    (u.setReg ep v).reg ep &&& m = (u.reg ep &&& m) ^^^ (v &&& m) := by
  rw [setReg_reg_self, ← xor_and, ← hm, ← BitVec.and_assoc, stored_stat h, BitVec.and_assoc]

theorem setReg_keeps (u : Usb) {v : BitVec 16} (hv : v &&& m = 0#16) :
    (u.setReg ep v).reg ep &&& m = u.reg ep &&& m := by
  rw [setReg_stat h hm, hv, BitVec.xor_zero]

omit h in
private theorem statWord_and (r t stat : BitVec 16) :
    (((r &&& t) ^^^ stat) ||| (usbEpRxCtr ||| usbEpTxCtr)) &&& m =
      (r &&& (t &&& m)) ^^^ (stat &&& m) := by
  have hctr : (usbEpRxCtr ||| usbEpTxCtr) &&& m = 0#16 := by
    rw [← hm, ← BitVec.and_assoc,
      show (usbEpRxCtr ||| usbEpTxCtr) &&& (usbEpRxStat ||| usbEpTxStat) = 0#16 by decide,
      BitVec.zero_and]
  rw [BitVec.and_or_distrib_right, hctr, BitVec.or_zero, xor_and, BitVec.and_assoc]

theorem setStat_and {t stat : BitVec 16} (ht : t &&& m = m) (hs : stat &&& m = stat) (u : Usb) :
    (u.setReg ep (((u.reg ep &&& t) ^^^ stat) ||| (usbEpRxCtr ||| usbEpTxCtr))).reg ep &&& m =
      stat := by
  rw [setReg_stat h hm, statWord_and hm, ht, hs, ← BitVec.xor_assoc, BitVec.xor_self,
    BitVec.zero_xor]

theorem setStat_and_other {t stat n : BitVec 16} (ht : t &&& m = 0#16) (hs : stat &&& n = stat)
    (hn : n &&& m = 0#16) (u : Usb) :
    (u.setReg ep (((u.reg ep &&& t) ^^^ stat) ||| (usbEpRxCtr ||| usbEpTxCtr))).reg ep &&& m =
      u.reg ep &&& m := by
  have hstat : stat &&& m = 0#16 := by rw [← hs, BitVec.and_assoc, hn, BitVec.and_zero]
  rw [setReg_stat h hm, statWord_and hm, ht, hstat, BitVec.and_zero, BitVec.xor_zero,
    BitVec.xor_zero]

end Stat

section Macros

variable (u : Usb) {ep : ℕ} (h : ep < 8)
include h

theorem setEpRxStat_rxStat {stat : BitVec 16} (hs : stat &&& usbEpRxStat = stat) :
    (u.setEpRxStat ep stat).reg ep &&& usbEpRxStat = stat :=
  setStat_and h (by decide) (by decide) hs u

theorem setEpRxStat_txStat {stat : BitVec 16} (hs : stat &&& usbEpRxStat = stat) :
    (u.setEpRxStat ep stat).reg ep &&& usbEpTxStat = u.reg ep &&& usbEpTxStat :=
  setStat_and_other h (by decide) (by decide) hs (by decide) u

theorem setEpTxStat_txStat {stat : BitVec 16} (hs : stat &&& usbEpTxStat = stat) :
    (u.setEpTxStat ep stat).reg ep &&& usbEpTxStat = stat :=
  setStat_and h (by decide) (by decide) hs u

theorem setEpTxStat_rxStat {stat : BitVec 16} (hs : stat &&& usbEpTxStat = stat) :
    (u.setEpTxStat ep stat).reg ep &&& usbEpRxStat = u.reg ep &&& usbEpRxStat :=
  setStat_and_other h (by decide) (by decide) hs (by decide) u

theorem clrEpRxCtr_rxStat :
    (u.clrEpRxCtr ep).reg ep &&& usbEpRxStat = u.reg ep &&& usbEpRxStat := by
  rw [clrEpRxCtr, BitVec.and_assoc]
  exact setReg_keeps h (by decide) u (and_or_masked (by decide) (by decide))

theorem clrEpRxCtr_txStat :
    (u.clrEpRxCtr ep).reg ep &&& usbEpTxStat = u.reg ep &&& usbEpTxStat := by
  rw [clrEpRxCtr, BitVec.and_assoc]
  exact setReg_keeps h (by decide) u (and_or_masked (by decide) (by decide))

theorem clrEpTxCtr_rxStat :
    (u.clrEpTxCtr ep).reg ep &&& usbEpRxStat = u.reg ep &&& usbEpRxStat := by
  rw [clrEpTxCtr, BitVec.and_assoc]
  exact setReg_keeps h (by decide) u (and_or_masked (by decide) (by decide))

theorem clrEpTxCtr_txStat :
    (u.clrEpTxCtr ep).reg ep &&& usbEpTxStat = u.reg ep &&& usbEpTxStat := by
  rw [clrEpTxCtr, BitVec.and_assoc]
  exact setReg_keeps h (by decide) u (and_or_masked (by decide) (by decide))

theorem clrEpTxDtog_stat {m : BitVec 16} (hm : m = usbEpRxStat ∨ m = usbEpTxStat) :
    (u.clrEpTxDtog ep).reg ep &&& m = u.reg ep &&& m := by
  have hmask : (usbEpNtoggleMsk ||| usbEpTxDtog) &&& m = 0#16 := by
    rcases hm with rfl | rfl <;> decide
  rw [clrEpTxDtog]
  apply setReg_keeps h
  · rcases hm with rfl | rfl <;> decide
  · rw [BitVec.and_assoc, hmask, BitVec.and_zero]

theorem clrEpRxDtog_stat {m : BitVec 16} (hm : m = usbEpRxStat ∨ m = usbEpTxStat) :
    (u.clrEpRxDtog ep).reg ep &&& m = u.reg ep &&& m := by
  have hmask : (usbEpNtoggleMsk ||| usbEpRxDtog) &&& m = 0#16 := by
    rcases hm with rfl | rfl <;> decide
  rw [clrEpRxDtog]
  apply setReg_keeps h
  · rcases hm with rfl | rfl <;> decide
  · rw [BitVec.and_assoc, hmask, BitVec.and_zero]

end Macros

end Usb

end Swindle
