import Swindle.Stage2

/-! What the two read paths copy out of the packet an event delivers. -/
namespace Swindle
open Machine

theorem slice_blit_zero (d : List Byte) (b : ℕ → Byte) {n : ℕ} (h : n ≤ d.length) :
    slice (blit 0 d b) 0 n = d.take n := by
  rw [← slice_getD d b h]
  exact slice_congr fun i _ => if_pos (Nat.zero_le _)

namespace Usb

theorem receive_count (u : Usb) (d : List Byte) :
    ((u.receive d).rxCount (u.entry 0) &&& 0x3ff#16).toNat = d.length % 1024 := by
  have h : (u.receive d).rxCount (u.entry 0) =
      putBits 0x3ff#16 (BitVec.ofNat 16 d.length) (u.rxCount (u.entry 0)) :=
    Function.update_self ..
  rw [h, putBits_and (by decide), BitVec.toNat_and]
  simp only [BitVec.toNat_ofNat]
  rw [show 0x3ff % 2 ^ 16 = 2 ^ 10 - 1 from rfl, Nat.and_two_pow_sub_one_eq_mod]
  omega

/-- Endpoint 0 holds the packet `d`, not yet read. -/
structure Holds (u : Usb) (d : List Byte) : Prop where
  nak : u.reg 0 &&& usbEpRxStat = usbEpRxStatNak
  count : (u.rxCount (u.entry 0) &&& 0x3ff#16).toNat = d.length % 1024
  buff : ∃ b, u.rxBuff = blit 0 d b

theorem holds_raise_out (u : Usb) (d : List Byte) : (u.raise (.out d)).Holds d where
  nak := by
    change putBits _ _ _ &&& usbEpRxStat = _
    rw [putBits_and (by decide)]
    decide
  count := receive_count u d
  buff := ⟨u.rxBuff, rfl⟩

theorem holds_raise_setup (u : Usb) (d : List Byte) : (u.raise (.setup d)).Holds d where
  nak := by
    change putBits _ _ _ &&& usbEpRxStat = _
    rw [putBits_and (by decide)]
    decide
  count := receive_count u d
  buff := ⟨u.rxBuff, rfl⟩

theorem Holds.nakSet {u : Usb} {d : List Byte} (h : u.Holds d) :
    (u.usbdEpNakSet 0#8 true).Holds d where
  nak := setEpRxStat_rxStat _ (show 0 < 8 by decide) (by decide)
  count := h.count
  buff := h.buff

theorem Holds.read {u : Usb} {d : List Byte} (h : u.Holds d) (len : BitVec 16) :
    (u.usbdEpReadPacket 0#8 len).1 = d.take (min (d.length % 1024) len.toNat) := by
  obtain ⟨b, hb⟩ := h.buff
  have hv : ¬u.reg 0 &&& usbEpRxStat = usbEpRxStatValid := by rw [h.nak]; decide
  have hn : min (d.length % 1024) len.toNat ≤ d.length :=
    Nat.le_trans (Nat.min_le_left _ _) (Nat.mod_le _ _)
  rw [usbdEpReadPacket, show (0#8).toNat = 0 from rfl, if_neg hv, h.count, hb]
  exact slice_blit_zero d b hn

/-- The registers when a SETUP packet has been read. -/
def readSetup (d : List Byte) (u : Usb) : Usb :=
  (((u.raise (.setup d)).usbdEpNakSet 0#8 true).usbdEpReadPacket 0#8 8#16).2

/-- The registers when `len` bytes of a data packet have been asked for. -/
def readData (d : List Byte) (len : BitVec 16) (u : Usb) : Usb :=
  ((u.raise (.out d)).usbdEpReadPacket 0#8 len).2

/-! The STAT fields after a transaction. -/

theorem raise_setup_txStat (u : Usb) (d : List Byte) :
    (u.raise (.setup d)).reg 0 &&& usbEpTxStat = usbEpTxStatNak := by
  change putBits _ _ _ &&& usbEpTxStat = _
  rw [putBits_and (by decide)]
  decide

theorem raise_out_txStat (u : Usb) (d : List Byte) :
    (u.raise (.out d)).reg 0 &&& usbEpTxStat = u.reg 0 &&& usbEpTxStat := by
  change putBits _ _ (u.reg 0 ^^^ usbEpRxDtog) &&& usbEpTxStat = _
  rw [putBits_and_of_disjoint (by decide), xor_and, show usbEpRxDtog &&& usbEpTxStat = 0#16 by
    decide, BitVec.xor_zero]

theorem raise_in_txStat (u : Usb) :
    (u.raise .inComplete).reg 0 &&& usbEpTxStat = usbEpTxStatNak := by
  change putBits _ _ _ &&& usbEpTxStat = _
  rw [putBits_and (by decide)]
  decide

theorem raise_in_rxStat (u : Usb) :
    (u.raise .inComplete).reg 0 &&& usbEpRxStat = u.reg 0 &&& usbEpRxStat := by
  change putBits _ _ (u.reg 0 ^^^ usbEpTxDtog) &&& usbEpRxStat = _
  rw [putBits_and_of_disjoint (by decide), xor_and, show usbEpTxDtog &&& usbEpRxStat = 0#16 by
    decide, BitVec.xor_zero]

/-! Reception leaves the transmit side alone. -/

theorem nakSet_txStat (u : Usb) (nak : Bool) :
    (u.usbdEpNakSet 0#8 nak).reg 0 &&& usbEpTxStat = u.reg 0 &&& usbEpTxStat := by
  rw [usbdEpNakSet, if_neg (by decide)]
  cases nak with
  | true => exact setEpRxStat_txStat _ (show 0 < 8 by decide) (by decide)
  | false => exact setEpRxStat_txStat _ (show 0 < 8 by decide) (by decide)

theorem readPacket_txStat (u : Usb) (len : BitVec 16) :
    (u.usbdEpReadPacket 0#8 len).2.reg 0 &&& usbEpTxStat = u.reg 0 &&& usbEpTxStat := by
  unfold usbdEpReadPacket
  dsimp only
  have hclr : (u.clrEpRxCtr 0).reg 0 &&& usbEpTxStat = u.reg 0 &&& usbEpTxStat :=
    u.clrEpRxCtr_txStat (by decide)
  split
  · rfl
  · split
    · exact hclr
    · exact (setEpRxStat_txStat _ (show 0 < 8 by decide) (by decide)).trans hclr

theorem txBusy_eq_false {u : Usb} (h : u.reg 0 &&& usbEpTxStat ≠ usbEpTxStatValid) :
    u.txBusy 0#8 = false := decide_eq_false h

theorem readSetup_txStat (u : Usb) (d : List Byte) :
    (u.readSetup d).reg 0 &&& usbEpTxStat = usbEpTxStatNak := by
  rw [readSetup, readPacket_txStat, nakSet_txStat, raise_setup_txStat]

theorem readSetup_ready (u : Usb) (d : List Byte) : (u.readSetup d).txBusy 0#8 = false := by
  apply txBusy_eq_false
  rw [readSetup_txStat]
  decide

end Usb

/-- The SETUP bytes `d` as `_usbd_control_setup` reads them. -/
def setupBytes (d : List Byte) : List Byte := d.take (min (d.length % 1024) 8)

/-- The part of the packet `d` that `usb_control_recv_chunk` asks for. -/
def State.dataBytes (s : State) (d : List Byte) : List Byte :=
  d.take (min (d.length % 1024) s.packetsize.toNat)

theorem setupBytes_eq {d : List Byte} (h : d.length = 8) : setupBytes d = d := by
  rw [setupBytes, h]
  exact List.take_of_length_le (by omega)

namespace State

theorem length_dataBytes (s : State) (d : List Byte) :
    (s.dataBytes d).length = min (d.length % 1024) s.packetsize.toNat := by
  have := Nat.mod_le d.length 1024
  simp only [dataBytes, List.length_take]
  omega

theorem recvChunk_raise_eq (s : State) (d : List Byte) :
    (s.raise (.out d)).usbControlRecvChunk =
      let t := { s.raise (.out d) with
        usb := s.usb.readData d s.packetsize
        usbdControlBuffer := blit s.datasize.toNat (s.dataBytes d) s.usbdControlBuffer }
      if s.packetsize.toNat ≤ d.length % 1024 then
        (true, { t with datasize := s.datasize + s.packetsize })
      else (false, t.stallTransaction) := by
  have hr := (Usb.holds_raise_out s.usb d).read s.packetsize
  have hl := s.length_dataBytes d
  have hdef : (s.raise (.out d)).usbControlRecvChunk =
      (let t := { s.raise (.out d) with
        usb := s.usb.readData d s.packetsize
        usbdControlBuffer := blit s.datasize.toNat
          ((s.usb.raise (.out d)).usbdEpReadPacket 0#8 s.packetsize).1 s.usbdControlBuffer }
      if ((s.usb.raise (.out d)).usbdEpReadPacket 0#8 s.packetsize).1.length ≠
          s.packetsize.toNat then (false, t.stallTransaction)
      else (true, { t with datasize := t.datasize + s.packetsize })) := rfl
  rw [hdef, hr]
  change (if (s.dataBytes d).length ≠ s.packetsize.toNat then _ else _) = _
  rw [hl]
  by_cases h : s.packetsize.toNat ≤ d.length % 1024
  · rw [if_neg (by omega), if_pos h]
    rfl
  · rw [if_pos (by omega), if_neg h]
    rfl

end State

end Swindle
