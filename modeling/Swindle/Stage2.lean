import Swindle.Machine.Run
import Swindle.Usb.Control

/-! Stage 2 as a machine: the hardware raises an event, `do_usb_poll` handles it. -/
namespace Swindle
open Machine

/-- What the hardware reports to one poll. -/
inductive Event
  | reset
  | setup (data : List Byte)
  | out (data : List Byte)
  | inComplete
  deriving DecidableEq, Repr

/-- The bits of `mask` become those of `v`. -/
def putBits (mask v r : BitVec 16) : BitVec 16 := (r &&& ~~~mask) ||| (v &&& mask)

namespace Usb

/-- A packet arrives in endpoint 0's receive buffer; COUNT_RX keeps its size bits. The hardware
finds the buffer table through USB_BTABLE as the macros do, and is taken to have memory there. -/
def receive (data : List Byte) (u : Usb) : Usb :=
  { u with
    rxBuff := blit 0 data u.rxBuff
    rxCount := Function.update u.rxCount (u.entry 0)
      (putBits 0x3ff#16 (BitVec.ofNat 16 data.length) (u.rxCount (u.entry 0))) }

/-- Endpoint 0's register and ISTR after a transaction. -/
def transaction (ep0r istr : BitVec 16) (u : Usb) : Usb :=
  { u with reg := Function.update (Function.update u.reg 0 ep0r) usbIstrReg istr }

/-- What the hardware does to the registers before the poll. A SETUP or OUT packet leaves
reception at NAK, a SETUP also transmission; a packet fetched leaves transmission at NAK. -/
def raise (u : Usb) : Event → Usb
  | .reset =>
    { u with reg := fun i =>
        if i < 8 then u.reg i &&& (usbEpRxCtr ||| usbEpTxCtr)
        else if i = usbDaddrReg then 0#16
        else if i = usbIstrReg then usbIstrReset
        else u.reg i }
  | .setup data =>
    (u.receive data).transaction
      (putBits (usbEpRxCtr ||| usbEpSetup ||| usbEpRxDtog ||| usbEpTxDtog ||| usbEpRxStat |||
          usbEpTxStat)
        (usbEpRxCtr ||| usbEpSetup ||| usbEpRxDtog ||| usbEpTxDtog ||| usbEpRxStatNak |||
          usbEpTxStatNak) (u.reg 0))
      (usbIstrCtr ||| usbIstrDir)
  | .out data =>
    (u.receive data).transaction
      (putBits (usbEpRxCtr ||| usbEpSetup ||| usbEpRxStat) (usbEpRxCtr ||| usbEpRxStatNak)
        (u.reg 0 ^^^ usbEpRxDtog))
      (usbIstrCtr ||| usbIstrDir)
  | .inComplete =>
    u.transaction
      (putBits (usbEpTxCtr ||| usbEpTxStat) (usbEpTxCtr ||| usbEpTxStatNak)
        (u.reg 0 ^^^ usbEpTxDtog))
      usbIstrCtr

end Usb

namespace Dfu

/-- Start the record of a new poll. -/
def newPoll (d : Dfu) : Dfu := { d with log := [], flash := { d.flash with ops := [] } }

@[simp] theorem newPoll_prog (d : Dfu) : d.newPoll.prog = d.prog := rfl
@[simp] theorem newPoll_log (d : Dfu) : d.newPoll.log = [] := rfl
@[simp] theorem newPoll_ops (d : Dfu) : d.newPoll.flash.ops = [] := rfl

end Dfu

namespace State

def raise (s : State) (e : Event) : State :=
  { s with usb := s.usb.raise e, dfu := s.dfu.newPoll, out := [] }

/-- Start-up: `.bss` is zero, the flash holds `mem`, and `ram` lies behind the buffer. -/
def start (mem : Addr → Byte) (ram : ℕ → Byte) : State :=
  { usb :=
      { reg := fun i => if i = usbCntrReg then 0x9C00#16 else 0#16
        txAddr := fun _ => 0#16
        txCount := fun _ => 0#16
        rxAddr := fun _ => 0#16
        rxCount := fun _ => 0#16
        rxBuff := fun _ => 0#8
        usbForceNak := fun _ => false
        usbPmTop := 0#16 }
    usbFsmState := .idle
    datasize := 0#16
    dataoff := 0#16
    usbNeedsZlp := false
    usbReq := ⟨0#8, 0#8, 0#16, 0#16, 0#16⟩
    usbCompleteCb := none
    usbdControlBuffer := fun i => if i < dfuTransferSize then 0#8 else ram i
    dfu :=
      { usbdfuState := .dfuIdle
        prog := ⟨fun _ => 0#8, 0#16, 0#32, 0#16⟩
        flash :=
          { mem := mem
            cr := ⟨true, false, false, false⟩
            ar := 0#32
            erased := false
            ops := [] }
        log := [] }
    out := [] }

end State

def step (c : Device) (s : State) (e : Event) : State := (s.raise e).doUsbPoll c

/-- The loop of `runDfu`, stopped where it calls `_full_system_reset` or where the events
end. -/
inductive Loop
  | polling (s : State)
  | fullSystemReset (s : State)

def runDfu (c : Device) (s : State) : List Event → Loop
  | [] => .polling s
  | e :: es =>
    let s := step c s e
    if s.dfu.usbdfuState = .dfuManifest then .fullSystemReset s else runDfu c s es

/-! One event, one handler. -/

section Steps

variable (c : Device) (s : State)

theorem putBits_and {mask m : BitVec 16} (h : mask &&& m = m) (v r : BitVec 16) :
    putBits mask v r &&& m = v &&& m := by
  conv_lhs => rw [← h]
  conv_rhs => rw [← h]
  apply BitVec.eq_of_getLsbD_eq
  intro i _
  simp only [putBits, BitVec.getLsbD_and, BitVec.getLsbD_or, BitVec.getLsbD_not]
  cases mask.getLsbD i <;> simp

theorem putBits_and_of_disjoint {mask m : BitVec 16} (h : mask &&& m = 0#16) (v r : BitVec 16) :
    putBits mask v r &&& m = r &&& m := by
  apply BitVec.eq_of_getLsbD_eq
  intro i hi
  have hbit := congrArg (fun x : BitVec 16 => x.getLsbD i) h
  simp only [BitVec.getLsbD_and, BitVec.getLsbD_zero] at hbit
  simp only [putBits, BitVec.getLsbD_and, BitVec.getLsbD_or, BitVec.getLsbD_not, hi]
  cases hm : m.getLsbD i
  · simp only [Bool.and_false]
  · rw [hm, Bool.and_true] at hbit
    simp only [hbit, Bool.not_false, Bool.and_true, Bool.and_false, Bool.or_false, decide_true]

theorem step_reset : step c s .reset = (s.raise .reset).busReset := by
  have hr : (s.raise .reset).usb.reg usbIstrReg = usbIstrReset := rfl
  rw [step, State.doUsbPoll, hr]
  exact if_pos (by decide)

theorem step_setup (d : List Byte) :
    step c s (.setup d) =
      ((s.raise (.setup d)).usbdControlSetup c).mapUsb
        (State.acknowledge (usbIstrCtr ||| usbIstrDir)) := by
  have hi : (s.raise (.setup d)).usb.reg usbIstrReg = usbIstrCtr ||| usbIstrDir := rfl
  have hs : (s.raise (.setup d)).usb.reg 0 &&& usbEpSetup ≠ 0#16 := by
    change putBits _ _ _ &&& usbEpSetup ≠ 0#16
    rw [putBits_and (by decide)]
    decide
  rw [step, State.doUsbPoll, hi, if_neg (by decide), if_pos (by decide), if_pos (by decide)]
  exact congrArg (State.mapUsb _) (if_pos hs)

theorem step_out (d : List Byte) :
    step c s (.out d) =
      ((s.raise (.out d)).usbdControlOut c).mapUsb
        (State.acknowledge (usbIstrCtr ||| usbIstrDir)) := by
  have hi : (s.raise (.out d)).usb.reg usbIstrReg = usbIstrCtr ||| usbIstrDir := rfl
  have hs : (s.raise (.out d)).usb.reg 0 &&& usbEpSetup = 0#16 := by
    change putBits _ _ _ &&& usbEpSetup = 0#16
    rw [putBits_and (by decide)]
    decide
  rw [step, State.doUsbPoll, hi, if_neg (by decide), if_pos (by decide), if_pos (by decide)]
  exact congrArg (State.mapUsb _) (if_neg (not_not.mpr hs))

theorem step_inComplete :
    step c s .inComplete =
      (((s.raise .inComplete).mapUsb (Usb.clrEpTxCtr 0)).usbdControlIn c).mapUsb
        (State.acknowledge usbIstrCtr) := by
  have hi : (s.raise .inComplete).usb.reg usbIstrReg = usbIstrCtr := rfl
  rw [step, State.doUsbPoll, hi, if_neg (by decide), if_pos (by decide), if_neg (by decide)]
  rfl

end Steps

end Swindle
