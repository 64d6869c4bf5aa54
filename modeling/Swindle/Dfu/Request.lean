import Swindle.Flash.Controller
import Swindle.Machine.Buffer

/-! `dfu.cpp`: the DFU state machine. A request is answered by `usbdfuControlRequest`; the
flash operation it asks for runs later, in `usbdfuGetstatusComplete`. -/
namespace Swindle
open Machine

structure UsbSetupData where
  bmRequestType : Byte
  bRequest : Byte
  wValue : BitVec 16
  wIndex : BitVec 16
  wLength : BitVec 16
  deriving DecidableEq, Repr

inductive UsbdRequestReturnCodes
  | notsupp | handled | nextCallback
  deriving DecidableEq, Repr

inductive DfuReq
  | detach | dnload | upload | getstatus | clrstatus | getstate | abort
  deriving DecidableEq, Repr

def DfuReq.ofByte (b : Byte) : Option DfuReq :=
  match b.toNat with
  | 0 => some .detach
  | 1 => some .dnload
  | 2 => some .upload
  | 3 => some .getstatus
  | 4 => some .clrstatus
  | 5 => some .getstate
  | 6 => some .abort
  | _ => none

inductive DfuStatus
  | ok | errUnknown
  deriving DecidableEq, Repr

def DfuStatus.toByte : DfuStatus → Byte
  | .ok => 0#8
  | .errUnknown => 14#8

inductive DfuState
  | appIdle | appDetach | dfuIdle | dfuDnloadSync | dfuDnbusy | dfuDnloadIdle
  | dfuManifestSync | dfuManifest | dfuManifestWaitReset | dfuUploadIdle | dfuError
  deriving DecidableEq, Repr

def DfuState.toByte : DfuState → Byte
  | .appIdle => 0#8
  | .appDetach => 1#8
  | .dfuIdle => 2#8
  | .dfuDnloadSync => 3#8
  | .dfuDnbusy => 4#8
  | .dfuDnloadIdle => 5#8
  | .dfuManifestSync => 6#8
  | .dfuManifest => 7#8
  | .dfuManifestWaitReset => 8#8
  | .dfuUploadIdle => 9#8
  | .dfuError => 10#8

theorem DfuState.toByte_injective {s t : DfuState} (h : s.toByte = t.toByte) : s = t := by
  revert h
  cases s <;> cases t <;> decide

def cmdSetaddr : Byte := 0x21#8
def cmdErase : Byte := 0x41#8

/-- The download waiting to be executed; `buf` has `dfuTransferSize` bytes. -/
structure Prog where
  buf : ℕ → Byte
  len : BitVec 16
  addr : Addr
  blocknum : BitVec 16

/-- What the DFU layer did in the current poll: the requests it handled, with the data length
it was given, the flash it copied out, and the runs of the deferred operation. -/
inductive DfuAct
  | request (r : DfuReq) (len : BitVec 16)
  | upload (base : Addr)
  | execute
  deriving DecidableEq, Repr

structure Dfu where
  usbdfuState : DfuState
  prog : Prog
  flash : Flash
  log : List DfuAct

/-- The only callback a request can register. -/
inductive CompleteCb
  | usbdfuGetstatusComplete
  deriving DecidableEq, Repr

def readU32 (p : ℕ → Byte) (i : ℕ) : BitVec 32 := load32 p i

/-- The address check: `base >= start_addr && base + n <= end_addr`, in 32 bits. -/
def addressCheck (c : Device) (base n : Addr) : Bool :=
  startAddr ≤ base && base + n ≤ endAddr c

/-- `Address_Pointer + ((wBlockNum - 2) * wTransferSize)`. -/
def blockAddress (addr : Addr) (blocknum : BitVec 16) : Addr :=
  addr + (blocknum.setWidth 32 - 2#32) * BitVec.ofNat 32 dfuTransferSize

/-- The state after GET_STATUS, with the status and the poll timeout reported. -/
def usbdfuGetstatus (state : DfuState) : DfuState × DfuStatus × BitVec 32 :=
  match state with
  | .dfuDnloadSync => (.dfuDnbusy, .ok, 100#32)
  | .dfuManifestSync => (.dfuManifest, .ok, 0#32)
  | .dfuError => (.dfuError, .errUnknown, 0#32)
  | s => (s, .ok, 0#32)

/-- `check_do_erase`, in builds that have it. -/
def safewrite (c : Device) (f : Flash) : Flash :=
  if c.enableSafewrite then checkDoErase c f else f

/-- The CMD_ERASE case of `usbdfu_getstatus_complete`. -/
def executeErase (c : Device) (p : Prog) (f : Flash) : Flash :=
  let f := safewrite c f
  let baseaddr := readU32 p.buf 1
  if addressCheck c baseaddr (BitVec.ofNat 32 dfuTransferSize) then
    if flashPageIsErased c f.mem baseaddr then f else flashErasePage c baseaddr f
  else f

/-- The data-block case of `usbdfu_getstatus_complete`. The pages of a block number at most
its length. -/
def executeBlock (c : Device) (p : Prog) (f : Flash) : Flash :=
  let f := safewrite c f
  let baseaddr := blockAddress p.addr p.blocknum
  let len := p.len.setWidth 32
  if addressCheck c baseaddr len then
    let f := erasePages c (baseaddr + len) p.len.toNat baseaddr f
    if c.isGd32 then flashProgramBufferGd32 c baseaddr p.buf p.len.toNat f
    else flashProgramBuffer c baseaddr p.buf p.len.toNat f
  else f

def usbdfuGetstatusComplete (c : Device) (d : Dfu) : Dfu :=
  match d.usbdfuState with
  | .dfuDnbusy =>
    let d := { d with flash := flashUnlock d.flash, log := .execute :: d.log }
    let d :=
      if d.prog.blocknum = 0#16 then
        if d.prog.buf 0 = cmdErase then { d with flash := executeErase c d.prog d.flash }
        else if d.prog.buf 0 = cmdSetaddr then
          { d with prog := { d.prog with addr := readU32 d.prog.buf 1 } }
        else d
      else { d with flash := executeBlock c d.prog d.flash }
    { d with flash := flashLock c d.flash, usbdfuState := .dfuDnloadIdle }
  | _ => d

/-- The in-out parameters and the globals of `usbdfu_control_request`. -/
structure DfuIo where
  len : BitVec 16
  complete : Option CompleteCb
  buf : ℕ → Byte
  dfu : Dfu

/-- The six bytes a GETSTATUS answer consists of. -/
def statusBytes (status : DfuStatus) (timeout : BitVec 32) (state : DfuState) : List Byte :=
  [status.toByte, leByte timeout 0, leByte timeout 1, leByte timeout 2, state.toByte, 0#8]

def usbdfuControlRequest (c : Device) (req : UsbSetupData) (io : DfuIo) :
    UsbdRequestReturnCodes × DfuIo :=
  match DfuReq.ofByte req.bRequest with
  | none => (.nextCallback, io)
  | some r =>
    let d := { io.dfu with log := .request r io.len :: io.dfu.log }
    match r with
    | .dnload =>
      if io.len = 0#16 then
        (.handled, { io with dfu := { d with usbdfuState := .dfuManifestSync } })
      else
        let len := if BitVec.ofNat 16 dfuTransferSize < io.len then
          BitVec.ofNat 16 dfuTransferSize else io.len
        let prog := { d.prog with
          blocknum := req.wValue
          len := len
          buf := blit 0 (slice io.buf 0 len.toNat) d.prog.buf }
        (.handled, { io with dfu := { d with prog := prog, usbdfuState := .dfuDnloadSync } })
    | .clrstatus =>
      let state := if d.usbdfuState = .dfuError then .dfuIdle else d.usbdfuState
      (.handled, { io with dfu := { d with usbdfuState := state } })
    | .abort => (.handled, { io with dfu := { d with usbdfuState := .dfuIdle } })
    | .detach => (.handled, { io with dfu := { d with usbdfuState := .dfuManifest } })
    | .upload =>
      if req.wValue = 0#16 then
        (.handled, { io with
          len := 3#16
          buf := blit 0 [0x00#8, cmdSetaddr, cmdErase] io.buf
          dfu := { d with usbdfuState := .dfuUploadIdle } })
      else
        let baseaddr := blockAddress d.prog.addr req.wValue
        if c.enableDfuUpload ∧
            addressCheck c baseaddr (BitVec.ofNat 32 dfuTransferSize) then
          (.handled, { io with
            len := BitVec.ofNat 16 dfuTransferSize
            buf := fun i =>
              if i < dfuTransferSize then d.flash.mem (baseaddr + BitVec.ofNat 32 i)
              else io.buf i
            dfu := { d with
              usbdfuState := .dfuUploadIdle
              log := .upload baseaddr :: d.log } })
        else
          (.handled, { io with
            len := 0#16
            dfu := { d with usbdfuState := .dfuError } })
    | .getstatus =>
      let answer := usbdfuGetstatus d.usbdfuState
      (.handled, { io with
        len := 6#16
        complete := some .usbdfuGetstatusComplete
        buf := blit 0 (statusBytes answer.2.1 answer.2.2 answer.1) io.buf
        dfu := { d with usbdfuState := answer.1 } })
    | .getstate =>
      (.handled, { io with
        len := 1#16
        buf := blit 0 [d.usbdfuState.toByte] io.buf
        dfu := d })

end Swindle
