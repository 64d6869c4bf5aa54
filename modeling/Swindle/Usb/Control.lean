import Swindle.Usb.Descriptors
import Swindle.Usb.Endpoint
import Swindle.Dfu.Request

/-! `usb.cpp`: the control transfers on endpoint 0, from SETUP to the end of the status
stage. Every function maps the globals of stage 2 to the globals it leaves. -/
namespace Swindle
open Machine

inductive UsbFsmState
  | idle | stalled | dataIn | lastDataIn | statusIn | dataOut | lastDataOut | statusOut
  deriving DecidableEq, Repr

/-- What the control endpoint did in the current poll. A `chunk` is what
`usb_control_send_chunk` hands over, a `tx` a packet the hardware accepted. -/
inductive UsbAct
  | chunk (off len : BitVec 16)
  | tx (data : List Byte)
  | stall
  | daddr (v : BitVec 16)
  deriving DecidableEq, Repr

/-- Cells of `usbdControlBuffer` from `dfuTransferSize` on stand for the RAM behind it. -/
structure State where
  usb : Usb
  usbFsmState : UsbFsmState
  datasize : BitVec 16
  dataoff : BitVec 16
  usbNeedsZlp : Bool
  usbReq : UsbSetupData
  usbCompleteCb : Option CompleteCb
  usbdControlBuffer : ℕ → Byte
  dfu : Dfu
  out : List UsbAct

/-- The SETUP bytes read, copied over an earlier request. -/
def UsbSetupData.patch (d : List Byte) (r : UsbSetupData) : UsbSetupData :=
  { bmRequestType := d.getD 0 r.bmRequestType
    bRequest := d.getD 1 r.bRequest
    wValue := d.getD 3 (leByte r.wValue 1) ++ d.getD 2 (leByte r.wValue 0)
    wIndex := d.getD 5 (leByte r.wIndex 1) ++ d.getD 4 (leByte r.wIndex 0)
    wLength := d.getD 7 (leByte r.wLength 1) ++ d.getD 6 (leByte r.wLength 0) }

namespace State

def mapUsb (f : Usb → Usb) (s : State) : State := { s with usb := f s.usb }

def putBuffer (off : ℕ) (d : List Byte) (s : State) : State :=
  { s with usbdControlBuffer := blit off d s.usbdControlBuffer }

/-- `_usbd_ep_write_packet`; no caller looks at the count accepted. -/
def usbdEpWritePacket (addr : Byte) (data : List Byte) (s : State) : State :=
  { s with
    usb := (s.usb.usbdEpWritePacket addr (BitVec.ofNat 16 data.length)).2
    out := if s.usb.txBusy addr then s.out else .tx data :: s.out }

def stallTransaction (s : State) : State :=
  { s with
    usb := s.usb.epStallSet 0#8 true
    usbFsmState := .idle
    out := .stall :: s.out }

def writeChunk (len : BitVec 16) (s : State) : State :=
  let s := { s with out := .chunk s.dataoff len :: s.out }
  s.usbdEpWritePacket 0#8 (slice s.usbdControlBuffer s.dataoff.toNat len.toNat)

def usbControlSendChunk (s : State) : State :=
  let maxPacket := BitVec.ofNat 16 bMaxPacketSize0
  if maxPacket < s.datasize then
    { s.writeChunk maxPacket with
      usbFsmState := .dataIn
      dataoff := s.dataoff + maxPacket
      datasize := s.datasize - maxPacket }
  else
    { s.writeChunk s.datasize with
      usbFsmState := if s.usbNeedsZlp then .dataIn else .lastDataIn
      usbNeedsZlp := false
      datasize := 0#16 }

/-- `MIN(bMaxPacketSize0, wLength - datasize)`, an `int` stored in a `uint16_t`. -/
def packetsize (s : State) : BitVec 16 :=
  BitVec.ofInt 16 (min bMaxPacketSize0 (s.usbReq.wLength.toNat - s.datasize.toNat : ℤ))

/-- `false` stands for the return value -1. -/
def usbControlRecvChunk (s : State) : Bool × State :=
  let size := s.packetsize
  let (data, usb) := s.usb.usbdEpReadPacket 0#8 size
  let s := { s with
    usb := usb
    usbdControlBuffer := blit s.datasize.toNat data s.usbdControlBuffer }
  if data.length ≠ size.toNat then (false, s.stallTransaction)
  else (true, { s with datasize := s.datasize + size })

def usbStandardGetDescriptor (c : Device) (s : State) : UsbdRequestReturnCodes × State :=
  let descrIdx := s.usbReq.wValue.toNat % 256
  let descrType := s.usbReq.wValue.toNat / 256
  if descrType = usbDtDevice then
    (.handled, { s.putBuffer 0 devDesc with datasize := BitVec.ofNat 16 devDesc.length })
  else if descrType = usbDtConfiguration then
    (.handled, { s.putBuffer 0 (configDesc c) with
      datasize := BitVec.ofNat 16 (configDesc c).length })
  else if descrType = usbDtString then
    let s := s.putBuffer 1 [BitVec.ofNat 8 usbDtString]
    if descrIdx = 0 then
      let s := s.putBuffer 2 [leByte usbLangidEnglishUs 0, leByte usbLangidEnglishUs 1]
      (.handled, { s.putBuffer 0 [4#8] with datasize := 4#16 })
    else
      match (usbStrings c)[descrIdx - 1]? with
      | none => (.notsupp, s)
      | some str =>
        if s.usbReq.wIndex ≠ usbLangidEnglishUs then (.notsupp, s)
        else
          -- bLength is one byte, and datasize takes the value it holds
          let bLength := BitVec.ofNat 8 (str.length * 2 + 2)
          let s := { s.putBuffer 0 [bLength] with datasize := bLength.setWidth 16 }
          (.handled, s.putBuffer 2 (str.flatMap fun ch => [ch, 0#8]))
  else (.notsupp, s)

/-- SET_CONFIGURATION disables endpoints 1 to 7. -/
def resetEndpoints (u : Usb) : Usb :=
  (List.range' 1 7).foldl
    (fun u i => (u.setEpTxStat i usbEpTxStatDisabled).setEpRxStat i usbEpRxStatDisabled) u

def usbdStandardRequestDevice (c : Device) (s : State) : UsbdRequestReturnCodes × State :=
  match s.usbReq.bRequest.toNat with
  | 5 => -- SET_ADDRESS: latched when the status stage ends
    if s.usbReq.bmRequestType ≠ 0#8 ∨ 128#16 ≤ s.usbReq.wValue then (.notsupp, s)
    else (.handled, s)
  | 9 => -- SET_CONFIGURATION
    if s.usbReq.wValue = bConfigurationValue then
      (.handled, s.mapUsb fun u =>
        { resetEndpoints u with usbPmTop := usbdPmTop + 2#16 * BitVec.ofNat 16 bMaxPacketSize0 })
    else (.notsupp, s)
  | 8 => -- GET_CONFIGURATION
    (.handled, { s.putBuffer 0 [1#8] with datasize := 1#16 })
  | 6 => usbStandardGetDescriptor c s
  | 0 => -- GET_STATUS
    (.handled, { s.putBuffer 0 [0#8, 0#8] with datasize := 2#16 })
  | _ => (.notsupp, s)

def usbdStandardRequestInterface (s : State) : UsbdRequestReturnCodes × State :=
  match s.usbReq.bRequest.toNat with
  | 10 => -- GET_INTERFACE
    (.handled, { s.putBuffer 0 [1#8] with datasize := 1#16 })
  | 11 => -- SET_INTERFACE
    (.handled, { s with datasize := 0#16 })
  | 0 => -- GET_STATUS fills the answer in but is refused
    (.notsupp, { s.putBuffer 0 [0#8, 0#8] with datasize := 2#16 })
  | _ => (.notsupp, s)

/-- CLEAR_FEATURE and SET_FEATURE of an endpoint; wIndex is cut to `uint8_t`. -/
def endpointFeature (set : Bool) (s : State) : UsbdRequestReturnCodes × State :=
  if s.usbReq.wValue = 0#16 then
    (.handled, s.mapUsb (Usb.epStallSet (s.usbReq.wIndex.setWidth 8) set))
  else (.notsupp, s)

def usbdStandardRequestEndpoint (s : State) : UsbdRequestReturnCodes × State :=
  match s.usbReq.bRequest.toNat with
  | 1 => endpointFeature false s
  | 3 => endpointFeature true s
  | 0 => -- GET_STATUS
    let stalled := s.usb.epStallGet (s.usbReq.wIndex.setWidth 8)
    (.handled, { s.putBuffer 0 [if stalled then 1#8 else 0#8, 0#8] with datasize := 2#16 })
  | _ => (.notsupp, s)

def usbdStandardRequest (c : Device) (s : State) : UsbdRequestReturnCodes × State :=
  if s.usbReq.bmRequestType &&& 0x60#8 ≠ 0#8 then (.notsupp, s)
  else
    match (s.usbReq.bmRequestType &&& 0x1F#8).toNat with
    | 0 => usbdStandardRequestDevice c s
    | 1 => usbdStandardRequestInterface s
    | 2 => usbdStandardRequestEndpoint s
    | _ => (.notsupp, s)

end State

/-- A class request to the interface; the direction bit is not looked at. -/
def UsbSetupData.isDfu (r : UsbSetupData) : Bool := r.bmRequestType &&& 0x7F#8 = 0x21#8

namespace State

def usbControlRequestDispatch (c : Device) (s : State) : UsbdRequestReturnCodes × State :=
  if s.usbReq.isDfu then
    let (result, io) := usbdfuControlRequest c s.usbReq
      { len := s.usbReq.wLength
        complete := s.usbCompleteCb
        buf := s.usbdControlBuffer
        dfu := s.dfu }
    let s := { s with
      datasize := io.len
      usbCompleteCb := io.complete
      usbdControlBuffer := io.buf
      dfu := io.dfu }
    if result = .handled ∨ result = .notsupp then (result, s) else usbdStandardRequest c s
  else usbdStandardRequest c s

def needsZlp (len wLength : BitVec 16) (epSize : ℕ) : Bool :=
  len < wLength && (len ≠ 0#16 && len.toNat % epSize = 0)

def usbControlSetupRead (c : Device) (s : State) : State :=
  let maxdataout := s.usbReq.wLength
  let (result, s) := usbControlRequestDispatch c { s with dataoff := 0#16 }
  if result ≠ .notsupp then
    let s := { s with datasize := if maxdataout < s.datasize then maxdataout else s.datasize }
    if maxdataout ≠ 0#16 then
      { s with usbNeedsZlp := needsZlp s.datasize maxdataout bMaxPacketSize0 }.usbControlSendChunk
    else { s.usbdEpWritePacket 0#8 [] with usbFsmState := .statusIn }
  else s.stallTransaction

def usbControlSetupWrite (s : State) : State :=
  if BitVec.ofNat 16 dfuTransferSize < s.usbReq.wLength then s.stallTransaction
  else
    { s with
      usb := s.usb.usbdEpNakSet 0#8 false
      datasize := 0#16
      usbFsmState :=
        if BitVec.ofNat 16 bMaxPacketSize0 < s.usbReq.wLength then .dataOut else .lastDataOut }

def usbdControlSetup (c : Device) (s : State) : State :=
  let s := { s with usbCompleteCb := none, usb := s.usb.usbdEpNakSet 0#8 true }
  let (data, usb) := s.usb.usbdEpReadPacket 0#8 8#16
  let s := { s with usb := usb, usbReq := s.usbReq.patch data }
  if data.length ≠ 8 then s.stallTransaction
  else if s.usbReq.wLength = 0#16 ∨ s.usbReq.bmRequestType &&& 0x80#8 ≠ 0#8 then
    usbControlSetupRead c s
  else usbControlSetupWrite s

def complete (c : Device) (s : State) : State :=
  match s.usbCompleteCb with
  | none => s
  | some .usbdfuGetstatusComplete => { s with dfu := usbdfuGetstatusComplete c s.dfu }

def usbdControlOut (c : Device) (s : State) : State :=
  match s.usbFsmState with
  | .dataOut =>
    let (ok, s) := s.usbControlRecvChunk
    if !ok then s
    else if (s.usbReq.wLength.toNat - s.datasize.toNat : ℤ) ≤ bMaxPacketSize0 then
      { s with usbFsmState := .lastDataOut }
    else s
  | .lastDataOut =>
    let (ok, s) := s.usbControlRecvChunk
    if !ok then s
    else
      let (result, s) := usbControlRequestDispatch c s
      if result ≠ .notsupp then { s.usbdEpWritePacket 0#8 [] with usbFsmState := .statusIn }
      else s.stallTransaction
  | .statusOut =>
    let s := { s with
      usb := (s.usb.usbdEpReadPacket 0#8 0#16).2
      usbFsmState := .idle }
    { complete c s with usbCompleteCb := none }
  | _ => s.stallTransaction

/-- The address set by `SET_ADDRESS` takes effect when its status stage is over. -/
def latchAddress (s : State) : State :=
  if s.usbReq.bmRequestType = 0#8 ∧ s.usbReq.bRequest = 5#8 then
    let v := (s.usbReq.wValue &&& usbDaddrAddr) ||| usbDaddrEf
    { s with usb := s.usb.setReg usbDaddrReg v, out := .daddr v :: s.out }
  else s

def usbdControlIn (c : Device) (s : State) : State :=
  match s.usbFsmState with
  | .dataIn => s.usbControlSendChunk
  | .lastDataIn => { s with usbFsmState := .statusOut, usb := s.usb.usbdEpNakSet 0#8 false }
  | .statusIn => { (complete c s).latchAddress with usbFsmState := .idle }
  | _ => s.stallTransaction

/-- The notices `do_usb_poll` acknowledges after the transfer. -/
def acknowledge (istr : BitVec 16) (u : Usb) : Usb :=
  let u := if istr &&& usbIstrSusp ≠ 0#16 then u.clrIstr usbIstrSusp else u
  let u := if istr &&& usbIstrWkup ≠ 0#16 then u.clrIstr usbIstrWkup else u
  let u := if istr &&& usbIstrSof ≠ 0#16 then u.clrIstr usbIstrSof else u
  u.setReg usbCntrReg (u.reg usbCntrReg &&& ~~~usbCntrSofm)

def busReset (s : State) : State :=
  let u := { s.usb.clrIstr usbIstrReset with usbPmTop := usbdPmTop }
  let u := u.usbdEpSetup 0#8 0#8 (BitVec.ofNat 16 bMaxPacketSize0)
  { s with
    usb := u.setReg usbDaddrReg usbDaddrEf
    out := .daddr usbDaddrEf :: s.out }

def doUsbPoll (c : Device) (s : State) : State :=
  let istr := s.usb.reg usbIstrReg
  if istr &&& usbIstrReset ≠ 0#16 then s.busReset
  else
    let s :=
      if istr &&& usbIstrCtr ≠ 0#16 then
        let ep := (istr &&& usbIstrEpId).toNat
        if istr &&& usbIstrDir ≠ 0#16 then
          if s.usb.reg ep &&& usbEpSetup ≠ 0#16 then usbdControlSetup c s
          else usbdControlOut c s
        else usbdControlIn c (s.mapUsb (Usb.clrEpTxCtr ep))
      else s
    s.mapUsb (acknowledge istr)

end State

end Swindle
