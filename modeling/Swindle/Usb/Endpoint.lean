import Swindle.Machine.Buffer
import Swindle.Usb.Registers

/-! The endpoint layer of `usb.cpp`: packets, NAK and STALL, and endpoint setup. -/
namespace Swindle
open Machine

def usbdPmTop : BitVec 16 := 0x40#16
def bMaxPacketSize0 : ℕ := 64

namespace Usb

/-- `_usbd_ep_write_packet` finds the last packet not fetched yet. -/
def txBusy (addr : Byte) (u : Usb) : Bool :=
  u.reg (addr &&& 0x7F#8).toNat &&& usbEpTxStat = usbEpTxStatValid

/-- `_usbd_ep_write_packet`, apart from the bytes themselves: the count accepted. -/
def usbdEpWritePacket (addr : Byte) (len : BitVec 16) (u : Usb) : BitVec 16 × Usb :=
  if u.txBusy addr then (0#16, u)
  else
    let ep := (addr &&& 0x7F#8).toNat
    let u := { u with txCount := Function.update u.txCount (u.entry ep) len }
    (len, u.setEpTxStat ep usbEpTxStatValid)

/-- `_usbd_ep_read_packet`: the bytes copied out, none while the endpoint is VALID. -/
def usbdEpReadPacket (addr : Byte) (len : BitVec 16) (u : Usb) : List Byte × Usb :=
  let ep := addr.toNat
  if u.reg ep &&& usbEpRxStat = usbEpRxStatValid then ([], u)
  else
    let data := slice u.rxBuff 0 (min (u.rxCount (u.entry ep) &&& 0x3ff#16).toNat len.toNat)
    let u := u.clrEpRxCtr ep
    (data, if u.usbForceNak ep then u else u.setEpRxStat ep usbEpRxStatValid)

def usbdEpNakSet (addr : Byte) (nak : Bool) (u : Usb) : Usb :=
  if addr &&& 0x80#8 ≠ 0#8 then u
  else
    let ep := addr.toNat
    let u := { u with usbForceNak := Function.update u.usbForceNak ep nak }
    if nak then u.setEpRxStat ep usbEpRxStatNak else u.setEpRxStat ep usbEpRxStatValid

def epStallSet (addr : Byte) (stall : Bool) (u : Usb) : Usb :=
  let txStat := if stall then usbEpTxStatStall else usbEpTxStatNak
  let u := if addr = 0#8 then u.setEpTxStat addr.toNat txStat else u
  if addr &&& 0x80#8 ≠ 0#8 then
    let ep := (addr &&& 0x7F#8).toNat
    let u := u.setEpTxStat ep txStat
    if stall then u else u.clrEpTxDtog ep
  else
    let ep := addr.toNat
    let u := if stall then u else u.clrEpRxDtog ep
    u.setEpRxStat ep (if stall then usbEpRxStatStall else usbEpRxStatValid)

def epStallGet (addr : Byte) (u : Usb) : Bool :=
  if addr &&& 0x80#8 ≠ 0#8 then
    u.reg (addr &&& 0x7F#8).toNat &&& usbEpTxStat = usbEpTxStatStall
  else u.reg addr.toNat &&& usbEpRxStat = usbEpRxStatStall

/-- `_set_ep_rx_bufsize`; the store to COUNT_RX keeps 16 bits. -/
def setEpRxBufsize (ep : ℕ) (size : BitVec 32) (u : Usb) : Usb :=
  if 62#32 < size then
    let size := if size &&& 0x1f#32 ≠ 0#32 then size - 32#32 else size
    { u with
      rxCount := Function.update u.rxCount (u.entry ep)
        (((size <<< 5) ||| 0x8000#32).setWidth 16) }
  else
    let size := if size &&& 1#32 ≠ 0#32 then size + 1#32 else size
    { u with rxCount := Function.update u.rxCount (u.entry ep) ((size <<< 10).setWidth 16) }

/-- `typelookup` in `_usbd_ep_setup`, by USB standard type code. -/
def typelookup (type : Byte) : BitVec 16 :=
  match type.toNat with
  | 0 => usbEpTypeControl
  | 1 => usbEpTypeIso
  | 2 => usbEpTypeBulk
  | _ => usbEpTypeInterrupt

def usbdEpSetup (addr : Byte) (type : Byte) (maxSize : BitVec 16) (u : Usb) : Usb :=
  let dir := addr &&& 0x80#8
  let addr := addr &&& 0x7f#8
  let ep := addr.toNat
  let u := u.setEpAddr ep (addr.setWidth 16)
  let u := u.setEpType ep (typelookup type)
  let u :=
    if dir ≠ 0#8 ∨ addr = 0#8 then
      let u := { u with txAddr := Function.update u.txAddr (u.entry ep) u.usbPmTop }
      let u := u.clrEpTxDtog ep
      let u := u.setEpTxStat ep usbEpTxStatNak
      { u with usbPmTop := u.usbPmTop + maxSize }
    else u
  if dir = 0#8 then
    let u := { u with rxAddr := Function.update u.rxAddr (u.entry ep) u.usbPmTop }
    let u := u.setEpRxBufsize ep (maxSize.setWidth 32)
    let u := u.clrEpRxDtog ep
    let u := u.setEpRxStat ep usbEpRxStatValid
    { u with usbPmTop := u.usbPmTop + maxSize }
  else u

end Usb

end Swindle
