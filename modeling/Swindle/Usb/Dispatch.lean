import Swindle.Dfu.Handler
import Swindle.Usb.Receive

/-! What one poll does above the endpoint layer. Every poll leaves the DFU layer alone, hands
it one request, or runs the deferred operation. -/
namespace Swindle
open Machine

namespace State

/-- `t` differs from `s` in the registers, the response length and the buffer at most. -/
structure Frame (s t : State) : Prop where
  usbFsmState : t.usbFsmState = s.usbFsmState
  dataoff : t.dataoff = s.dataoff
  usbNeedsZlp : t.usbNeedsZlp = s.usbNeedsZlp
  usbReq : t.usbReq = s.usbReq
  usbCompleteCb : t.usbCompleteCb = s.usbCompleteCb
  dfu : t.dfu = s.dfu
  out : t.out = s.out

theorem Frame.refl (s : State) : s.Frame s := ⟨rfl, rfl, rfl, rfl, rfl, rfl, rfl⟩

theorem standardGetDescriptor_frame (c : Device) (s : State) :
    s.Frame (usbStandardGetDescriptor c s).2 := by
  unfold usbStandardGetDescriptor
  dsimp only
  split
  · exact ⟨rfl, rfl, rfl, rfl, rfl, rfl, rfl⟩
  split
  · exact ⟨rfl, rfl, rfl, rfl, rfl, rfl, rfl⟩
  split
  · split
    · exact ⟨rfl, rfl, rfl, rfl, rfl, rfl, rfl⟩
    · split
      · exact ⟨rfl, rfl, rfl, rfl, rfl, rfl, rfl⟩
      · split <;> exact ⟨rfl, rfl, rfl, rfl, rfl, rfl, rfl⟩
  · exact Frame.refl s

theorem standardRequestDevice_frame (c : Device) (s : State) :
    s.Frame (usbdStandardRequestDevice c s).2 := by
  unfold usbdStandardRequestDevice
  split
  · split <;> exact Frame.refl s
  · split <;> exact ⟨rfl, rfl, rfl, rfl, rfl, rfl, rfl⟩
  · exact ⟨rfl, rfl, rfl, rfl, rfl, rfl, rfl⟩
  · exact standardGetDescriptor_frame c s
  · exact ⟨rfl, rfl, rfl, rfl, rfl, rfl, rfl⟩
  · exact Frame.refl s

theorem standardRequestInterface_frame (s : State) :
    s.Frame (usbdStandardRequestInterface s).2 := by
  unfold usbdStandardRequestInterface
  split <;> exact ⟨rfl, rfl, rfl, rfl, rfl, rfl, rfl⟩

theorem standardRequestEndpoint_frame (s : State) :
    s.Frame (usbdStandardRequestEndpoint s).2 := by
  unfold usbdStandardRequestEndpoint endpointFeature
  split
  · split <;> exact ⟨rfl, rfl, rfl, rfl, rfl, rfl, rfl⟩
  · split <;> exact ⟨rfl, rfl, rfl, rfl, rfl, rfl, rfl⟩
  · exact ⟨rfl, rfl, rfl, rfl, rfl, rfl, rfl⟩
  · exact Frame.refl s

theorem standardRequest_frame (c : Device) (s : State) : s.Frame (usbdStandardRequest c s).2 := by
  unfold usbdStandardRequest
  split
  · exact Frame.refl s
  · split
    · exact standardRequestDevice_frame c s
    · exact standardRequestInterface_frame s
    · exact standardRequestEndpoint_frame s
    · exact Frame.refl s

def dfuIo (s : State) : DfuIo :=
  { len := s.usbReq.wLength
    complete := s.usbCompleteCb
    buf := s.usbdControlBuffer
    dfu := s.dfu }

def withIo (s : State) (io : DfuIo) : State :=
  { s with
    datasize := io.len
    usbCompleteCb := io.complete
    usbdControlBuffer := io.buf
    dfu := io.dfu }

theorem isDfu_not_standard {r : UsbSetupData} (h : r.isDfu) :
    r.bmRequestType &&& 0x60#8 ≠ 0#8 := by
  intro h0
  have h' : r.bmRequestType &&& 0x7F#8 = 0x21#8 := of_decide_eq_true h
  have h1 : (r.bmRequestType &&& 0x7F#8) &&& 0x60#8 = 0#8 := by
    rw [BitVec.and_assoc]
    exact h0
  rw [h'] at h1
  exact absurd h1 (by decide)

theorem dispatch_of_dfu (c : Device) {s : State} (h : s.usbReq.isDfu) :
    usbControlRequestDispatch c s =
      (if (DfuReq.ofByte s.usbReq.bRequest).isSome then .handled else .notsupp,
        s.withIo (usbdfuControlRequest c s.usbReq s.dfuIo).2) := by
  have hf := controlRequest_fst c s.dfuIo s.usbReq
  rw [usbControlRequestDispatch, if_pos h]
  change (if (usbdfuControlRequest c s.usbReq s.dfuIo).1 = .handled ∨
    (usbdfuControlRequest c s.usbReq s.dfuIo).1 = .notsupp then
      ((usbdfuControlRequest c s.usbReq s.dfuIo).1,
        s.withIo (usbdfuControlRequest c s.usbReq s.dfuIo).2)
    else usbdStandardRequest c (s.withIo (usbdfuControlRequest c s.usbReq s.dfuIo).2)) = _
  rw [hf]
  by_cases hs : (DfuReq.ofByte s.usbReq.bRequest).isSome
  · simp [hs]
  · simp only [hs, Bool.false_eq_true, if_false, reduceCtorEq, or_self]
    exact if_pos (isDfu_not_standard h)

theorem dispatch_of_not_dfu (c : Device) {s : State} (h : ¬s.usbReq.isDfu) :
    usbControlRequestDispatch c s = usbdStandardRequest c s := if_neg h

end State

end Swindle
