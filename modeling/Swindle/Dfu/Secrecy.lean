import Swindle.Usb.Alike

/-! Read protection: in a build without uploads, nothing on the bus depends on what the flash
holds. -/
namespace Swindle
open Machine

namespace State

def withMem (mem : Addr → Byte) (s : State) : State :=
  { s with dfu := { s.dfu with flash := { s.dfu.flash with mem := mem } } }

/-- What a poll shows to the host: its packets, stalls and address changes, the USB peripheral with
its registers, and whether the device restarts. -/
def seen (s : State) : List UsbAct × Usb × Bool :=
  (s.out, s.usb, s.dfu.usbdfuState = .dfuManifest)

end State

theorem alike_withMem (c : Device) (mem : Addr → Byte) (s : State) : Alike c s (s.withMem mem) :=
  ⟨_, _, _, rfl, fun _ => ⟨rfl, rfl⟩⟩

theorem Alike.seen {c : Device} {s t : State} (hup : c.enableDfuUpload = false)
    (h : Alike c s t) : s.seen = t.seen := by
  unfold State.seen
  rw [h.out hup, h.usb, h.usbdfuState]

/-- Two devices that differ in the installed firmware show the host the same. -/
theorem flash_never_seen (c : Device) (hup : c.enableDfuUpload = false) (s : State)
    (mem : Addr → Byte) (es : List Event) :
    trace (step c) State.seen s es = trace (step c) State.seen (s.withMem mem) es := by
  have hstep : ∀ s t e, Alike c s t → Alike c (step c s e) (step c t e) := fun s t e h =>
    h.step (sharesPayloadAt_of_disabled hup e)
  have hseen : ∀ s t, Alike c s t → s.seen = t.seen := fun s t h => h.seen hup
  exact trace_eq_of_rel hstep hseen (alike_withMem c mem s) es

/-- An upload of the first block, over an empty flash and over a written one. -/
theorem flash_never_seen_upload :
    let s := State.start (fun _ => 0xFF#8) (fun _ => 0#8)
    let es := [.reset, .setup (setupPacket 0xA1#8 2#8 2#16 0#16 64#16), .inComplete, .out []]
    trace (step Device.stm64k) State.seen s es =
      trace (step Device.stm64k) State.seen (s.withMem fun _ => 0x55#8) es :=
  flash_never_seen Device.stm64k rfl _ _ _

end Swindle
