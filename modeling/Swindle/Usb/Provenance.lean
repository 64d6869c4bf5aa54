import Swindle.Dfu.Deferred
import Swindle.Usb.Stage

/-! Where the payload of an accepted download comes from: the data stage of its own control
transfer, provided that it has one. -/
namespace Swindle
open Machine

/-- The last SETUP, and the packets of the data stage that followed it. -/
structure Received where
  req : UsbSetupData
  data : List (List Byte)

def receive (s : State) (e : Event) (h : Received) : Received :=
  match e with
  | .setup d => { req := s.requestOf (.setup d), data := [] }
  | .out d => if s.Expecting then { h with data := h.data ++ [d] } else h
  | _ => h

/-- The payload of an accepted download is what its transfer delivered. -/
structure FromTransfer (d : Dfu) (h : Received) : Prop where
  len : d.prog.len = h.req.wLength
  blocknum : d.prog.blocknum = h.req.wValue
  buf : slice d.prog.buf 0 d.prog.len.toNat = h.data.flatten

/-- The condition: a DNLOAD with data comes with its data stage (direction bit clear), and no
packet of that stage is longer than what the device asks for. -/
def PayloadFits (s : State) : Event → Prop
  | .setup d => s.Dispatches (.setup d) → (s.requestOf (.setup d)).Asks .dnload →
      (s.requestOf (.setup d)).wLength = 0#16
  | .out d => s.Expecting → s.usbReq.Asks .dnload → d.length ≤ s.packetsize.toNat
  | _ => True

instance (s : State) : DecidablePred (PayloadFits s)
  | .setup _ => inferInstanceAs (Decidable (_ → _ → _))
  | .out _ => inferInstanceAs (Decidable (_ → _ → _))
  | .inComplete => isTrue trivial
  | .reset => isTrue trivial

/-- The data stage of a download so far. -/
structure Collecting (s : State) (h : Received) : Prop where
  req : h.req = s.usbReq
  small : s.usbReq.wLength.toNat ≤ dfuTransferSize
  size : s.datasize.toNat ≤ s.usbReq.wLength.toNat
  last : s.usbFsmState = .lastDataOut → s.usbReq.wLength.toNat ≤ s.datasize.toNat + 64
  buffer : slice s.usbdControlBuffer 0 s.datasize.toNat = h.data.flatten

def Collects (s : State) (h : Received) : Prop :=
  s.Expecting → s.usbReq.Asks .dnload → Collecting s h

section Packet

variable {s : State} {h : Received} {d : List Byte}

theorem Collecting.packetsize (hc : Collecting s h) :
    s.packetsize.toNat = min 64 (s.usbReq.wLength.toNat - s.datasize.toNat) :=
  s.packetsize_toNat hc.size

theorem Collecting.extend (hc : Collecting s h) (hle : d.length ≤ s.packetsize.toNat)
    (hfit : s.packetsize.toNat ≤ d.length % 1024) :
    (s.datasize + s.packetsize).toNat = s.datasize.toNat + d.length ∧
      s.datasize.toNat + d.length ≤ s.usbReq.wLength.toNat ∧
      slice (blit s.datasize.toNat (s.dataBytes d) s.usbdControlBuffer) 0
        (s.datasize.toNat + d.length) = (h.data ++ [d]).flatten := by
  have hp := hc.packetsize
  have hs := hc.small
  have hz := hc.size
  have h4 : dfuTransferSize = 4096 := rfl
  have hmod := Nat.mod_le d.length 1024
  have hlen : s.packetsize.toNat = d.length := by omega
  have hbytes : s.dataBytes d = d := by
    rw [State.dataBytes, List.take_of_length_le (by omega)]
  refine ⟨?_, by omega, ?_⟩
  · rw [BitVec.toNat_add, hlen]
    omega
  · rw [hbytes, slice_blit_append, hc.buffer, List.flatten_append]
    simp

end Packet

section Step

variable (c : Device) {s : State} {h : Received} {e : Event}

theorem collects_next (hs : Collects s h) (hfit : PayloadFits s e) :
    Collects (step c s e) (receive s e h) := by
  intro hexp hasks
  have hreq' := step_usbReq c s e
  cases e with
  | setup d =>
    obtain ⟨hstep, -, -⟩ := setup_expecting c s d hexp
    have hst := staged_setup c s d hexp
    have hz : (step c s (.setup d)).datasize = 0#16 := by rw [hstep]; rfl
    refine ⟨hreq'.symm, hst.small, Nat.le_of_lt hst.size, hst.last, ?_⟩
    rw [hz]
    rfl
  | out d =>
    obtain ⟨hd, hle, hstep⟩ := out_expecting c s d hexp
    rw [hreq'] at hasks
    have hexp₀ : s.Expecting := .inl hd
    have hc := hs hexp₀ hasks
    obtain ⟨hsum, hbound, hslice⟩ := hc.extend (hfit hexp₀ hasks) hle
    have hrec : receive s (.out d) h = { h with data := h.data ++ [d] } := if_pos hexp₀
    have hsize : (step c s (.out d)).datasize = s.datasize + s.packetsize := by rw [hstep]; rfl
    have hbuf : (step c s (.out d)).usbdControlBuffer =
        blit s.datasize.toNat (s.dataBytes d) s.usbdControlBuffer := by rw [hstep]; rfl
    rw [hrec]
    refine ⟨hc.req.trans hreq'.symm, ?_, ?_, ?_, ?_⟩
    · rw [hreq']
      exact hc.small
    · rw [hreq', hsize, hsum]
      exact hbound
    · intro hf
      rw [hstep] at hf ⊢
      change (if _ then UsbFsmState.lastDataOut else .dataOut) = .lastDataOut at hf
      change s.usbReq.wLength.toNat ≤ (s.datasize + s.packetsize).toNat + 64
      have h64 : (bMaxPacketSize0 : ℤ) = 64 := rfl
      split at hf
      · omega
      · cases hf
    · rw [hbuf, hsize, hsum]
      exact hslice
  | inComplete => exact absurd hexp (in_not_expecting c s)
  | reset =>
    rw [step_reset] at hexp hasks ⊢
    have hc := hs hexp hasks
    exact ⟨hc.req, hc.small, hc.size, hc.last, hc.buffer⟩

theorem accepted_from (hs : Collects s h) (hfit : PayloadFits s e)
    (hacc : (step c s e).dfu.accepted) : FromTransfer (step c s e).dfu (receive s e h) := by
  rcases dfu_cases c s e with hq | ⟨r, hr, hdis⟩ | ⟨hc, hb⟩
  · rw [hq] at hacc
    cases hacc
  · obtain ⟨rfl, hlen⟩ := hr.accepted.mp hacc
    have hasks : (s.requestOf e).Asks .dnload := by
      rw [← step_usbReq c s e]
      exact ⟨hr.isDfu, hr.code⟩
    cases e with
    | setup d => exact absurd (hfit hdis hasks) hlen
    | out d =>
      have hexp : s.Expecting := .inr hdis.1
      have hc := hs hexp hasks
      obtain ⟨-, hbound, hslice⟩ := hc.extend (hfit hexp hasks) hdis.2
      -- the last packet ends where wLength does
      have hwhole : s.datasize.toNat + d.length = s.usbReq.wLength.toNat := by
        have hp := hc.packetsize
        have hlast := hc.last hdis.1
        have hle := hdis.2
        have hmod := Nat.mod_le d.length 1024
        omega
      have hreq' : (step c s (.out d)).usbReq = s.usbReq := step_usbReq c s (.out d)
      have hio : (s.ioOf (.out d)).len = s.usbReq.wLength := rfl
      rw [hr.dfu, controlRequest_dnload c _ hr.code rfl hlen (hio ▸ hc.small)]
      rw [receive, if_pos hexp, hreq']
      refine ⟨congrArg UsbSetupData.wLength hc.req.symm, congrArg UsbSetupData.wValue hc.req.symm,
        ?_⟩
      rw [← hslice, hwhole]
      have hn : (slice (s.ioOf (.out d)).buf 0 s.usbReq.wLength.toNat).length =
          s.usbReq.wLength.toNat := length_slice _ _ _
      change slice (blit 0 (slice (s.ioOf (.out d)).buf 0 s.usbReq.wLength.toNat) _) 0
        s.usbReq.wLength.toNat = _
      rw [slice_blit_zero _ _ (Nat.le_of_eq hn.symm), List.take_of_length_le (Nat.le_of_eq hn)]
      rfl
    | inComplete => exact hdis.elim
    | reset => exact hdis.elim
  · rw [hc.of_busy hb] at hacc
    cases hacc

end Step

/-- In every run from start-up whose downloads with data come in OUT data stages of packets
no longer than asked for, an accepted download is what its own transfer delivered. -/
theorem payload_provenance {c : Device} {mem : Addr → Byte} {ram : ℕ → Byte} {es : List Event}
    (h : Along (step c) PayloadFits (State.start mem ram) es) :
    Along (watch (step c) receive)
      (fun p e => (step c p.1 e).dfu.accepted →
        FromTransfer (step c p.1 e).dfu (receive p.1 e p.2))
      (State.start mem ram, ⟨(State.start mem ram).usbReq, []⟩) es := by
  have hstart : Collects (State.start mem ram) ⟨(State.start mem ram).usbReq, []⟩ := by
    rintro (hf | hf) <;> cases hf
  have hstep : ∀ (p : State × Received) (e : Event), Collects p.1 p.2 → PayloadFits p.1 e →
      ((step c p.1 e).dfu.accepted → FromTransfer (step c p.1 e).dfu (receive p.1 e p.2)) ∧
        Collects (watch (step c) receive p e).1 (watch (step c) receive p e).2 :=
    fun p e hp hfit => ⟨accepted_from c hp hfit, collects_next c hp hfit⟩
  exact along_of_invariant hstep hstart (along_watch.mpr h)

theorem payload_provenance_block :
    let c := Device.stm64k
    let s := State.start (fun _ => 0xFF#8) fun _ => 0#8
    let es := dnload 2#16 [0xAA#8, 0xBB#8]
    Along (step c) PayloadFits s es ∧
      Along (watch (step c) receive)
        (fun p e => (step c p.1 e).dfu.accepted →
          FromTransfer (step c p.1 e).dfu (receive p.1 e p.2)) (s, ⟨s.usbReq, []⟩) es := by
  intro c s es
  have hfit : Along (step c) PayloadFits s es := by decide
  exact ⟨hfit, payload_provenance hfit⟩

/-- DNLOAD with the IN direction bit: taken straight from SETUP, it accepts as its payload the
answer to the GET_STATUS before it. -/
theorem dnload_in_takes_old_buffer :
    let c := Device.stm64k
    let s := State.start (fun _ => 0xFF#8) fun _ => 0#8
    ¬Along (watch (step c) receive)
      (fun p e => (step c p.1 e).dfu.accepted →
        FromTransfer (step c p.1 e).dfu (receive p.1 e p.2)) (s, ⟨s.usbReq, []⟩)
      (getstatus ++ [.setup (setupPacket 0xA1#8 1#8 2#16 0#16 6#16)]) := by
  intro c s h
  obtain ⟨-, hlast, -⟩ := along_append.mp h
  have hbuf := (hlast (by decide +kernel)).buf
  have hlen := congrArg List.length hbuf
  exact absurd hlen (by decide +kernel)

end Swindle
