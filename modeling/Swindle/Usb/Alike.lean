import Swindle.Usb.Effect

/-! Two copies of stage 2 that differ in their flash: every poll does the same to both, apart
from what an upload has copied out. -/
namespace Swindle
open Machine

namespace State

/-- `s` with another flash, another buffer and another record of the traffic. -/
def withStore (f : Flash) (b : ℕ → Byte) (o : List UsbAct) (s : State) : State :=
  { s with
    usbdControlBuffer := b
    out := o
    dfu := { s.dfu with flash := f } }

end State

/-- `t` is `s` up to the flash; where flash can be uploaded, up to the buffer and the traffic
as well. -/
def Alike (c : Device) (s t : State) : Prop :=
  ∃ f b o, t = s.withStore f b o ∧
    (c.enableDfuUpload = false → b = s.usbdControlBuffer ∧ o = s.out)

section Handlers

variable {c : Device} {s t : State}

theorem Alike.usb (h : Alike c s t) : t.usb = s.usb := by
  obtain ⟨f, b, o, rfl, -⟩ := h
  rfl

theorem Alike.usbFsmState (h : Alike c s t) : t.usbFsmState = s.usbFsmState := by
  obtain ⟨f, b, o, rfl, -⟩ := h
  rfl

theorem Alike.usbReq (h : Alike c s t) : t.usbReq = s.usbReq := by
  obtain ⟨f, b, o, rfl, -⟩ := h
  rfl

theorem Alike.usbCompleteCb (h : Alike c s t) : t.usbCompleteCb = s.usbCompleteCb := by
  obtain ⟨f, b, o, rfl, -⟩ := h
  rfl

theorem Alike.prog (h : Alike c s t) : t.dfu.prog = s.dfu.prog := by
  obtain ⟨f, b, o, rfl, -⟩ := h
  rfl

theorem Alike.usbdfuState (h : Alike c s t) : t.dfu.usbdfuState = s.dfu.usbdfuState := by
  obtain ⟨f, b, o, rfl, -⟩ := h
  rfl

theorem Alike.datasize (h : Alike c s t) : t.datasize = s.datasize := by
  obtain ⟨f, b, o, rfl, -⟩ := h
  rfl

theorem Alike.out (hup : c.enableDfuUpload = false) (h : Alike c s t) : t.out = s.out := by
  obtain ⟨f, b, o, rfl, hb⟩ := h
  exact (hb hup).2

theorem Alike.buffer (hup : c.enableDfuUpload = false) (h : Alike c s t) :
    t.usbdControlBuffer = s.usbdControlBuffer := by
  obtain ⟨f, b, o, rfl, hb⟩ := h
  exact (hb hup).1

theorem Alike.map {g : State → State}
    (hg : ∀ s f b o, g (State.withStore f b o s) = (g s).withStore f b o)
    (hb : ∀ s, (g s).usbdControlBuffer = s.usbdControlBuffer) (ho : ∀ s, (g s).out = s.out)
    (h : Alike c s t) : Alike c (g s) (g t) := by
  obtain ⟨f, b, o, rfl, hs⟩ := h
  refine ⟨f, b, o, hg s f b o, ?_⟩
  rwa [hb, ho]

theorem Alike.mapUsb (g : Usb → Usb) (h : Alike c s t) : Alike c (s.mapUsb g) (t.mapUsb g) :=
  h.map (fun _ _ _ _ => rfl) (fun _ => rfl) fun _ => rfl

theorem Alike.putBuffer (off : ℕ) (d : List Byte) (h : Alike c s t) :
    Alike c (s.putBuffer off d) (t.putBuffer off d) := by
  obtain ⟨f, b, o, rfl, hs⟩ := h
  refine ⟨f, blit off d b, o, rfl, fun hup => ?_⟩
  obtain ⟨rfl, rfl⟩ := hs hup
  exact ⟨rfl, rfl⟩

theorem Alike.stall (h : Alike c s t) : Alike c s.stallTransaction t.stallTransaction := by
  obtain ⟨f, b, o, rfl, hs⟩ := h
  refine ⟨f, b, .stall :: o, rfl, fun hup => ?_⟩
  obtain ⟨rfl, rfl⟩ := hs hup
  exact ⟨rfl, rfl⟩

theorem Alike.writePacket (addr : Byte) (d : List Byte) (h : Alike c s t) :
    Alike c (s.usbdEpWritePacket addr d) (t.usbdEpWritePacket addr d) := by
  obtain ⟨f, b, o, rfl, hs⟩ := h
  refine ⟨f, b, if s.usb.txBusy addr then o else .tx d :: o, rfl, fun hup => ?_⟩
  obtain ⟨rfl, rfl⟩ := hs hup
  exact ⟨rfl, rfl⟩

theorem Alike.writeChunk (len : BitVec 16) (h : Alike c s t) :
    Alike c (s.writeChunk len) (t.writeChunk len) := by
  obtain ⟨f, b, o, rfl, hs⟩ := h
  refine ⟨f, b, ((s.withStore f b o).writeChunk len).out, ?_, fun hup => ?_⟩
  · rw [State.writeChunk_eq s]
    exact State.writeChunk_eq (s.withStore f b o) len
  · obtain ⟨rfl, rfl⟩ := hs hup
    exact ⟨rfl, rfl⟩

theorem Alike.sendChunk (h : Alike c s t) :
    Alike c s.usbControlSendChunk t.usbControlSendChunk := by
  have hd := h.datasize
  by_cases hlt : BitVec.ofNat 16 bMaxPacketSize0 < s.datasize
  · rw [State.sendChunk_of_lt hlt, State.sendChunk_of_lt (by rwa [hd])]
    have hw := h.writeChunk (BitVec.ofNat 16 bMaxPacketSize0)
    exact hw.map (g := fun s => { s with
      usbFsmState := .dataIn
      dataoff := s.dataoff + BitVec.ofNat 16 bMaxPacketSize0
      datasize := s.datasize - BitVec.ofNat 16 bMaxPacketSize0 })
      (fun _ _ _ _ => rfl) (fun _ => rfl) fun _ => rfl
  · rw [State.sendChunk_of_not_lt hlt, State.sendChunk_of_not_lt (by rwa [hd]), hd]
    have hw := h.writeChunk s.datasize
    exact hw.map (g := fun s => { s with
      usbFsmState := if s.usbNeedsZlp then .dataIn else .lastDataIn
      usbNeedsZlp := false
      datasize := 0#16 })
      (fun _ _ _ _ => rfl) (fun _ => rfl) fun _ => rfl

theorem Alike.withDatasize (n : BitVec 16) (h : Alike c s t) :
    Alike c { s with datasize := n } { t with datasize := n } :=
  h.map (g := fun s => { s with datasize := n }) (fun _ _ _ _ => rfl) (fun _ => rfl) fun _ => rfl

/-- The same result code and alike states. -/
def AlikeResult (c : Device) (p q : UsbdRequestReturnCodes × State) : Prop :=
  q.1 = p.1 ∧ Alike c p.2 q.2

theorem Alike.standardRequest (h : Alike c s t) :
    AlikeResult c (s.usbdStandardRequest c) (t.usbdStandardRequest c) := by
  obtain ⟨x, hx⟩ := decides_standard c s.usbReq
  rw [hx.eq s rfl, hx.eq t h.usbReq]
  obtain ⟨f, b, o, rfl, hs⟩ := h
  refine ⟨rfl, f, Effect.fill (x.writes s.usb) b, o, rfl, fun hup => ?_⟩
  obtain ⟨rfl, rfl⟩ := hs hup
  exact ⟨rfl, rfl⟩

theorem controlRequest_alike (c : Device) (req : UsbSetupData) (io : DfuIo) (f : Flash)
    (b : ℕ → Byte) (hb : c.enableDfuUpload = false → b = io.buf)
    (htake : DfuReq.ofByte req.bRequest = some .dnload → ∀ i < io.len.toNat, b i = io.buf i) :
    ∃ b', (usbdfuControlRequest c req { io with buf := b, dfu := { io.dfu with flash := f } }).2 =
        { (usbdfuControlRequest c req io).2 with
          buf := b'
          dfu := { (usbdfuControlRequest c req io).2.dfu with flash := f } } ∧
      (c.enableDfuUpload = false → b' = (usbdfuControlRequest c req io).2.buf) := by
  cases hr : DfuReq.ofByte req.bRequest with
  | none =>
    rw [controlRequest_of_none c _ hr, controlRequest_of_none c _ hr]
    exact ⟨b, rfl, hb⟩
  | some r =>
    simp only [usbdfuControlRequest, hr]
    cases r with
    | dnload =>
      by_cases hl : io.len = 0#16
      · simp only [if_pos hl]
        exact ⟨b, rfl, hb⟩
      · simp only [if_neg hl]
        have hslice : ∀ n : BitVec 16, n.toNat ≤ io.len.toNat →
            slice b 0 n.toNat = slice io.buf 0 n.toNat := fun n hn =>
          slice_congr fun i hi => htake hr _ (by omega)
        rw [hslice _ (by split; exacts [Nat.le_of_lt (BitVec.lt_def.mp ‹_›), Nat.le_refl _])]
        exact ⟨b, rfl, hb⟩
    | upload =>
      by_cases hv : req.wValue = 0#16
      · simp only [if_pos hv]
        refine ⟨_, rfl, fun hup => ?_⟩
        rw [hb hup]
      · simp only [if_neg hv]
        by_cases hc : c.enableDfuUpload = true ∧ addressCheck c
            (blockAddress io.dfu.prog.addr req.wValue) (BitVec.ofNat 32 dfuTransferSize) = true
        · simp only [if_pos hc]
          refine ⟨_, rfl, fun hup => ?_⟩
          rw [hup] at hc
          cases hc.1
        · simp only [if_neg hc]
          exact ⟨b, rfl, hb⟩
    | getstatus =>
      refine ⟨_, rfl, fun hup => ?_⟩
      rw [hb hup]
    | getstate =>
      refine ⟨_, rfl, fun hup => ?_⟩
      rw [hb hup]
    | _ => exact ⟨b, rfl, hb⟩

/-- A download, where it is dispatched, takes the same bytes on both sides. -/
def SharesPayload (c : Device) (s t : State) : Prop :=
  c.enableDfuUpload → s.usbReq.Asks .dnload →
    ∀ i < s.usbReq.wLength.toNat, t.usbdControlBuffer i = s.usbdControlBuffer i

theorem Alike.dispatch (h : Alike c s t) (hp : SharesPayload c s t) :
    AlikeResult c (s.usbControlRequestDispatch c) (t.usbControlRequestDispatch c) := by
  by_cases hd : s.usbReq.isDfu
  · have hd' : t.usbReq.isDfu := by rwa [h.usbReq]
    rw [State.dispatch_of_dfu c hd, State.dispatch_of_dfu c hd', h.usbReq]
    obtain ⟨f, b, o, rfl, hs⟩ := h
    have htake : DfuReq.ofByte s.usbReq.bRequest = some .dnload →
        ∀ i < s.dfuIo.len.toNat, b i = s.dfuIo.buf i := fun hr i hi => by
      cases hup : c.enableDfuUpload with
      | false => rw [(hs hup).1]; rfl
      | true => exact hp hup ⟨hd, hr⟩ i hi
    obtain ⟨b', hb', heq⟩ :=
      controlRequest_alike c s.usbReq s.dfuIo f b (fun hup => (hs hup).1) htake
    have hio : (s.withStore f b o).dfuIo =
        { s.dfuIo with buf := b, dfu := { s.dfuIo.dfu with flash := f } } := rfl
    rw [hio, hb']
    exact ⟨rfl, f, b', o, rfl, fun hup => ⟨heq hup, (hs hup).2⟩⟩
  · have hd' : ¬t.usbReq.isDfu := by rwa [h.usbReq]
    rw [State.dispatch_of_not_dfu c hd, State.dispatch_of_not_dfu c hd']
    exact h.standardRequest

theorem Alike.setupRead (h : Alike c s t) (hp : SharesPayload c s t) :
    Alike c (s.usbControlSetupRead c) (t.usbControlSetupRead c) := by
  have hz : Alike c { s with dataoff := 0#16 } { t with dataoff := 0#16 } :=
    h.map (g := fun s => { s with dataoff := 0#16 }) (fun _ _ _ _ => rfl) (fun _ => rfl)
      fun _ => rfl
  obtain ⟨hcode, hq⟩ : AlikeResult c (s.readDispatch c) (t.readDispatch c) := hz.dispatch hp
  have hw : t.usbReq.wLength = s.usbReq.wLength := by rw [h.usbReq]
  rw [State.setupRead_eq, State.setupRead_eq, hcode, hw]
  split
  · exact hq.stall
  · have hcut : ∀ w : BitVec 16, Alike c
        { (s.readDispatch c).2 with datasize :=
          if w < (s.readDispatch c).2.datasize then w else (s.readDispatch c).2.datasize }
        { (t.readDispatch c).2 with datasize :=
          if w < (t.readDispatch c).2.datasize then w else (t.readDispatch c).2.datasize } :=
      fun w => hq.map
        (g := fun s => { s with datasize := if w < s.datasize then w else s.datasize })
        (fun _ _ _ _ => rfl) (fun _ => rfl) fun _ => rfl
    split
    · have hready := (hcut s.usbReq.wLength).map (g := fun r => { r with
        usbNeedsZlp := State.needsZlp r.datasize s.usbReq.wLength bMaxPacketSize0 })
        (fun _ _ _ _ => rfl) (fun _ => rfl) fun _ => rfl
      exact hready.sendChunk
    · exact ((hcut s.usbReq.wLength).writePacket 0#8 []).map
        (g := fun s => { s with usbFsmState := .statusIn }) (fun _ _ _ _ => rfl) (fun _ => rfl)
        fun _ => rfl

theorem Alike.setupWrite (h : Alike c s t) :
    Alike c s.usbControlSetupWrite t.usbControlSetupWrite := by
  have hw : t.usbReq.wLength = s.usbReq.wLength := by rw [h.usbReq]
  unfold State.usbControlSetupWrite
  rw [hw]
  split
  · exact h.stall
  · exact h.map (g := fun r => { r with
      usb := r.usb.usbdEpNakSet 0#8 false
      datasize := 0#16
      usbFsmState := if BitVec.ofNat 16 bMaxPacketSize0 < s.usbReq.wLength then .dataOut
        else .lastDataOut }) (fun _ _ _ _ => rfl) (fun _ => rfl) fun _ => rfl

theorem Alike.tookSetup (d : List Byte) (u : Usb) (h : Alike c s t) :
    Alike c (s.tookSetup d u) (t.tookSetup d u) := by
  obtain ⟨f, b, o, rfl, hs⟩ := h
  exact ⟨{ f with ops := [] }, b, [], rfl, fun hup => ⟨(hs hup).1, rfl⟩⟩

theorem Alike.raise (e : Event) (h : Alike c s t) : Alike c (s.raise e) (t.raise e) := by
  obtain ⟨f, b, o, rfl, hs⟩ := h
  exact ⟨{ f with ops := [] }, b, [], rfl, fun hup => ⟨(hs hup).1, rfl⟩⟩

theorem Alike.complete (h : Alike c s t) : Alike c (State.complete c s) (State.complete c t) := by
  have hcb := h.usbCompleteCb
  have hstate := h.usbdfuState
  cases hc : s.usbCompleteCb with
  | none => rwa [State.complete_of_none c hc, State.complete_of_none c (hcb.trans hc)]
  | some g =>
    have hs : State.complete c s = { s with dfu := usbdfuGetstatusComplete c s.dfu } := by
      rw [State.complete, hc]
    have ht : State.complete c t = { t with dfu := usbdfuGetstatusComplete c t.dfu } := by
      rw [State.complete, hcb, hc]
    rw [hs, ht]
    by_cases hb : s.dfu.usbdfuState = .dfuDnbusy
    · rw [getstatusComplete_of_busy c hb, getstatusComplete_of_busy c (hstate.trans hb)]
      obtain ⟨f, b, o, rfl, hs⟩ := h
      exact ⟨_, b, o, rfl, hs⟩
    · rwa [getstatusComplete_of_not_busy c hb, getstatusComplete_of_not_busy c (by rwa [hstate])]

theorem Alike.latchAddress (h : Alike c s t) : Alike c s.latchAddress t.latchAddress := by
  unfold State.latchAddress
  rw [h.usbReq]
  split
  · obtain ⟨f, b, o, rfl, hs⟩ := h
    refine ⟨f, b, _ :: o, rfl, fun hup => ?_⟩
    obtain ⟨rfl, rfl⟩ := hs hup
    exact ⟨rfl, rfl⟩
  · exact h

theorem Alike.controlIn (h : Alike c s t) : Alike c (s.usbdControlIn c) (t.usbdControlIn c) := by
  unfold State.usbdControlIn
  rw [h.usbFsmState]
  split
  · exact h.sendChunk
  · exact h.map (g := fun s => { s with
      usbFsmState := .statusOut
      usb := s.usb.usbdEpNakSet 0#8 false }) (fun _ _ _ _ => rfl) (fun _ => rfl) fun _ => rfl
  · exact h.complete.latchAddress.map (g := fun s => { s with usbFsmState := .idle })
      (fun _ _ _ _ => rfl) (fun _ => rfl) fun _ => rfl
  · exact h.stall

theorem Alike.tookData (d : List Byte) (u : Usb) (h : Alike c s t) :
    Alike c (s.tookData d u) (t.tookData d u) := by
  obtain ⟨f, b, o, rfl, hs⟩ := h
  refine ⟨{ f with ops := [] }, blit s.datasize.toNat (s.dataBytes d) b, [], rfl, fun hup => ?_⟩
  rw [(hs hup).1]
  exact ⟨rfl, rfl⟩

end Handlers

section Step

variable {c : Device} {s t : State}

/-- The same for the event `e`: a download that it completes. -/
def SharesPayloadAt (c : Device) (s t : State) (e : Event) : Prop :=
  c.enableDfuUpload → s.Dispatches e → (s.requestOf e).Asks .dnload →
    ∀ i < (s.requestOf e).wLength.toNat, (t.ioOf e).buf i = (s.ioOf e).buf i

theorem Alike.step_setup (h : Alike c s t) {d : List Byte}
    (hp : SharesPayloadAt c s t (.setup d)) :
    Alike c (step c s (.setup d)) (step c t (.setup d)) := by
  have htook := h.tookSetup d (s.usb.readSetup d)
  rw [step_setup_eq, step_setup_eq, h.usb, h.usbReq]
  apply Alike.mapUsb
  split
  · exact htook.stall
  · rename_i hlen
    split
    · rename_i hread
      exact htook.setupRead fun hup hasks => hp hup ⟨not_not.mp hlen, hread⟩ hasks
    · exact htook.setupWrite

theorem Alike.step_out (h : Alike c s t) {d : List Byte} (hp : SharesPayloadAt c s t (.out d)) :
    Alike c (step c s (.out d)) (step c t (.out d)) := by
  have hfsm := h.usbFsmState
  have hsize : t.packetsize = s.packetsize := by rw [State.packetsize, h.usbReq, h.datasize]; rfl
  have htook := h.tookData d (s.usb.readData d s.packetsize)
  by_cases hd : s.usbFsmState = .dataOut
  · rw [step_out_dataOut_eq c s d hd, step_out_dataOut_eq c t d (hfsm.trans hd), hsize, h.usb,
      h.datasize, h.usbReq]
    apply Alike.mapUsb
    split
    · exact htook.map (g := fun r => { r with
        datasize := s.datasize + s.packetsize
        usbFsmState :=
          if (s.usbReq.wLength.toNat - (s.datasize + s.packetsize).toNat : ℤ) ≤ bMaxPacketSize0
          then .lastDataOut else .dataOut }) (fun _ _ _ _ => rfl) (fun _ => rfl) fun _ => rfl
    · exact htook.stall
  by_cases hl : s.usbFsmState = .lastDataOut
  · rw [step_out_lastDataOut_eq c s d hl, step_out_lastDataOut_eq c t d (hfsm.trans hl), hsize,
      h.usb, h.datasize]
    apply Alike.mapUsb
    split
    · rename_i hfit
      obtain ⟨hcode, hq⟩ := (htook.withDatasize (s.datasize + s.packetsize)).dispatch
        fun hup hasks => hp hup ⟨hl, hfit⟩ hasks
      dsimp only
      rw [hcode]
      split
      · exact (hq.writePacket 0#8 []).map (g := fun r => { r with usbFsmState := .statusIn })
          (fun _ _ _ _ => rfl) (fun _ => rfl) fun _ => rfl
      · exact hq.stall
    · exact htook.stall
  by_cases hs : s.usbFsmState = .statusOut
  · rw [step_out_statusOut_eq c s d hs, step_out_statusOut_eq c t d (hfsm.trans hs), h.usb]
    have hidle := (h.raise (.out d)).map (g := fun r => { r with
      usb := s.usb.readData d 0#16
      usbFsmState := .idle }) (fun _ _ _ _ => rfl) (fun _ => rfl) fun _ => rfl
    have hdone := hidle.complete.map (g := fun r => { r with usbCompleteCb := none })
      (fun _ _ _ _ => rfl) (fun _ => rfl) fun _ => rfl
    exact hdone.mapUsb _
  · rw [step_out_other c s d ⟨hd, hl, hs⟩, step_out_other c t d (by rw [hfsm]; exact ⟨hd, hl, hs⟩)]
    exact ((h.raise (.out d)).stall).mapUsb _

theorem Alike.step_in (h : Alike c s t) :
    Alike c (step c s .inComplete) (step c t .inComplete) := by
  rw [step_inComplete, step_inComplete]
  exact (((h.raise .inComplete).mapUsb (Usb.clrEpTxCtr 0)).controlIn).mapUsb _

theorem Alike.step_reset (h : Alike c s t) : Alike c (step c s .reset) (step c t .reset) := by
  rw [Swindle.step_reset, Swindle.step_reset]
  obtain ⟨f, b, o, rfl, hs⟩ := h
  exact ⟨{ f with ops := [] }, b, [.daddr usbDaddrEf], rfl, fun hup => ⟨(hs hup).1, rfl⟩⟩

theorem Alike.step (h : Alike c s t) {e : Event} (hp : SharesPayloadAt c s t e) :
    Alike c (step c s e) (step c t e) := by
  cases e with
  | reset => exact h.step_reset
  | setup d => exact h.step_setup hp
  | out d => exact h.step_out hp
  | inComplete => exact h.step_in

theorem sharesPayloadAt_of_disabled (hup : c.enableDfuUpload = false) (e : Event) :
    SharesPayloadAt c s t e := by
  intro hup'
  rw [hup] at hup'
  cases hup'

end Step

end Swindle
