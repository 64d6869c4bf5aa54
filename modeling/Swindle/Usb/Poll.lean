import Swindle.Usb.Dispatch

/-! The outcome of one poll for the DFU layer: it is left alone, handed one request, or told
to run the deferred operation. -/
namespace Swindle
open Machine

namespace State

section Chunk

variable {s : State}

theorem writeChunk_eq (s : State) (len : BitVec 16) :
    s.writeChunk len = { s with
      usb := (s.usb.usbdEpWritePacket 0#8 len).2
      out := (s.writeChunk len).out } := by
  have hl : BitVec.ofNat 16 (slice s.usbdControlBuffer s.dataoff.toNat len.toNat).length = len := by
    rw [length_slice, BitVec.ofNat_toNat, BitVec.setWidth_eq]
  have hdef : s.writeChunk len = { s with
      usb := (s.usb.usbdEpWritePacket 0#8 (BitVec.ofNat 16
        (slice s.usbdControlBuffer s.dataoff.toNat len.toNat).length)).2
      out := (s.writeChunk len).out } := rfl
  rwa [hl] at hdef

theorem sendChunk_of_lt (h : BitVec.ofNat 16 bMaxPacketSize0 < s.datasize) :
    s.usbControlSendChunk =
      { s.writeChunk (BitVec.ofNat 16 bMaxPacketSize0) with
        usbFsmState := .dataIn
        dataoff := s.dataoff + BitVec.ofNat 16 bMaxPacketSize0
        datasize := s.datasize - BitVec.ofNat 16 bMaxPacketSize0 } := if_pos h

theorem sendChunk_of_not_lt (h : ¬BitVec.ofNat 16 bMaxPacketSize0 < s.datasize) :
    s.usbControlSendChunk =
      { s.writeChunk s.datasize with
        usbFsmState := if s.usbNeedsZlp then .dataIn else .lastDataIn
        usbNeedsZlp := false
        datasize := 0#16 } := if_neg h

variable (s)

theorem sendChunk_cases : ∃ (len off size : BitVec 16) (f : UsbFsmState) (zlp : Bool),
    (f = .dataIn ∨ f = .lastDataIn) ∧
      s.usbControlSendChunk = { s.writeChunk len with
        usbFsmState := f
        usbNeedsZlp := zlp
        dataoff := off
        datasize := size } := by
  by_cases h : BitVec.ofNat 16 bMaxPacketSize0 < s.datasize
  · exact ⟨_, _, _, _, _, .inl rfl, sendChunk_of_lt h⟩
  · refine ⟨_, s.dataoff, _, _, _, ?_, sendChunk_of_not_lt h⟩
    by_cases hz : s.usbNeedsZlp
    · exact .inl (if_pos hz)
    · exact .inr (if_neg hz)

@[simp] theorem sendChunk_usbReq : s.usbControlSendChunk.usbReq = s.usbReq := by
  obtain ⟨_, _, _, _, _, -, h⟩ := s.sendChunk_cases
  rw [h]
  rfl

@[simp] theorem sendChunk_usbCompleteCb :
    s.usbControlSendChunk.usbCompleteCb = s.usbCompleteCb := by
  obtain ⟨_, _, _, _, _, -, h⟩ := s.sendChunk_cases
  rw [h]
  rfl

@[simp] theorem sendChunk_dfu : s.usbControlSendChunk.dfu = s.dfu := by
  obtain ⟨_, _, _, _, _, -, h⟩ := s.sendChunk_cases
  rw [h]
  rfl

theorem sendChunk_usbdControlBuffer :
    s.usbControlSendChunk.usbdControlBuffer = s.usbdControlBuffer := by
  obtain ⟨_, _, _, _, _, -, h⟩ := s.sendChunk_cases
  rw [h]
  rfl

theorem sendChunk_usb :
    ∃ len, s.usbControlSendChunk.usb = (s.usb.usbdEpWritePacket 0#8 len).2 := by
  obtain ⟨len, _, _, _, _, -, h⟩ := s.sendChunk_cases
  refine ⟨len, ?_⟩
  rw [h, writeChunk_eq]

theorem sendChunk_usbFsmState :
    s.usbControlSendChunk.usbFsmState = .dataIn ∨
      s.usbControlSendChunk.usbFsmState = .lastDataIn := by
  obtain ⟨_, _, _, _, _, hf, h⟩ := s.sendChunk_cases
  rwa [h]

end Chunk

/-- Where a control transfer stands once its request has been taken. -/
def Answering (s : State) : Prop :=
  s.usbFsmState = .dataIn ∨ s.usbFsmState = .lastDataIn ∨ s.usbFsmState = .statusIn

/-- Stage 2 when `_usbd_control_setup` has read the packet `d`. -/
def tookSetup (s : State) (d : List Byte) (u : Usb) : State :=
  { s.raise (.setup d) with
    usb := u
    usbReq := s.usbReq.patch (setupBytes d)
    usbCompleteCb := none }

section Read

variable (c : Device) (s : State)

/-- `usb_control_request_dispatch` as a control read calls it. -/
def readDispatch : UsbdRequestReturnCodes × State :=
  usbControlRequestDispatch c { s with dataoff := 0#16 }

/-- The globals a control read sends its first chunk from. -/
def readyToSend (t : State) (wLength : BitVec 16) : State :=
  let t := { t with datasize := if wLength < t.datasize then wLength else t.datasize }
  { t with usbNeedsZlp := needsZlp t.datasize wLength bMaxPacketSize0 }

theorem setupRead_eq :
    usbControlSetupRead c s =
      if (s.readDispatch c).1 = .notsupp then (s.readDispatch c).2.stallTransaction
      else if s.usbReq.wLength ≠ 0#16 then
        (readyToSend (s.readDispatch c).2 s.usbReq.wLength).usbControlSendChunk
      else
        let t := (s.readDispatch c).2
        { { t with datasize :=
              if s.usbReq.wLength < t.datasize then s.usbReq.wLength
              else t.datasize }.usbdEpWritePacket 0#8 [] with usbFsmState := .statusIn } := by
  by_cases h : (s.readDispatch c).1 = .notsupp
  · rw [if_pos h]
    exact if_neg (not_not.mpr h)
  · rw [if_neg h]
    exact if_pos h

variable {s}

theorem setupRead_of_refused (h : (s.readDispatch c).1 = .notsupp) :
    usbControlSetupRead c s = (s.readDispatch c).2.stallTransaction := by
  rw [setupRead_eq, if_pos h]

theorem setupRead_of_taken (h : (s.readDispatch c).1 ≠ .notsupp) :
    (usbControlSetupRead c s).dfu = (s.readDispatch c).2.dfu ∧
      (usbControlSetupRead c s).usbCompleteCb = (s.readDispatch c).2.usbCompleteCb ∧
      (usbControlSetupRead c s).usbReq = (s.readDispatch c).2.usbReq ∧
      (usbControlSetupRead c s).Answering := by
  rw [setupRead_eq, if_neg h]
  by_cases hw : s.usbReq.wLength = 0#16
  · rw [if_neg (not_not.mpr hw)]
    exact ⟨rfl, rfl, rfl, .inr (.inr rfl)⟩
  · rw [if_pos hw, sendChunk_dfu, sendChunk_usbCompleteCb, sendChunk_usbReq]
    refine ⟨rfl, rfl, rfl, ?_⟩
    rcases sendChunk_usbFsmState (readyToSend (s.readDispatch c).2 s.usbReq.wLength) with hf | hf
    · exact .inl hf
    · exact .inr (.inl hf)

theorem readDispatch_of_dfu (h : s.usbReq.isDfu) :
    s.readDispatch c =
      (if (DfuReq.ofByte s.usbReq.bRequest).isSome then .handled else .notsupp,
        { s with dataoff := 0#16 }.withIo (usbdfuControlRequest c s.usbReq s.dfuIo).2) :=
  dispatch_of_dfu c h

theorem readDispatch_frame (h : ¬s.usbReq.isDfu) :
    { s with dataoff := 0#16 }.Frame (s.readDispatch c).2 := by
  have hq : s.readDispatch c = usbdStandardRequest c { s with dataoff := 0#16 } :=
    dispatch_of_not_dfu c h
  rw [hq]
  exact standardRequest_frame c _

end Read

end State

section Steps

variable (c : Device) (s : State)

theorem step_setup_eq (d : List Byte) :
    step c s (.setup d) =
      (if (setupBytes d).length ≠ 8 then (s.tookSetup d (s.usb.readSetup d)).stallTransaction
      else if (s.usbReq.patch (setupBytes d)).wLength = 0#16 ∨
          (s.usbReq.patch (setupBytes d)).bmRequestType &&& 0x80#8 ≠ 0#8 then
        (s.tookSetup d (s.usb.readSetup d)).usbControlSetupRead c
      else (s.tookSetup d (s.usb.readSetup d)).usbControlSetupWrite).mapUsb
        (State.acknowledge (usbIstrCtr ||| usbIstrDir)) := by
  have hdata : (((s.usb.raise (.setup d)).usbdEpNakSet 0#8 true).usbdEpReadPacket 0#8
      8#16).1 = setupBytes d := (Usb.holds_raise_setup s.usb d).nakSet.read 8#16
  have hdef : (s.raise (.setup d)).usbdControlSetup c =
      (fun data : List Byte =>
        let t := { s.raise (.setup d) with
          usb := s.usb.readSetup d
          usbReq := s.usbReq.patch data
          usbCompleteCb := none }
        if data.length ≠ 8 then t.stallTransaction
        else if t.usbReq.wLength = 0#16 ∨ t.usbReq.bmRequestType &&& 0x80#8 ≠ 0#8 then
          t.usbControlSetupRead c
        else t.usbControlSetupWrite)
      (((s.usb.raise (.setup d)).usbdEpNakSet 0#8 true).usbdEpReadPacket 0#8 8#16).1 := rfl
  rw [step_setup, hdef, hdata]
  rfl

end Steps

/-- From `s` to `t` the DFU layer was handed the request `r` with the parameters `io`. -/
structure Requested (c : Device) (s t : State) (r : DfuReq) (io : DfuIo) : Prop where
  isDfu : t.usbReq.isDfu
  code : DfuReq.ofByte t.usbReq.bRequest = some r
  len : io.len = t.usbReq.wLength
  before : io.dfu = s.dfu.newPoll
  dfu : t.dfu = (usbdfuControlRequest c t.usbReq io).2.dfu
  cb : t.usbCompleteCb = (usbdfuControlRequest c t.usbReq io).2.complete
  answering : t.Answering
  kept : io.complete = none ∨ io.complete = s.usbCompleteCb ∧ t.usbReq = s.usbReq

/-- The event ends the status stage of the control transfer `s` is in. -/
def StatusStage (s : State) : Event → Prop
  | .out _ => s.usbFsmState = .statusOut
  | .inComplete => s.usbFsmState = .statusIn
  | _ => False

instance (s : State) : DecidablePred (StatusStage s)
  | .out _ => inferInstanceAs (Decidable (_ = _))
  | .inComplete => inferInstanceAs (Decidable (_ = _))
  | .setup _ => isFalse id
  | .reset => isFalse id

namespace State

/-- What `usb_req` holds when the event is handled. -/
def requestOf (s : State) : Event → UsbSetupData
  | .setup d => s.usbReq.patch (setupBytes d)
  | _ => s.usbReq

/-- The event completes a request: a SETUP packet without an OUT data stage, or the last
packet of one. -/
def Dispatches (s : State) : Event → Prop
  | .setup d => (setupBytes d).length = 8 ∧
      ((s.usbReq.patch (setupBytes d)).wLength = 0#16 ∨
        (s.usbReq.patch (setupBytes d)).bmRequestType &&& 0x80#8 ≠ 0#8)
  | .out d => s.usbFsmState = .lastDataOut ∧ s.packetsize.toNat ≤ d.length % 1024
  | _ => False

instance (s : State) : DecidablePred s.Dispatches
  | .setup _ => inferInstanceAs (Decidable (_ ∧ _))
  | .out _ => inferInstanceAs (Decidable (_ ∧ _))
  | .inComplete => isFalse id
  | .reset => isFalse id

/-- The parameters a request completed by the event is handled with. -/
def ioOf (s : State) (e : Event) : DfuIo :=
  { len := (s.requestOf e).wLength
    complete := match e with
      | .setup _ => none
      | _ => s.usbCompleteCb
    buf := match e with
      | .out d => blit s.datasize.toNat (s.dataBytes d) s.usbdControlBuffer
      | _ => s.usbdControlBuffer
    dfu := s.dfu.newPoll }

end State

/-- From `s` to `t` the registered callback ran, in a status stage. -/
structure Completed (c : Device) (s : State) (e : Event) (t : State) : Prop where
  stage : StatusStage s e
  registered : s.usbCompleteCb.isSome
  dfu : t.dfu = usbdfuGetstatusComplete c s.dfu.newPoll
  cb : t.usbCompleteCb = none ∨ t.usbCompleteCb = s.usbCompleteCb ∧ t.usbReq = s.usbReq
  idle : t.usbFsmState = .idle

/-- From `s` to `t` the DFU layer was not involved. -/
structure Quiet (s t : State) : Prop where
  dfu : t.dfu = s.dfu.newPoll
  cb : t.usbCompleteCb = none ∨ t.usbCompleteCb = s.usbCompleteCb ∧ t.usbReq = s.usbReq

section Outcome

variable (c : Device) (s : State)

theorem setupRead_outcome (t : State) (hd : t.dfu = s.dfu.newPoll) (hc : t.usbCompleteCb = none) :
    Quiet s (t.usbControlSetupRead c) ∨
      ∃ r, Requested c s (t.usbControlSetupRead c) r t.dfuIo := by
  by_cases h : t.usbReq.isDfu
  · have hq := State.readDispatch_of_dfu c h
    cases hr : DfuReq.ofByte t.usbReq.bRequest with
    | none =>
      left
      rw [hr] at hq
      rw [State.setupRead_of_refused c (by rw [hq]; rfl), hq, controlRequest_of_none c t.dfuIo hr]
      exact ⟨hd, .inl hc⟩
    | some r =>
      right
      rw [hr] at hq
      have htaken : (t.readDispatch c).1 ≠ .notsupp := by
        rw [hq]
        simp
      obtain ⟨hdfu, hcb, hreq, hans⟩ := State.setupRead_of_taken c htaken
      rw [hq] at hdfu hcb hreq
      have hreq' : (t.usbControlSetupRead c).usbReq = t.usbReq := hreq
      refine ⟨r, ?_, ?_, ?_, hd, ?_, ?_, hans, .inl hc⟩
      · rwa [hreq']
      · rwa [hreq']
      · rw [hreq']
        rfl
      · rw [hreq']
        exact hdfu
      · rw [hreq']
        exact hcb
  · left
    have hf := State.readDispatch_frame c h
    by_cases hn : (t.readDispatch c).1 = .notsupp
    · rw [State.setupRead_of_refused c hn]
      exact ⟨hf.dfu.trans hd, .inl (hf.usbCompleteCb.trans hc)⟩
    · obtain ⟨hdfu, hcb, -, -⟩ := State.setupRead_of_taken c hn
      exact ⟨(hdfu.trans hf.dfu).trans hd, .inl ((hcb.trans hf.usbCompleteCb).trans hc)⟩

theorem State.dispatch_usbReq (t : State) :
    (State.usbControlRequestDispatch c t).2.usbReq = t.usbReq := by
  by_cases h : t.usbReq.isDfu
  · rw [State.dispatch_of_dfu c h]
    rfl
  · rw [State.dispatch_of_not_dfu c h]
    exact (State.standardRequest_frame c t).usbReq

theorem setupRead_usbReq (t : State) : (t.usbControlSetupRead c).usbReq = t.usbReq := by
  have hq : (t.readDispatch c).2.usbReq = t.usbReq :=
    State.dispatch_usbReq c { t with dataoff := 0#16 }
  by_cases hn : (t.readDispatch c).1 = .notsupp
  · rw [State.setupRead_of_refused c hn]
    exact hq
  · rw [(State.setupRead_of_taken c hn).2.2.1]
    exact hq

theorem setup_outcome (d : List Byte) :
    Quiet s (step c s (.setup d)) ∨
      ∃ r, Requested c s (step c s (.setup d)) r (s.ioOf (.setup d)) ∧
        s.Dispatches (.setup d) := by
  rw [step_setup_eq c s d]
  split
  · exact .inl ⟨rfl, .inl rfl⟩
  · rename_i hlen
    split
    · rename_i hread
      rcases setupRead_outcome c s (s.tookSetup d (s.usb.readSetup d)) rfl rfl with hq | ⟨r, hr⟩
      · exact .inl ⟨hq.dfu, hq.cb⟩
      · exact .inr ⟨r, ⟨hr.isDfu, hr.code, hr.len, hr.before, hr.dfu, hr.cb, hr.answering,
          hr.kept⟩, not_not.mp hlen, hread⟩
    · left
      unfold State.usbControlSetupWrite
      split <;> exact ⟨rfl, .inl rfl⟩

theorem State.complete_dfu {t : State} (h : t.usbCompleteCb.isSome) :
    (State.complete c t).dfu = usbdfuGetstatusComplete c t.dfu := by
  unfold State.complete
  cases hc : t.usbCompleteCb with
  | none => simp [hc] at h
  | some f => rfl

theorem State.complete_of_none {t : State} (h : t.usbCompleteCb = none) :
    State.complete c t = t := by
  unfold State.complete
  rw [h]

theorem State.complete_fields (t : State) :
    (State.complete c t).usbCompleteCb = t.usbCompleteCb ∧
      (State.complete c t).usbReq = t.usbReq ∧
      (State.complete c t).usbFsmState = t.usbFsmState ∧ (State.complete c t).out = t.out := by
  unfold State.complete
  split <;> exact ⟨rfl, rfl, rfl, rfl⟩

theorem State.latchAddress_fields (t : State) :
    t.latchAddress.dfu = t.dfu ∧ t.latchAddress.usbCompleteCb = t.usbCompleteCb ∧
      t.latchAddress.usbReq = t.usbReq := by
  unfold State.latchAddress
  split <;> exact ⟨rfl, rfl, rfl⟩

/-- `t` is `s` as the handler of the event `e` finds it. -/
structure Entering (s t : State) : Prop where
  dfu : t.dfu = s.dfu.newPoll
  usbCompleteCb : t.usbCompleteCb = s.usbCompleteCb
  usbReq : t.usbReq = s.usbReq
  usbFsmState : t.usbFsmState = s.usbFsmState

theorem complete_outcome {e : Event} (hs : StatusStage s e) (t u : State)
    (htd : t.dfu = s.dfu.newPoll) (htc : t.usbCompleteCb = s.usbCompleteCb)
    (hd : u.dfu = (State.complete c t).dfu) (hi : u.usbFsmState = .idle)
    (hcb : u.usbCompleteCb = none ∨
      u.usbCompleteCb = s.usbCompleteCb ∧ u.usbReq = s.usbReq) :
    Quiet s u ∨ Completed c s e u := by
  cases hc : s.usbCompleteCb with
  | none =>
    have hnone : State.complete c t = t := State.complete_of_none c (htc.trans hc)
    exact .inl ⟨by rw [hd, hnone, htd], hcb⟩
  | some f =>
    have hsome : t.usbCompleteCb.isSome := by rw [htc, hc]; rfl
    refine .inr ⟨hs, by rw [hc]; rfl, ?_, hcb, hi⟩
    rw [hd, State.complete_dfu c hsome, htd]

theorem controlIn_outcome {t : State} (ht : Entering s t) :
    Quiet s (t.usbdControlIn c) ∨ Completed c s .inComplete (t.usbdControlIn c) := by
  have hquiet : ∀ u : State, u.dfu = t.dfu → u.usbCompleteCb = t.usbCompleteCb →
      u.usbReq = t.usbReq → Quiet s u := fun u hd hc hr =>
    ⟨hd.trans ht.dfu, .inr ⟨hc.trans ht.usbCompleteCb, hr.trans ht.usbReq⟩⟩
  unfold State.usbdControlIn
  cases hf : t.usbFsmState with
  | dataIn =>
    exact .inl (hquiet _ (State.sendChunk_dfu t) (State.sendChunk_usbCompleteCb t)
      (State.sendChunk_usbReq t))
  | statusIn =>
    obtain ⟨hd, hc, hr⟩ := State.latchAddress_fields (State.complete c t)
    obtain ⟨hc', hr', -⟩ := State.complete_fields c t
    have hstage : StatusStage s .inComplete := ht.usbFsmState.symm.trans hf
    refine complete_outcome c s hstage t _ ht.dfu ht.usbCompleteCb hd rfl (.inr ⟨?_, ?_⟩)
    · exact hc.trans (hc'.trans ht.usbCompleteCb)
    · exact hr.trans (hr'.trans ht.usbReq)
  | _ => exact .inl (hquiet _ rfl rfl rfl)

theorem in_outcome :
    Quiet s (step c s .inComplete) ∨ Completed c s .inComplete (step c s .inComplete) := by
  rw [step_inComplete]
  have ht : Entering s ((s.raise .inComplete).mapUsb (Usb.clrEpTxCtr 0)) := ⟨rfl, rfl, rfl, rfl⟩
  rcases controlIn_outcome c s ht with h | h
  · exact .inl ⟨h.dfu, h.cb⟩
  · exact .inr ⟨h.stage, h.registered, h.dfu, h.cb, h.idle⟩

theorem lastDataOut_outcome {t : State} (ht : Entering s t) :
    let q : UsbdRequestReturnCodes × State := t.usbControlRequestDispatch c
    let u := if q.1 ≠ .notsupp then
        { q.2.usbdEpWritePacket 0#8 [] with usbFsmState := .statusIn }
      else q.2.stallTransaction
    Quiet s u ∨ ∃ r, Requested c s u r t.dfuIo := by
  by_cases h : t.usbReq.isDfu
  · rw [State.dispatch_of_dfu c h]
    cases hr : DfuReq.ofByte t.usbReq.bRequest with
    | none =>
      left
      rw [controlRequest_of_none c t.dfuIo hr]
      exact ⟨ht.dfu, .inr ⟨ht.usbCompleteCb, ht.usbReq⟩⟩
    | some r =>
      exact .inr ⟨r, h, hr, rfl, ht.dfu, rfl, rfl, .inr (.inr rfl),
        .inr ⟨ht.usbCompleteCb, ht.usbReq⟩⟩
  · left
    rw [State.dispatch_of_not_dfu c h]
    have hf := State.standardRequest_frame c t
    have hcb := hf.usbCompleteCb.trans ht.usbCompleteCb
    have hreq := hf.usbReq.trans ht.usbReq
    dsimp only
    split
    · exact ⟨hf.dfu.trans ht.dfu, .inr ⟨hcb, hreq⟩⟩
    · exact ⟨hf.dfu.trans ht.dfu, .inr ⟨hcb, hreq⟩⟩

/-- Stage 2 when `usb_control_recv_chunk` has read the packet `d`. -/
def State.tookData (d : List Byte) (u : Usb) : State :=
  { s.raise (.out d) with
    usb := u
    usbdControlBuffer := blit s.datasize.toNat (s.dataBytes d) s.usbdControlBuffer }

theorem step_out_dataOut_eq (d : List Byte) (hf : s.usbFsmState = .dataOut) :
    step c s (.out d) =
      (if s.packetsize.toNat ≤ d.length % 1024 then
        { s.tookData d (s.usb.readData d s.packetsize) with
          datasize := s.datasize + s.packetsize
          usbFsmState :=
            if (s.usbReq.wLength.toNat - (s.datasize + s.packetsize).toNat : ℤ) ≤
              bMaxPacketSize0 then .lastDataOut else .dataOut }
      else (s.tookData d (s.usb.readData d s.packetsize)).stallTransaction).mapUsb
        (State.acknowledge (usbIstrCtr ||| usbIstrDir)) := by
  rw [step_out]
  apply congrArg
  have hf' : (s.raise (.out d)).usbFsmState = .dataOut := hf
  rw [State.usbdControlOut, hf']
  dsimp only
  rw [s.recvChunk_raise_eq d]
  by_cases h : s.packetsize.toNat ≤ d.length % 1024
  · rw [if_pos h, if_pos h]
    by_cases hl : (s.usbReq.wLength.toNat - (s.datasize + s.packetsize).toNat : ℤ) ≤
        bMaxPacketSize0
    · rw [if_pos hl]
      exact if_pos hl
    · rw [if_neg hl, ← hf]
      exact if_neg hl
  · rw [if_neg h, if_neg h]
    rfl

theorem step_out_lastDataOut_eq (d : List Byte) (hf : s.usbFsmState = .lastDataOut) :
    step c s (.out d) =
      (if s.packetsize.toNat ≤ d.length % 1024 then
        let q : UsbdRequestReturnCodes × State := State.usbControlRequestDispatch c
          { s.tookData d (s.usb.readData d s.packetsize) with
            datasize := s.datasize + s.packetsize }
        if q.1 ≠ .notsupp then
          { q.2.usbdEpWritePacket 0#8 [] with usbFsmState := .statusIn }
        else q.2.stallTransaction
      else (s.tookData d (s.usb.readData d s.packetsize)).stallTransaction).mapUsb
        (State.acknowledge (usbIstrCtr ||| usbIstrDir)) := by
  rw [step_out]
  apply congrArg
  have hf' : (s.raise (.out d)).usbFsmState = .lastDataOut := hf
  rw [State.usbdControlOut, hf']
  dsimp only
  rw [s.recvChunk_raise_eq d]
  by_cases h : s.packetsize.toNat ≤ d.length % 1024
  · rw [if_pos h, if_pos h]
    rfl
  · rw [if_neg h, if_neg h]
    rfl

theorem step_out_statusOut_eq (d : List Byte) (hf : s.usbFsmState = .statusOut) :
    step c s (.out d) =
      State.mapUsb (State.acknowledge (usbIstrCtr ||| usbIstrDir))
        { State.complete c
            { s.raise (.out d) with usb := s.usb.readData d 0#16, usbFsmState := .idle } with
          usbCompleteCb := none } := by
  have hf' : (s.raise (.out d)).usbFsmState = .statusOut := hf
  rw [step_out, State.usbdControlOut, hf']
  rfl

theorem step_out_other (d : List Byte)
    (hf : s.usbFsmState ≠ .dataOut ∧ s.usbFsmState ≠ .lastDataOut ∧ s.usbFsmState ≠ .statusOut) :
    step c s (.out d) =
      (s.raise (.out d)).stallTransaction.mapUsb
        (State.acknowledge (usbIstrCtr ||| usbIstrDir)) := by
  have hf' : (s.raise (.out d)).usbFsmState = s.usbFsmState := rfl
  rw [step_out, State.usbdControlOut, hf']
  split
  · exact absurd ‹_› hf.1
  · exact absurd ‹_› hf.2.1
  · exact absurd ‹_› hf.2.2
  · rfl

theorem out_outcome (d : List Byte) :
    Quiet s (step c s (.out d)) ∨
      (∃ r, Requested c s (step c s (.out d)) r (s.ioOf (.out d)) ∧ s.Dispatches (.out d)) ∨
      Completed c s (.out d) (step c s (.out d)) := by
  have hquiet : ∀ u : State, u.dfu = s.dfu.newPoll → u.usbCompleteCb = s.usbCompleteCb →
      u.usbReq = s.usbReq → Quiet s u := fun u hd hc hr => ⟨hd, .inr ⟨hc, hr⟩⟩
  by_cases hd : s.usbFsmState = .dataOut
  · rw [step_out_dataOut_eq c s d hd]
    split <;> exact .inl (hquiet _ rfl rfl rfl)
  by_cases hl : s.usbFsmState = .lastDataOut
  · rw [step_out_lastDataOut_eq c s d hl]
    split
    · rename_i hfit
      have ht : Entering s { s.tookData d (s.usb.readData d s.packetsize) with
          datasize := s.datasize + s.packetsize } := ⟨rfl, rfl, rfl, rfl⟩
      rcases lastDataOut_outcome c s ht with hq | ⟨r, hr⟩
      · exact .inl ⟨hq.dfu, hq.cb⟩
      · exact .inr (.inl ⟨r, ⟨hr.isDfu, hr.code, hr.len, hr.before, hr.dfu, hr.cb, hr.answering,
          hr.kept⟩, hl, hfit⟩)
    · exact .inl (hquiet _ rfl rfl rfl)
  by_cases hs : s.usbFsmState = .statusOut
  · rw [step_out_statusOut_eq c s d hs]
    have hstage : StatusStage s (.out d) := hs
    let t : State := { s.raise (.out d) with usb := s.usb.readData d 0#16, usbFsmState := .idle }
    have hidle : (State.complete c t).usbFsmState = .idle := (State.complete_fields c t).2.2.1
    have hout := complete_outcome c s hstage t { State.complete c t with usbCompleteCb := none }
      rfl rfl rfl hidle (.inl rfl)
    rcases hout with h | h
    · exact .inl ⟨h.dfu, h.cb⟩
    · exact .inr (.inr ⟨h.stage, h.registered, h.dfu, h.cb, h.idle⟩)
  · rw [step_out_other c s d ⟨hd, hl, hs⟩]
    exact .inl (hquiet _ rfl rfl rfl)

theorem step_out_fsm (d : List Byte) :
    (step c s (.out d)).usbFsmState = .idle ∨
      s.usbFsmState = .dataOut ∧ ((step c s (.out d)).usbFsmState = .dataOut ∨
        (step c s (.out d)).usbFsmState = .lastDataOut) ∨
      s.usbFsmState = .lastDataOut ∧ (step c s (.out d)).usbFsmState = .statusIn := by
  by_cases hd : s.usbFsmState = .dataOut
  · rw [step_out_dataOut_eq c s d hd]
    split
    · refine .inr (.inl ⟨hd, ?_⟩)
      by_cases hlast : (s.usbReq.wLength.toNat - (s.datasize + s.packetsize).toNat : ℤ) ≤
          bMaxPacketSize0
      · exact .inr (if_pos hlast)
      · exact .inl (if_neg hlast)
    · exact .inl rfl
  by_cases hl : s.usbFsmState = .lastDataOut
  · rw [step_out_lastDataOut_eq c s d hl]
    split
    · dsimp only
      split
      · exact .inr (.inr ⟨hl, rfl⟩)
      · exact .inl rfl
    · exact .inl rfl
  by_cases hs : s.usbFsmState = .statusOut
  · rw [step_out_statusOut_eq c s d hs]
    exact .inl (State.complete_fields c
      { s.raise (.out d) with usb := s.usb.readData d 0#16, usbFsmState := .idle }).2.2.1
  · rw [step_out_other c s d ⟨hd, hl, hs⟩]
    exact .inl rfl

theorem controlIn_fsm (t : State) :
    (t.usbdControlIn c).usbFsmState = .idle ∨
      t.usbFsmState = .dataIn ∧ ((t.usbdControlIn c).usbFsmState = .dataIn ∨
        (t.usbdControlIn c).usbFsmState = .lastDataIn) ∨
      t.usbFsmState = .lastDataIn ∧ (t.usbdControlIn c).usbFsmState = .statusOut := by
  unfold State.usbdControlIn
  cases t.usbFsmState with
  | dataIn => exact .inr (.inl ⟨rfl, State.sendChunk_usbFsmState t⟩)
  | lastDataIn => exact .inr (.inr ⟨rfl, rfl⟩)
  | _ => exact .inl rfl

theorem step_in_fsm :
    (step c s .inComplete).usbFsmState = .idle ∨
      s.usbFsmState = .dataIn ∧ ((step c s .inComplete).usbFsmState = .dataIn ∨
        (step c s .inComplete).usbFsmState = .lastDataIn) ∨
      s.usbFsmState = .lastDataIn ∧ (step c s .inComplete).usbFsmState = .statusOut := by
  rw [step_inComplete]
  exact controlIn_fsm c ((s.raise .inComplete).mapUsb (Usb.clrEpTxCtr 0))

theorem step_usbReq (e : Event) : (step c s e).usbReq = s.requestOf e := by
  cases e with
  | reset =>
    rw [step_reset]
    rfl
  | setup d =>
    rw [step_setup_eq c s d]
    split
    · rfl
    · split
      · exact setupRead_usbReq c (s.tookSetup d (s.usb.readSetup d))
      · unfold State.usbControlSetupWrite
        split <;> rfl
  | out d =>
    by_cases hd : s.usbFsmState = .dataOut
    · rw [step_out_dataOut_eq c s d hd]
      split <;> rfl
    by_cases hl : s.usbFsmState = .lastDataOut
    · rw [step_out_lastDataOut_eq c s d hl]
      split
      · have hq := State.dispatch_usbReq c
          { s.tookData d (s.usb.readData d s.packetsize) with
            datasize := s.datasize + s.packetsize }
        dsimp only
        split <;> exact hq
      · rfl
    by_cases hs : s.usbFsmState = .statusOut
    · rw [step_out_statusOut_eq c s d hs]
      exact (State.complete_fields c
        { s.raise (.out d) with usb := s.usb.readData d 0#16, usbFsmState := .idle }).2.1
    · rw [step_out_other c s d ⟨hd, hl, hs⟩]
      rfl
  | inComplete =>
    let t := (s.raise .inComplete).mapUsb (Usb.clrEpTxCtr 0)
    have hin : (t.usbdControlIn c).usbReq = s.usbReq := by
      unfold State.usbdControlIn
      split
      · exact State.sendChunk_usbReq t
      · rfl
      · exact ((State.latchAddress_fields (State.complete c t)).2.2).trans
          (State.complete_fields c t).2.1
      · rfl
    rw [step_inComplete]
    exact hin

/-- What a poll can do to the DFU layer. -/
theorem poll_cases (e : Event) :
    Quiet s (step c s e) ∨
      (∃ r, Requested c s (step c s e) r (s.ioOf e) ∧ s.Dispatches e) ∨
      Completed c s e (step c s e) := by
  cases e with
  | reset =>
    rw [step_reset]
    exact .inl ⟨rfl, .inr ⟨rfl, rfl⟩⟩
  | setup d =>
    rcases setup_outcome c s d with h | h
    · exact .inl h
    · exact .inr (.inl h)
  | out d => exact out_outcome c s d
  | inComplete =>
    rcases in_outcome c s with h | h
    · exact .inl h
    · exact .inr (.inr h)

end Outcome

end Swindle
