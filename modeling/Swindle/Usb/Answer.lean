import Swindle.Usb.Poll

/-! What the device puts on the bus: the packets of one poll, and the answer to a DFU
request that fits in one packet. -/
namespace Swindle
open Machine

namespace State

section Packets

variable (s : State)

/-- How much of the answer the next chunk carries. -/
def chunkLen : BitVec 16 :=
  if BitVec.ofNat 16 bMaxPacketSize0 < s.datasize then BitVec.ofNat 16 bMaxPacketSize0
  else s.datasize

theorem sendChunk_out : s.usbControlSendChunk.out = (s.writeChunk s.chunkLen).out := by
  by_cases h : BitVec.ofNat 16 bMaxPacketSize0 < s.datasize
  · rw [sendChunk_of_lt h, chunkLen, if_pos h]
  · rw [sendChunk_of_not_lt h, chunkLen, if_neg h]

theorem writeChunk_out (len : BitVec 16) :
    (s.writeChunk len).out =
      if s.usb.txBusy 0#8 then .chunk s.dataoff len :: s.out
      else .tx (slice s.usbdControlBuffer s.dataoff.toNat len.toNat) :: .chunk s.dataoff len ::
        s.out := rfl

theorem tx_of_writeChunk {s : State} {len : BitVec 16} {data : List Byte}
    (h : .tx data ∈ (s.writeChunk len).out) :
    data = slice s.usbdControlBuffer s.dataoff.toNat len.toNat ∨ .tx data ∈ s.out := by
  rw [writeChunk_out] at h
  split at h
  · exact .inr (by simpa using h)
  · simpa using h

theorem tx_of_writePacket {s : State} {addr : Byte} {data data' : List Byte}
    (h : .tx data ∈ (s.usbdEpWritePacket addr data').out) : data = data' ∨ .tx data ∈ s.out := by
  have hout : (s.usbdEpWritePacket addr data').out =
      if s.usb.txBusy addr then s.out else .tx data' :: s.out := rfl
  rw [hout] at h
  split at h
  · exact .inr h
  · simpa using h

end Packets

section Dispatch

variable (c : Device) (s : State)

theorem dispatch_out : (usbControlRequestDispatch c s).2.out = s.out ∧
    (usbControlRequestDispatch c s).2.dataoff = s.dataoff := by
  by_cases h : s.usbReq.isDfu
  · rw [dispatch_of_dfu c h]
    exact ⟨rfl, rfl⟩
  · rw [dispatch_of_not_dfu c h]
    exact ⟨(standardRequest_frame c s).out, (standardRequest_frame c s).dataoff⟩

theorem tx_of_setupRead {data : List Byte} (hs : s.out = [])
    (h : .tx data ∈ (s.usbControlSetupRead c).out) :
    ∃ n, data = slice (s.readDispatch c).2.usbdControlBuffer 0 n := by
  obtain ⟨hout, hoff⟩ := dispatch_out c { s with dataoff := 0#16 }
  have hout' : (s.readDispatch c).2.out = [] := hout.trans hs
  rw [setupRead_eq] at h
  split at h
  · have hstall : (s.readDispatch c).2.stallTransaction.out = .stall :: (s.readDispatch c).2.out :=
      rfl
    rw [hstall, hout'] at h
    simp at h
  · split at h
    · rw [sendChunk_out] at h
      rcases tx_of_writeChunk h with hd | hd
      · have hz : (readyToSend (s.readDispatch c).2 s.usbReq.wLength).dataoff = 0#16 := hoff
        rw [hz] at hd
        exact ⟨_, hd⟩
      · have hd' : .tx data ∈ (s.readDispatch c).2.out := hd
        rw [hout'] at hd'
        cases hd'
    · rcases tx_of_writePacket h with hd | hd
      · exact ⟨0, hd⟩
      · have hd' : .tx data ∈ (s.readDispatch c).2.out := hd
        rw [hout'] at hd'
        cases hd'

theorem cut_toNat (len wLength : BitVec 16) :
    (if wLength < len then wLength else len).toNat = min len.toNat wLength.toNat := by
  split
  · rename_i h
    rw [BitVec.lt_def] at h
    omega
  · rename_i h
    rw [BitVec.lt_def] at h
    omega

/-- How many bytes a DFU request's answer has on the bus. -/
def answerLen (io : DfuIo) (wLength : BitVec 16) : BitVec 16 :=
  if wLength < io.len then wLength else io.len

theorem answerLen_le (io : DfuIo) (wLength : BitVec 16) :
    (answerLen io wLength).toNat ≤ io.len.toNat := by
  rw [answerLen, cut_toNat]
  exact Nat.min_le_left _ _

theorem setupRead_short {s : State} (h : s.usbReq.isDfu)
    (hr : (DfuReq.ofByte s.usbReq.bRequest).isSome) (hw : s.usbReq.wLength ≠ 0#16)
    (hl : (usbdfuControlRequest c s.usbReq s.dfuIo).2.len.toNat < bMaxPacketSize0) :
    let io := (usbdfuControlRequest c s.usbReq s.dfuIo).2
    s.usbControlSetupRead c =
      { ({ s with dataoff := 0#16 }.withIo io).writeChunk (answerLen io s.usbReq.wLength) with
        usbFsmState := .lastDataIn
        usbNeedsZlp := false
        datasize := 0#16 } := by
  intro io
  have hq : s.readDispatch c = (.handled, { s with dataoff := 0#16 }.withIo io) := by
    rw [readDispatch_of_dfu c h, if_pos hr]
  have hle : (answerLen io s.usbReq.wLength).toNat < 64 :=
    Nat.lt_of_le_of_lt (answerLen_le io s.usbReq.wLength) hl
  have hnot : ¬BitVec.ofNat 16 bMaxPacketSize0 < answerLen io s.usbReq.wLength := by
    have h64 : (BitVec.ofNat 16 bMaxPacketSize0).toNat = 64 := rfl
    rw [BitVec.lt_def, h64]
    omega
  have hzlp : needsZlp (answerLen io s.usbReq.wLength) s.usbReq.wLength bMaxPacketSize0 =
      false := by
    have hmod : (answerLen io s.usbReq.wLength).toNat % 64 =
        (answerLen io s.usbReq.wLength).toNat := Nat.mod_eq_of_lt hle
    by_cases hz : answerLen io s.usbReq.wLength = 0#16
    · simp [needsZlp, hz]
    · have hz' : (answerLen io s.usbReq.wLength).toNat ≠ 0 := fun h0 =>
        hz (BitVec.eq_of_toNat_eq h0)
      simp [needsZlp, bMaxPacketSize0, hmod, hz']
  have hready : (readyToSend (s.readDispatch c).2 s.usbReq.wLength).usbNeedsZlp = false := by
    rw [hq]
    exact hzlp
  have hsize : ¬BitVec.ofNat 16 bMaxPacketSize0 <
      (readyToSend (s.readDispatch c).2 s.usbReq.wLength).datasize := by
    rw [hq]
    exact hnot
  rw [setupRead_eq, if_neg (by rw [hq]; simp), if_pos hw, sendChunk_of_not_lt hsize, hready, hq]
  rfl

end Dispatch

end State

section Steps

variable (c : Device) (s : State)

theorem mem_step_out {d : List Byte} {a : UsbAct} (h : a ∈ (step c s (.out d)).out) :
    a = .stall ∨ a = .tx [] := by
  have hstall : a ∈ [UsbAct.stall] → a = .stall ∨ a = .tx [] := fun h =>
    .inl (List.mem_singleton.mp h)
  by_cases hd : s.usbFsmState = .dataOut
  · rw [step_out_dataOut_eq c s d hd] at h
    split at h
    · cases h
    · exact hstall h
  by_cases hl : s.usbFsmState = .lastDataOut
  · rw [step_out_lastDataOut_eq c s d hl] at h
    split at h
    · let t : State := { s.tookData d (s.usb.readData d s.packetsize) with
        datasize := s.datasize + s.packetsize }
      have hout : (State.usbControlRequestDispatch c t).2.out = [] := (State.dispatch_out c t).1
      dsimp only at h
      split at h
      · have h' : a ∈ (if _ then (State.usbControlRequestDispatch c t).2.out else
          .tx [] :: (State.usbControlRequestDispatch c t).2.out) := h
        rw [hout] at h'
        split at h'
        · cases h'
        · exact .inr (List.mem_singleton.mp h')
      · have h' : a ∈ .stall :: (State.usbControlRequestDispatch c t).2.out := h
        rw [hout] at h'
        exact hstall h'
    · exact hstall h
  by_cases hs : s.usbFsmState = .statusOut
  · have hout := (State.complete_fields c
      { s.raise (.out d) with usb := s.usb.readData d 0#16, usbFsmState := .idle }).2.2.2
    rw [step_out_statusOut_eq c s d hs] at h
    have h' : a ∈ (State.complete c
      { s.raise (.out d) with usb := s.usb.readData d 0#16, usbFsmState := .idle }).out := h
    rw [hout] at h'
    cases h'
  · rw [step_out_other c s d ⟨hd, hl, hs⟩] at h
    exact hstall h

theorem mem_step_in {a : UsbAct} (hf : s.usbFsmState ≠ .dataIn)
    (h : a ∈ (step c s .inComplete).out) : a = .stall ∨ ∃ v, a = .daddr v := by
  rw [step_inComplete] at h
  have hf' : ((s.raise .inComplete).mapUsb (Usb.clrEpTxCtr 0)).usbFsmState = s.usbFsmState := rfl
  have h' : a ∈ (((s.raise .inComplete).mapUsb (Usb.clrEpTxCtr 0)).usbdControlIn c).out := h
  unfold State.usbdControlIn at h'
  rw [hf'] at h'
  cases hs : s.usbFsmState with
  | dataIn => exact absurd hs hf
  | lastDataIn =>
    rw [hs] at h'
    cases h'
  | statusIn =>
    rw [hs] at h'
    have hout := (State.complete_fields c
      ((s.raise .inComplete).mapUsb (Usb.clrEpTxCtr 0))).2.2.2
    have h'' : a ∈ (State.complete c
      ((s.raise .inComplete).mapUsb (Usb.clrEpTxCtr 0))).latchAddress.out := h'
    unfold State.latchAddress at h''
    split at h''
    · have hmem : a ∈ (.daddr _ :: (State.complete c
        ((s.raise .inComplete).mapUsb (Usb.clrEpTxCtr 0))).out) := h''
      rw [hout] at hmem
      rcases List.mem_cons.mp hmem with hmem | hmem
      · exact .inr ⟨_, hmem⟩
      · cases hmem
    · rw [hout] at h''
      cases h''
  | _ =>
    rw [hs] at h'
    have h'' : a ∈ [UsbAct.stall] := h'
    exact .inl (List.mem_singleton.mp h'')

/-- Where a packet on the bus can come from: a zero-length one, the front of the buffer after
a SETUP, or the next chunk of an answer. -/
theorem tx_cases {e : Event} {data : List Byte} (h : .tx data ∈ (step c s e).out) :
    data = [] ∨
      (∃ d u, e = .setup d ∧
        step c s e = ((s.tookSetup d u).usbControlSetupRead c).mapUsb
          (State.acknowledge (usbIstrCtr ||| usbIstrDir)) ∧
        ∃ n, data = slice ((s.tookSetup d u).readDispatch c).2.usbdControlBuffer 0 n) ∨
      e = .inComplete ∧ s.usbFsmState = .dataIn := by
  cases e with
  | reset =>
    rw [step_reset] at h
    have h' : UsbAct.tx data ∈ [UsbAct.daddr usbDaddrEf] := h
    simp at h'
  | out d =>
    rcases mem_step_out c s h with h | h
    · cases h
    · exact .inl (UsbAct.tx.inj h)
  | inComplete =>
    refine .inr (.inr ⟨rfl, ?_⟩)
    by_contra hf
    rcases mem_step_in c s hf h with h | ⟨v, h⟩ <;> cases h
  | setup d =>
    rw [step_setup_eq c s d] at h ⊢
    split at h
    · have h' : UsbAct.tx data ∈ [UsbAct.stall] := h
      simp at h'
    · split at h
      · rename_i hlen hread
        let u := s.usb.readSetup d
        refine .inr (.inl ⟨d, u, rfl, ?_, (s.tookSetup d u).tx_of_setupRead c rfl h⟩)
        rw [if_neg hlen, if_pos hread]
      · have h' : UsbAct.tx data ∈
            (s.tookSetup d (s.usb.readSetup d)).usbControlSetupWrite.out := h
        unfold State.usbControlSetupWrite at h'
        split at h'
        · have h'' : UsbAct.tx data ∈ [UsbAct.stall] := h'
          simp at h''
        · cases h'

end Steps

def UsbSetupData.Asks (req : UsbSetupData) (r : DfuReq) : Prop :=
  req.isDfu ∧ DfuReq.ofByte req.bRequest = some r

instance (req : UsbSetupData) (r : DfuReq) : Decidable (req.Asks r) :=
  inferInstanceAs (Decidable (_ ∧ _))

section Report

variable (c : Device) (s : State)

theorem report_buffer {t : State} {r : DfuReq} (hr : t.usbReq.Asks r)
    (hq : r = .getstatus ∨ r = .getstate) :
    (t.readDispatch c).2.usbdControlBuffer (if r = .getstatus then 4 else 0) =
      (t.usbControlSetupRead c).dfu.usbdfuState.toByte := by
  have htaken : (t.readDispatch c).1 ≠ .notsupp := by
    rw [State.readDispatch_of_dfu c hr.1, hr.2]
    simp
  rw [(State.setupRead_of_taken c htaken).1, State.readDispatch_of_dfu c hr.1]
  have hbuf : ∀ i, ({ t with dataoff := 0#16 }.withIo
      (usbdfuControlRequest c t.usbReq t.dfuIo).2).usbdControlBuffer i =
        (usbdfuControlRequest c t.usbReq t.dfuIo).2.buf i := fun _ => rfl
  have hdfu : ({ t with dataoff := 0#16 }.withIo
      (usbdfuControlRequest c t.usbReq t.dfuIo).2).dfu =
        (usbdfuControlRequest c t.usbReq t.dfuIo).2.dfu := rfl
  rw [hbuf, hdfu, usbdfuControlRequest, hr.2]
  rcases hq with rfl | rfl <;> rfl

theorem report_state {e : Event} {data : List Byte} {r : DfuReq} {b : Byte}
    (htx : .tx data ∈ (step c s e).out)
    (hdata : ¬(s.usbFsmState = .dataIn ∧ s.usbReq.Asks r)) (hr : (step c s e).usbReq.Asks r)
    (hq : r = .getstatus ∨ r = .getstate)
    (hb : data[if r = .getstatus then 4 else 0]? = some b) :
    b = (step c s e).dfu.usbdfuState.toByte := by
  rcases tx_cases c s htx with rfl | ⟨d, u, rfl, hstep, n, rfl⟩ | ⟨rfl, hf⟩
  · cases hb
  · have hreq : (step c s (.setup d)).usbReq = (s.tookSetup d u).usbReq := by
      rw [hstep]
      exact setupRead_usbReq c _
    rw [hreq] at hr
    have hn : (if r = .getstatus then 4 else 0) < n := by
      by_contra hn
      rw [List.getElem?_eq_none (by rw [length_slice]; omega)] at hb
      cases hb
    rw [getElem?_slice _ _ _ hn, Nat.zero_add, report_buffer c hr hq] at hb
    rw [hstep]
    exact (Option.some.inj hb).symm
  · have hreq : (step c s .inComplete).usbReq = s.usbReq := by
      rw [step_inComplete]
      have hf' : ((s.raise .inComplete).mapUsb (Usb.clrEpTxCtr 0)).usbFsmState = .dataIn := hf
      rw [State.usbdControlIn, hf']
      exact State.sendChunk_usbReq _
    rw [hreq] at hr
    exact absurd ⟨hf, hr⟩ hdata

theorem setupRead_report {t : State} {r : DfuReq} (hr : t.usbReq.Asks r)
    (hq : r = .getstatus ∨ r = .getstate) : (t.usbControlSetupRead c).usbFsmState ≠ .dataIn := by
  have hsome : (DfuReq.ofByte t.usbReq.bRequest).isSome := by
    rw [hr.2]
    rfl
  by_cases hw : t.usbReq.wLength = 0#16
  · have htaken : (t.readDispatch c).1 ≠ .notsupp := by
      rw [State.readDispatch_of_dfu c hr.1, hr.2]
      simp
    rw [State.setupRead_eq, if_neg htaken, if_neg (not_not.mpr hw)]
    exact UsbFsmState.noConfusion
  · have hlen : (usbdfuControlRequest c t.usbReq t.dfuIo).2.len.toNat < bMaxPacketSize0 := by
      rw [usbdfuControlRequest, hr.2]
      rcases hq with rfl | rfl
      · exact show (6#16).toNat < 64 by decide
      · exact show (1#16).toNat < 64 by decide
    rw [State.setupRead_short c hr.1 hsome hw hlen]
    exact UsbFsmState.noConfusion

theorem step_out_not_dataIn (d : List Byte) : (step c s (.out d)).usbFsmState ≠ .dataIn := by
  intro hf
  rcases step_out_fsm c s d with h | ⟨-, h | h⟩ | ⟨-, h⟩ <;> cases h.symm.trans hf

theorem step_in_dataIn (h : (step c s .inComplete).usbFsmState = .dataIn) :
    s.usbFsmState = .dataIn := by
  rcases step_in_fsm c s with hf | ⟨hf, -⟩ | ⟨-, hf⟩
  · cases hf.symm.trans h
  · exact hf
  · cases hf.symm.trans h

theorem report_sent {e : Event} {r : DfuReq} (hq : r = .getstatus ∨ r = .getstate)
    (hs : ¬(s.usbFsmState = .dataIn ∧ s.usbReq.Asks r)) :
    ¬((step c s e).usbFsmState = .dataIn ∧ (step c s e).usbReq.Asks r) := by
  rintro ⟨hf, hr⟩
  cases e with
  | reset =>
    rw [step_reset] at hf hr
    exact hs ⟨hf, hr⟩
  | out d => exact step_out_not_dataIn c s d hf
  | inComplete =>
    rw [step_usbReq] at hr
    exact hs ⟨step_in_dataIn c s hf, hr⟩
  | setup d =>
    let t := s.tookSetup d (s.usb.readSetup d)
    rw [step_setup_eq c s d] at hf hr
    split at hf
    · cases hf
    · split at hf
      · rename_i hlen hread
        rw [if_neg hlen, if_pos hread] at hr
        have hr' : t.usbReq.Asks r := by
          rw [← setupRead_usbReq c t]
          exact hr
        exact setupRead_report c hr' hq hf
      · have hf' : t.usbControlSetupWrite.usbFsmState = .dataIn := hf
        unfold State.usbControlSetupWrite at hf'
        split at hf'
        · cases hf'
        · dsimp only at hf'
          split at hf' <;> cases hf'

end Report

end Swindle
