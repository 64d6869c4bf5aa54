import Swindle.Usb.Answer

/-! The control transfers of a DFU host, and what a complete one does to the device. -/
namespace Swindle
open Machine

def setupPacket (bmRequestType bRequest : Byte) (wValue wIndex wLength : BitVec 16) : List Byte :=
  [bmRequestType, bRequest, leByte wValue 0, leByte wValue 1, leByte wIndex 0, leByte wIndex 1,
    leByte wLength 0, leByte wLength 1]

/-- DFU_DNLOAD of `data` with a block number, to the end of its status stage. -/
def dnload (blocknum : BitVec 16) (data : List Byte) : List Event :=
  .setup (setupPacket 0x21#8 1#8 blocknum 0#16 (BitVec.ofNat 16 data.length)) ::
    (blocks bMaxPacketSize0 data).map .out ++ [.inComplete]

/-- DFU_GETSTATUS, to the end of its status stage. -/
def getstatus : List Event :=
  [.setup (setupPacket 0xA1#8 3#8 0#16 0#16 6#16), .inComplete, .out []]

theorem leByte_append (v : BitVec 16) : leByte v 1 ++ leByte v 0 = v := by
  apply BitVec.eq_of_getLsbD_eq
  intro i hi
  rw [BitVec.getLsbD_append]
  by_cases h : i < 8
  · simp [leByte, h]
  · simp [leByte, h, show i - 8 < 8 by omega, show 8 + (i - 8) = i by omega]

theorem patch_setupPacket (r : UsbSetupData) (a b : Byte) (v i l : BitVec 16) :
    r.patch (setupPacket a b v i l) = ⟨a, b, v, i, l⟩ := by
  simp [UsbSetupData.patch, setupPacket, leByte_append]

theorem setupBytes_setupPacket (a b : Byte) (v i l : BitVec 16) :
    setupBytes (setupPacket a b v i l) = setupPacket a b v i l := setupBytes_eq rfl

/-- `t` is `s` at the point where the SETUP packet of `req` has been read. -/
structure Began (s t : State) (req : UsbSetupData) : Prop where
  ready : t.usb.txBusy 0#8 = false
  usbReq : t.usbReq = req
  usbCompleteCb : t.usbCompleteCb = none
  usbdControlBuffer : t.usbdControlBuffer = s.usbdControlBuffer
  dfu : t.dfu = s.dfu.newPoll
  out : t.out = []

section Setup

variable (c : Device) (s : State) {a b : Byte} {v i l : BitVec 16}

private theorem began_setupPacket :
    Began s (s.tookSetup (setupPacket a b v i l) (s.usb.readSetup (setupPacket a b v i l)))
      ⟨a, b, v, i, l⟩ := by
  refine ⟨s.usb.readSetup_ready _, ?_, rfl, rfl, rfl, rfl⟩
  rw [← patch_setupPacket s.usbReq, ← setupBytes_setupPacket]
  rfl

theorem step_setupPacket_read (h : l = 0#16 ∨ a &&& 0x80#8 ≠ 0#8) : ∃ t,
    Began s t ⟨a, b, v, i, l⟩ ∧ step c s (.setup (setupPacket a b v i l)) =
      (t.usbControlSetupRead c).mapUsb (State.acknowledge (usbIstrCtr ||| usbIstrDir)) := by
  refine ⟨_, began_setupPacket s, ?_⟩
  have hlen : ¬(setupPacket a b v i l).length ≠ 8 := by simp [setupPacket]
  rw [step_setup_eq, setupBytes_setupPacket, patch_setupPacket, if_neg hlen, if_pos h]

theorem step_setupPacket_write (h : ¬(l = 0#16 ∨ a &&& 0x80#8 ≠ 0#8)) : ∃ t,
    Began s t ⟨a, b, v, i, l⟩ ∧ step c s (.setup (setupPacket a b v i l)) =
      t.usbControlSetupWrite.mapUsb (State.acknowledge (usbIstrCtr ||| usbIstrDir)) := by
  refine ⟨_, began_setupPacket s, ?_⟩
  have hlen : ¬(setupPacket a b v i l).length ≠ 8 := by simp [setupPacket]
  rw [step_setup_eq, setupBytes_setupPacket, patch_setupPacket, if_neg hlen, if_neg h]

end Setup

section Getstatus

variable (c : Device) (s : State)

theorem step_getstatus :
    let answer := usbdfuGetstatus s.dfu.usbdfuState
    let t := step c s (.setup (setupPacket 0xA1#8 3#8 0#16 0#16 6#16))
    .tx (statusBytes answer.2.1 answer.2.2 answer.1) ∈ t.out ∧
      t.usbFsmState = .lastDataIn ∧ t.usbCompleteCb = some .usbdfuGetstatusComplete ∧
      t.dfu.newPoll = { s.dfu.newPoll with usbdfuState := answer.1 } := by
  intro answer t
  have hdir : 6#16 = 0#16 ∨ 0xA1#8 &&& 0x80#8 ≠ 0#8 := by decide
  obtain ⟨t₀, h₀, hstep⟩ : ∃ t₀, Began s t₀ ⟨0xA1#8, 3#8, 0#16, 0#16, 6#16⟩ ∧ t =
      (t₀.usbControlSetupRead c).mapUsb (State.acknowledge (usbIstrCtr ||| usbIstrDir)) :=
    step_setupPacket_read c s hdir
  have hio : usbdfuControlRequest c t₀.usbReq t₀.dfuIo = (.handled,
      { len := 6#16
        complete := some .usbdfuGetstatusComplete
        buf := blit 0 (statusBytes answer.2.1 answer.2.2 answer.1) s.usbdControlBuffer
        dfu := { s.dfu.newPoll with
          usbdfuState := answer.1
          log := [.request .getstatus 6#16] } }) := by
    rw [State.dfuIo, h₀.usbReq, h₀.usbCompleteCb, h₀.usbdControlBuffer, h₀.dfu]
    rfl
  have hdfu : t₀.usbReq.isDfu := by
    rw [h₀.usbReq]
    decide
  have hshort := State.setupRead_short c hdfu (by rw [h₀.usbReq]; rfl)
    (by rw [h₀.usbReq]; decide) (by rw [hio]; exact show (6#16).toNat < 64 by decide)
  rw [hstep, hshort, hio, h₀.usbReq]
  refine ⟨?_, rfl, rfl, rfl⟩
  have hslice : slice (blit 0 (statusBytes answer.2.1 answer.2.2 answer.1) s.usbdControlBuffer) 0
      6 = statusBytes answer.2.1 answer.2.2 answer.1 := slice_blit 0 _ _
  change _ ∈ (if t₀.usb.txBusy 0#8 then _ else _ :: _)
  rw [h₀.ready, if_neg (by decide)]
  rw [← hslice]
  exact List.mem_cons_self

theorem step_in_lastDataIn (hf : s.usbFsmState = .lastDataIn) :
    (step c s .inComplete).usbFsmState = .statusOut ∧
      (step c s .inComplete).usbCompleteCb = s.usbCompleteCb ∧
      (step c s .inComplete).dfu = s.dfu.newPoll := by
  have hf' : ((s.raise .inComplete).mapUsb (Usb.clrEpTxCtr 0)).usbFsmState = .lastDataIn := hf
  rw [step_inComplete, State.usbdControlIn, hf']
  exact ⟨rfl, rfl, rfl⟩

theorem step_in_statusIn (hf : s.usbFsmState = .statusIn) (hc : s.usbCompleteCb = none) :
    (step c s .inComplete).usbFsmState = .idle ∧
      (step c s .inComplete).dfu = s.dfu.newPoll := by
  have hf' : ((s.raise .inComplete).mapUsb (Usb.clrEpTxCtr 0)).usbFsmState = .statusIn := hf
  have hc' : ((s.raise .inComplete).mapUsb (Usb.clrEpTxCtr 0)).usbCompleteCb = none := hc
  rw [step_inComplete, State.usbdControlIn, hf', State.complete_of_none c hc']
  exact ⟨rfl, (State.latchAddress_fields _).1⟩

theorem step_out_callback (d : List Byte) (hf : s.usbFsmState = .statusOut)
    (hc : s.usbCompleteCb.isSome) :
    (step c s (.out d)).usbFsmState = .idle ∧
      (step c s (.out d)).dfu = usbdfuGetstatusComplete c s.dfu.newPoll := by
  let t : State := { s.raise (.out d) with usb := s.usb.readData d 0#16, usbFsmState := .idle }
  have hidle : (State.complete c t).usbFsmState = .idle := (State.complete_fields c t).2.2.1
  have hdfu : (State.complete c t).dfu = usbdfuGetstatusComplete c t.dfu :=
    State.complete_dfu c hc
  rw [step_out_statusOut_eq c s d hf]
  exact ⟨hidle, hdfu⟩

/-- A complete GET_STATUS moves the state on and runs the deferred operation. -/
theorem run_getstatus :
    (run (step c) s getstatus).usbFsmState = .idle ∧
      (run (step c) s getstatus).dfu = usbdfuGetstatusComplete c { s.dfu.newPoll with
        usbdfuState := (usbdfuGetstatus s.dfu.usbdfuState).1 } := by
  obtain ⟨-, hfsm, hcb, hdfu⟩ := step_getstatus c s
  let t := step c s (.setup (setupPacket 0xA1#8 3#8 0#16 0#16 6#16))
  obtain ⟨hf₁, hc₁, hd₁⟩ := step_in_lastDataIn c t hfsm
  have hsome : (step c t .inComplete).usbCompleteCb.isSome := by
    rw [hc₁, hcb]
    rfl
  obtain ⟨hf₂, hd₂⟩ := step_out_callback c _ [] hf₁ hsome
  refine ⟨hf₂, ?_⟩
  have hpoll : (step c t .inComplete).dfu.newPoll = t.dfu.newPoll := by
    rw [hd₁]
    rfl
  rw [hpoll, hdfu] at hd₂
  exact hd₂

end Getstatus

/-! A download: packets of 64 bytes, the last of them shorter, reach the buffer in order. -/

section Dnload

variable {c : Device} {s : State} {blocknum : BitVec 16} {data : List Byte}

theorem toNat_length (h4 : data.length ≤ dfuTransferSize) :
    (BitVec.ofNat 16 data.length).toNat = data.length := by
  have h4' : data.length ≤ 4096 := h4
  rw [BitVec.toNat_ofNat]
  omega

theorem length_ne_zero (h0 : 0 < data.length) (h4 : data.length ≤ dfuTransferSize) :
    BitVec.ofNat 16 data.length ≠ 0#16 := fun hz => by
  have hn := congrArg BitVec.toNat hz
  rw [toNat_length h4] at hn
  exact absurd hn (Nat.ne_of_gt h0)

def dnloadReq (blocknum : BitVec 16) (data : List Byte) : UsbSetupData :=
  ⟨0x21#8, 1#8, blocknum, 0#16, BitVec.ofNat 16 data.length⟩

/-- `t` has the first `i` packets of the download begun at `s`. -/
structure Receiving (s : State) (blocknum : BitVec 16) (data : List Byte) (i : ℕ) (t : State) :
    Prop where
  usbReq : t.usbReq = dnloadReq blocknum data
  usbCompleteCb : t.usbCompleteCb = none
  usbFsmState : t.usbFsmState = if data.length ≤ 64 * (i + 1) then .lastDataOut else .dataOut
  datasize : t.datasize = BitVec.ofNat 16 (64 * i)
  buffer : slice t.usbdControlBuffer 0 (64 * i) = data.take (64 * i)
  dfu : t.dfu.newPoll = s.dfu.newPoll

theorem receiving_zero (h0 : 0 < data.length) (h4 : data.length ≤ dfuTransferSize) :
    Receiving s blocknum data 0 (step c s
      (.setup (setupPacket 0x21#8 1#8 blocknum 0#16 (BitVec.ofNat 16 data.length)))) := by
  have hlen := toNat_length h4
  have hdir : ¬(BitVec.ofNat 16 data.length = 0#16 ∨ 0x21#8 &&& 0x80#8 ≠ 0#8) := by
    rintro (h | h)
    · exact length_ne_zero h0 h4 h
    · exact absurd h (by decide)
  obtain ⟨t, ht, hstep⟩ : ∃ t, Began s t (dnloadReq blocknum data) ∧ step c s
      (.setup (setupPacket 0x21#8 1#8 blocknum 0#16 (BitVec.ofNat 16 data.length))) =
        t.usbControlSetupWrite.mapUsb (State.acknowledge (usbIstrCtr ||| usbIstrDir)) :=
    step_setupPacket_write c s hdir
  have hfit : ¬BitVec.ofNat 16 dfuTransferSize < t.usbReq.wLength := by
    rw [ht.usbReq, dnloadReq, BitVec.lt_def, hlen]
    exact Nat.not_lt.mpr h4
  have hsmall : BitVec.ofNat 16 bMaxPacketSize0 < t.usbReq.wLength ↔ ¬data.length ≤ 64 := by
    rw [ht.usbReq, dnloadReq, BitVec.lt_def, hlen]
    exact Nat.not_le.symm
  rw [hstep, State.usbControlSetupWrite, if_neg hfit]
  refine ⟨ht.usbReq, ht.usbCompleteCb, ?_, rfl, rfl, ?_⟩
  · by_cases h : data.length ≤ 64
    · exact (if_neg (fun hl => hsmall.mp hl h)).trans (if_pos h).symm
    · exact (if_pos (hsmall.mpr h)).trans (if_neg h).symm
  · change t.dfu.newPoll = _
    rw [ht.dfu]
    rfl

theorem Receiving.packetsize {i : ℕ} {t : State} (h : Receiving s blocknum data i t)
    (hi : 64 * i < data.length) (h4 : data.length ≤ dfuTransferSize) :
    t.packetsize = BitVec.ofNat 16 (block 64 data i).length ∧
      t.packetsize.toNat = (block 64 data i).length ∧ (block 64 data i).length ≤ 64 := by
  have h4' : data.length ≤ 4096 := h4
  have hw : t.usbReq.wLength.toNat = data.length := by
    rw [h.usbReq, dnloadReq, BitVec.toNat_ofNat]
    omega
  have hd : t.datasize.toNat = 64 * i := by
    rw [h.datasize, BitVec.toNat_ofNat]
    omega
  have hl := length_block 64 data i
  have hp : t.packetsize = BitVec.ofNat 16 (block 64 data i).length := by
    have hint : (min bMaxPacketSize0 (t.usbReq.wLength.toNat - t.datasize.toNat : ℤ) : ℤ) =
        ((block 64 data i).length : ℕ) := by
      have h64 : (bMaxPacketSize0 : ℤ) = 64 := rfl
      rw [hw, hd, hl, h64]
      omega
    rw [State.packetsize, hint, BitVec.ofInt_natCast]
  refine ⟨hp, ?_, by omega⟩
  rw [hp, BitVec.toNat_ofNat]
  omega

theorem Receiving.tookData {i : ℕ} {t : State} (h : Receiving s blocknum data i t)
    (hi : 64 * i < data.length) (h4 : data.length ≤ dfuTransferSize) :
    t.packetsize.toNat ≤ (block 64 data i).length % 1024 ∧
      t.dataBytes (block 64 data i) = block 64 data i ∧
      slice (blit t.datasize.toNat (block 64 data i) t.usbdControlBuffer) 0
        (64 * i + (block 64 data i).length) = data.take (64 * (i + 1)) := by
  have h4' : data.length ≤ 4096 := h4
  obtain ⟨-, hp, hle⟩ := h.packetsize hi h4
  have hmod : (block 64 data i).length % 1024 = (block 64 data i).length := by omega
  have hd : t.datasize.toNat = 64 * i := by
    rw [h.datasize, BitVec.toNat_ofNat]
    omega
  refine ⟨by omega, ?_, ?_⟩
  · rw [State.dataBytes, hp, hmod, Nat.min_self, List.take_length]
  · rw [hd, slice_blit_append, h.buffer, take_append_block]

theorem Receiving.step {i : ℕ} {t : State} (h : Receiving s blocknum data i t)
    (hi : 64 * (i + 1) < data.length) (h4 : data.length ≤ dfuTransferSize) :
    Receiving s blocknum data (i + 1) (step c t (.out (block 64 data i))) := by
  have h4' : data.length ≤ 4096 := h4
  have hi' : 64 * i < data.length := by omega
  obtain ⟨hp, hpn, -⟩ := h.packetsize hi' h4
  obtain ⟨hfit, hbytes, hbuf⟩ := h.tookData hi' h4
  have hl : (block 64 data i).length = 64 := by
    rw [length_block]
    omega
  have hdata : t.usbFsmState = .dataOut := h.usbFsmState.trans (if_neg (by omega))
  have hsize : t.datasize + t.packetsize = BitVec.ofNat 16 (64 * (i + 1)) := by
    rw [h.datasize, hp, hl, ← BitVec.ofNat_add]
    rfl
  have hlast : ((t.usbReq.wLength.toNat - (t.datasize + t.packetsize).toNat : ℤ) ≤
      bMaxPacketSize0) ↔ data.length ≤ 64 * (i + 1 + 1) := by
    have h64 : (bMaxPacketSize0 : ℤ) = 64 := rfl
    rw [h.usbReq, hsize, h64, dnloadReq, BitVec.toNat_ofNat, BitVec.toNat_ofNat]
    omega
  rw [step_out_dataOut_eq c t (block 64 data i) hdata, if_pos hfit]
  refine ⟨h.usbReq, h.usbCompleteCb, ?_, hsize, ?_, h.dfu⟩
  · by_cases hd : data.length ≤ 64 * (i + 1 + 1)
    · exact (if_pos (hlast.mpr hd)).trans (if_pos hd).symm
    · exact (if_neg (mt hlast.mp hd)).trans (if_neg hd).symm
  · rw [hl] at hbuf
    rw [← hbuf]
    exact congrArg (fun d => slice (blit t.datasize.toNat d t.usbdControlBuffer) 0 (64 * i + 64))
      hbytes

theorem receiving_run (c : Device) (h4 : data.length ≤ dfuTransferSize) {t : State}
    (h : Receiving s blocknum data 0 t) {i : ℕ} (hi : 64 * i < data.length) :
    Receiving s blocknum data i
      (run (step c) t ((List.range i).map fun j => .out (block 64 data j))) := by
  induction i with
  | zero => exact h
  | succ i ih =>
    rw [List.range_succ, List.map_append, run_append]
    exact (ih (by omega)).step hi h4

theorem dispatch_dnload (c : Device) {t : State} (hreq : t.usbReq = dnloadReq blocknum data)
    (hbuf : slice t.usbdControlBuffer 0 data.length = data) (h0 : 0 < data.length)
    (h4 : data.length ≤ dfuTransferSize) :
    State.usbControlRequestDispatch c t =
      (.handled, t.withIo
        { len := BitVec.ofNat 16 data.length
          complete := t.usbCompleteCb
          buf := t.usbdControlBuffer
          dfu := { t.dfu with
            usbdfuState := .dfuDnloadSync
            prog := { t.dfu.prog with
              buf := blit 0 data t.dfu.prog.buf
              len := BitVec.ofNat 16 data.length
              blocknum := blocknum }
            log := .request .dnload (BitVec.ofNat 16 data.length) :: t.dfu.log } }) := by
  have hcode : DfuReq.ofByte t.usbReq.bRequest = some .dnload := by
    rw [hreq]
    rfl
  have hdfu : t.usbReq.isDfu := by
    rw [hreq]
    exact decide_eq_true (show 0x21#8 &&& 0x7F#8 = 0x21#8 by decide)
  have hlen : t.dfuIo.len = BitVec.ofNat 16 data.length := congrArg UsbSetupData.wLength hreq
  have hn : t.dfuIo.len.toNat = data.length := by rw [hlen, toNat_length h4]
  have hne : t.dfuIo.len ≠ 0#16 := by
    rw [hlen]
    exact length_ne_zero h0 h4
  have hslice : slice t.dfuIo.buf 0 data.length = data := hbuf
  rw [State.dispatch_of_dfu c hdfu,
    controlRequest_dnload c t.dfuIo hcode rfl hne (by rwa [hn]), hn, hslice, hcode, hreq, hlen]
  rfl

theorem Receiving.accept (c : Device) {i : ℕ} {t : State}
    (h : Receiving s blocknum data i t)
    (hi : 64 * i < data.length) (hlast : data.length ≤ 64 * (i + 1))
    (h4 : data.length ≤ dfuTransferSize) :
    (Swindle.step c t (.out (block 64 data i))).usbFsmState = .statusIn ∧
      (Swindle.step c t (.out (block 64 data i))).usbCompleteCb = none ∧
      (Swindle.step c t (.out (block 64 data i))).dfu.newPoll =
        { s.dfu.newPoll with
          usbdfuState := .dfuDnloadSync
          prog := { s.dfu.prog with
            buf := blit 0 data s.dfu.prog.buf
            len := BitVec.ofNat 16 data.length
            blocknum := blocknum } } := by
  obtain ⟨hfit, hbytes, hbuf⟩ := h.tookData hi h4
  have hl : 64 * i + (block 64 data i).length = data.length := by
    rw [length_block]
    omega
  rw [hl, List.take_of_length_le hlast] at hbuf
  let u := t.usb.readData (block 64 data i) t.packetsize
  let t' : State := { t.tookData (block 64 data i) u with
    datasize := t.datasize + t.packetsize }
  have hbuf' : slice t'.usbdControlBuffer 0 data.length = data := by
    rw [← hbytes] at hbuf
    exact hbuf
  have hreq : t'.usbReq = dnloadReq blocknum data := h.usbReq
  have hdis := dispatch_dnload c hreq hbuf' (by omega) h4
  have htaken : (State.usbControlRequestDispatch c t').1 ≠ .notsupp := by
    rw [hdis]
    simp
  have hend : Swindle.step c t (.out (block 64 data i)) =
      State.mapUsb (State.acknowledge (usbIstrCtr ||| usbIstrDir))
        { (State.usbControlRequestDispatch c t').2.usbdEpWritePacket 0#8 [] with
          usbFsmState := .statusIn } := by
    rw [step_out_lastDataOut_eq c t (block 64 data i) (h.usbFsmState.trans (if_pos hlast)),
      if_pos hfit]
    exact congrArg _ (if_pos htaken)
  have hprog : t.dfu.newPoll.prog = s.dfu.newPoll.prog := by rw [h.dfu]
  rw [Dfu.newPoll_prog, Dfu.newPoll_prog] at hprog
  rw [hend, hdis]
  refine ⟨rfl, h.usbCompleteCb, ?_⟩
  change Dfu.mk DfuState.dfuDnloadSync { t.dfu.prog with
    buf := blit 0 data t.dfu.prog.buf
    len := BitVec.ofNat 16 data.length
    blocknum := blocknum } t.dfu.newPoll.newPoll.flash [] = _
  rw [hprog, h.dfu]
  rfl

/-- A complete download is pending afterwards, as the host sent it. -/
theorem run_dnload (c : Device) (s : State) (blocknum : BitVec 16) {data : List Byte}
    (h0 : 0 < data.length) (h4 : data.length ≤ dfuTransferSize) :
    (run (step c) s (dnload blocknum data)).usbFsmState = .idle ∧
      (run (step c) s (dnload blocknum data)).dfu = { s.dfu.newPoll with
        usbdfuState := .dfuDnloadSync
        prog := { s.dfu.prog with
          buf := blit 0 data s.dfu.prog.buf
          len := BitVec.ofNat 16 data.length
          blocknum := blocknum } } := by
  obtain ⟨n, hn⟩ : ∃ n, blockCount 64 data = n + 1 :=
    Nat.exists_eq_succ_of_ne_zero (by unfold blockCount; omega)
  have hlt : 64 * n < data.length := (lt_blockCount_iff (by decide) data n).mp (by omega)
  have hle : data.length ≤ 64 * (n + 1) :=
    Nat.not_lt.mp fun h => absurd ((lt_blockCount_iff (by decide) data (n + 1)).mpr h) (by omega)
  have hbegun : Receiving s blocknum data 0 (step c s
      (.setup (setupPacket 0x21#8 1#8 blocknum 0#16 (BitVec.ofNat 16 data.length)))) :=
    receiving_zero h0 h4
  obtain ⟨hf, hc, hd⟩ := (receiving_run c h4 hbegun hlt).accept c hlt hle h4
  obtain ⟨hf', hd'⟩ := step_in_statusIn c _ hf hc
  have hrun : run (step c) s (dnload blocknum data) = step c (step c (run (step c) (step c s
      (.setup (setupPacket 0x21#8 1#8 blocknum 0#16 (BitVec.ofNat 16 data.length))))
      ((List.range n).map fun j => .out (block 64 data j))) (.out (block 64 data n)))
      .inComplete := by
    have hblocks : (blocks bMaxPacketSize0 data).map Event.out =
        ((List.range n).map fun j => Event.out (block 64 data j)) ++ [.out (block 64 data n)] := by
      have hb : blocks bMaxPacketSize0 data = (List.range (n + 1)).map (block 64 data) := by
        rw [← hn]
        rfl
      rw [hb, List.range_succ, List.map_append, List.map_append, List.map_map]
      rfl
    rw [dnload, hblocks]
    simp only [List.cons_append, run_cons, run_append, run_nil]
  rw [hrun]
  refine ⟨hf', ?_⟩
  rw [hd', hd]

end Dnload

end Swindle
