import Swindle.Host

/-! What a control read hands to the endpoint: whether every chunk lies in the buffer. -/
namespace Swindle
open Machine

/-- A DFU request whose handler leaves the length at wLength. -/
def UsbSetupData.keepsLength (req : UsbSetupData) : Bool :=
  req.isDfu && match DfuReq.ofByte req.bRequest with
    | some .dnload | some .clrstatus | some .abort | some .detach => true
    | _ => false

/-- A standard request whose handler leaves `datasize` as it was: SET_CONFIGURATION, and
SET_FEATURE and CLEAR_FEATURE of an endpoint. -/
def UsbSetupData.keepsDatasize (req : UsbSetupData) : Bool :=
  req.bmRequestType &&& 0x60#8 = 0#8 &&
    (req.bmRequestType &&& 0x1F#8 = 0#8 && req.bRequest = 9#8 && req.wValue = 1#16 ||
      req.bmRequestType &&& 0x1F#8 = 2#8 && (req.bRequest = 1#8 || req.bRequest = 3#8) &&
        req.wValue = 0#16)

/-- The condition on a SETUP: wLength fits the buffer, or the handler sets the length itself,
or the length it leaves behind fits. -/
def AnswerFits (s : State) : Event → Prop
  | .setup d => s.Dispatches (.setup d) →
      (s.requestOf (.setup d)).wLength.toNat ≤ dfuTransferSize ∨
        (s.requestOf (.setup d)).keepsLength = false ∧
          ((s.requestOf (.setup d)).keepsDatasize → s.datasize.toNat ≤ dfuTransferSize)
  | _ => True

instance (s : State) : DecidablePred (AnswerFits s)
  | .setup _ => inferInstanceAs (Decidable (_ → _))
  | .out _ => isTrue trivial
  | .inComplete => isTrue trivial
  | .reset => isTrue trivial

/-- Every chunk handed over in the poll lies in `usbd_control_buffer`. -/
def State.ChunksFit (s : State) : Prop :=
  ∀ off len, .chunk off len ∈ s.out → off.toNat + len.toNat ≤ dfuTransferSize

/-- What is left of the answer lies in the buffer. -/
def State.RestFits (s : State) : Prop :=
  s.usbFsmState = .dataIn → s.dataoff.toNat + s.datasize.toNat ≤ dfuTransferSize

section Chunk

variable {s : State}

@[simp] theorem chunksFit_mapUsb {f : Usb → Usb} : (s.mapUsb f).ChunksFit ↔ s.ChunksFit := Iff.rfl

@[simp] theorem restFits_mapUsb {f : Usb → Usb} : (s.mapUsb f).RestFits ↔ s.RestFits := Iff.rfl

theorem stall_fits (h : s.out = []) :
    s.stallTransaction.ChunksFit ∧ s.stallTransaction.RestFits := by
  refine ⟨?_, by rintro ⟨⟩⟩
  intro off len hc
  have hc' : UsbAct.chunk off len ∈ .stall :: s.out := hc
  rw [h] at hc'
  simp at hc'

theorem chunk_of_writeChunk {n off len : BitVec 16} (h : .chunk off len ∈ (s.writeChunk n).out) :
    off = s.dataoff ∧ len = n ∨ .chunk off len ∈ s.out := by
  rw [State.writeChunk_out] at h
  split at h <;> simpa using h

theorem sendChunk_fits (hs : s.out = [])
    (h : s.dataoff.toNat + s.datasize.toNat ≤ dfuTransferSize) :
    s.usbControlSendChunk.ChunksFit ∧
      s.usbControlSendChunk.dataoff.toNat + s.usbControlSendChunk.datasize.toNat ≤
        dfuTransferSize := by
  have h64 : (BitVec.ofNat 16 bMaxPacketSize0).toNat = 64 := rfl
  have h4 : dfuTransferSize = 4096 := rfl
  by_cases hlt : BitVec.ofNat 16 bMaxPacketSize0 < s.datasize
  · have hlt' := BitVec.lt_def.mp hlt
    rw [h64] at hlt'
    rw [State.sendChunk_of_lt hlt]
    constructor
    · intro off len hc
      rcases chunk_of_writeChunk hc with ⟨rfl, rfl⟩ | hc
      · omega
      · rw [hs] at hc
        cases hc
    · change (s.dataoff + BitVec.ofNat 16 bMaxPacketSize0).toNat +
        (s.datasize - BitVec.ofNat 16 bMaxPacketSize0).toNat ≤ _
      rw [BitVec.toNat_add, BitVec.toNat_sub, h64]
      omega
  · rw [State.sendChunk_of_not_lt hlt]
    constructor
    · intro off len hc
      rcases chunk_of_writeChunk hc with ⟨rfl, rfl⟩ | hc
      · exact h
      · rw [hs] at hc
        cases hc
    · change s.dataoff.toNat + (0#16).toNat ≤ _
      rw [show (0#16).toNat = 0 from rfl]
      omega

end Chunk

/-! How long an answer the handlers ask for. -/

section Length

variable (c : Device) {s : State}

theorem dfu_len (req : UsbSetupData) (io : DfuIo) {r : DfuReq}
    (h : DfuReq.ofByte req.bRequest = some r) (hd : req.isDfu) (hk : req.keepsLength = false) :
    (usbdfuControlRequest c req io).2.len.toNat ≤ dfuTransferSize := by
  rw [UsbSetupData.keepsLength, hd, h] at hk
  rw [usbdfuControlRequest, h]
  cases r with
  | upload =>
    dsimp only
    split
    · exact show (3#16).toNat ≤ 4096 by decide
    · split
      · exact show (BitVec.ofNat 16 4096).toNat ≤ 4096 by decide
      · exact show (0#16).toNat ≤ 4096 by decide
  | getstatus => exact show (6#16).toNat ≤ 4096 by decide
  | getstate => exact show (1#16).toNat ≤ 4096 by decide
  | _ => cases hk

/-- What a standard request that is not refused leaves in `datasize`. -/
def LengthOk (s : State) (q : UsbdRequestReturnCodes × State) : Prop :=
  q.1 = .notsupp ∨ q.2.datasize.toNat ≤ dfuTransferSize ∨
    q.2.datasize = s.datasize ∧ (s.usbReq.keepsDatasize ∨ s.usbReq.bmRequestType = 0#8)

theorem getDescriptor_len : LengthOk s (State.usbStandardGetDescriptor c s) := by
  unfold State.usbStandardGetDescriptor
  dsimp only
  split
  · exact .inr (.inl (show (BitVec.ofNat 16 devDesc.length).toNat ≤ 4096 by decide))
  split
  · exact .inr (.inl (show (BitVec.ofNat 16 27).toNat ≤ 4096 by decide))
  split
  · split
    · exact .inr (.inl (show (4#16).toNat ≤ 4096 by decide))
    split
    · exact .inl rfl
    · rename_i str _
      split
      · exact .inl rfl
      · refine .inr (.inl ?_)
        change (BitVec.setWidth 16 (BitVec.ofNat 8 (str.length * 2 + 2))).toNat ≤ 4096
        rw [BitVec.toNat_setWidth, BitVec.toNat_ofNat]
        omega
  · exact .inl rfl

theorem eq_ofNat_of_toNat {b : Byte} {n : ℕ} (h : b.toNat = n) : b = BitVec.ofNat 8 n := by
  rw [← h, BitVec.ofNat_toNat, BitVec.setWidth_eq]

theorem standardRequestDevice_len (ht : s.usbReq.bmRequestType &&& 0x60#8 = 0#8)
    (hr : s.usbReq.bmRequestType &&& 0x1F#8 = 0#8) :
    LengthOk s (State.usbdStandardRequestDevice c s) := by
  unfold State.usbdStandardRequestDevice
  split
  · split
    · exact .inl rfl
    · rename_i h
      exact .inr (.inr ⟨rfl, .inr (not_not.mp (not_or.mp h).1)⟩)
  · rename_i hb
    split
    · rename_i h
      have hv : s.usbReq.wValue = 1#16 := h
      refine .inr (.inr ⟨rfl, .inl ?_⟩)
      simp [UsbSetupData.keepsDatasize, ht, hr, eq_ofNat_of_toNat hb, hv]
    · exact .inl rfl
  · exact .inr (.inl (show (1#16).toNat ≤ 4096 by decide))
  · exact getDescriptor_len c
  · exact .inr (.inl (show (2#16).toNat ≤ 4096 by decide))
  · exact .inl rfl

theorem standardRequestInterface_len : LengthOk s (State.usbdStandardRequestInterface s) := by
  unfold State.usbdStandardRequestInterface
  split
  · exact .inr (.inl (show (1#16).toNat ≤ 4096 by decide))
  · exact .inr (.inl (show (0#16).toNat ≤ 4096 by decide))
  · exact .inl rfl
  · exact .inl rfl

theorem standardRequestEndpoint_len (ht : s.usbReq.bmRequestType &&& 0x60#8 = 0#8)
    (hr : s.usbReq.bmRequestType &&& 0x1F#8 = 2#8) :
    LengthOk s (State.usbdStandardRequestEndpoint s) := by
  have hfeature : ∀ set, s.usbReq.bRequest = 1#8 ∨ s.usbReq.bRequest = 3#8 →
      LengthOk s (State.endpointFeature set s) := by
    intro set hb
    unfold State.endpointFeature
    split
    · rename_i hv
      refine .inr (.inr ⟨rfl, .inl ?_⟩)
      rcases hb with hb | hb <;> simp [UsbSetupData.keepsDatasize, ht, hr, hb, hv]
    · exact .inl rfl
  unfold State.usbdStandardRequestEndpoint
  split
  · rename_i hb
    exact hfeature false (.inl (eq_ofNat_of_toNat hb))
  · rename_i hb
    exact hfeature true (.inr (eq_ofNat_of_toNat hb))
  · exact .inr (.inl (show (2#16).toNat ≤ 4096 by decide))
  · exact .inl rfl

theorem standardRequest_len : LengthOk s (State.usbdStandardRequest c s) := by
  unfold State.usbdStandardRequest
  split
  · exact .inl rfl
  · rename_i ht
    have ht' := not_not.mp ht
    split
    · rename_i hr
      exact standardRequestDevice_len c ht' (eq_ofNat_of_toNat hr)
    · exact standardRequestInterface_len
    · rename_i hr
      exact standardRequestEndpoint_len ht' (eq_ofNat_of_toNat hr)
    · exact .inl rfl

end Length

/-! One poll. -/

section Step

variable (c : Device) {s : State}

theorem readDispatch_len {t : State} (htaken : (t.readDispatch c).1 ≠ .notsupp)
    (hdir : t.usbReq.bmRequestType &&& 0x80#8 ≠ 0#8) (hk : t.usbReq.keepsLength = false)
    (hd : t.usbReq.keepsDatasize → t.datasize.toNat ≤ dfuTransferSize) :
    (t.readDispatch c).2.datasize.toNat ≤ dfuTransferSize := by
  by_cases h : t.usbReq.isDfu
  · rw [State.readDispatch_of_dfu c h] at htaken ⊢
    cases hr : DfuReq.ofByte t.usbReq.bRequest with
    | none =>
      rw [hr] at htaken
      exact absurd rfl htaken
    | some r => exact dfu_len c t.usbReq t.dfuIo hr h hk
  · have hq : t.readDispatch c = State.usbdStandardRequest c { t with dataoff := 0#16 } :=
      State.dispatch_of_not_dfu c h
    rw [hq] at htaken ⊢
    have hstd : LengthOk { t with dataoff := 0#16 } _ := standardRequest_len c
    rcases hstd with hn | hle | ⟨heq, hkeep⟩
    · exact absurd hn htaken
    · exact hle
    · rw [heq]
      rcases hkeep with hkeep | hz
      · exact hd hkeep
      · have hz' : t.usbReq.bmRequestType = 0#8 := hz
        rw [hz'] at hdir
        exact absurd rfl hdir

theorem setupRead_fits {t : State} (hout : t.out = []) (hdir : t.usbReq.wLength = 0#16 ∨
    t.usbReq.bmRequestType &&& 0x80#8 ≠ 0#8)
    (hfit : t.usbReq.wLength.toNat ≤ dfuTransferSize ∨ t.usbReq.keepsLength = false ∧
      (t.usbReq.keepsDatasize → t.datasize.toNat ≤ dfuTransferSize)) :
    (t.usbControlSetupRead c).ChunksFit ∧ (t.usbControlSetupRead c).RestFits := by
  obtain ⟨hqout, hqoff⟩ := State.dispatch_out c { t with dataoff := 0#16 }
  have hqout' : (t.readDispatch c).2.out = [] := hqout.trans hout
  have hqoff' : (t.readDispatch c).2.dataoff = 0#16 := hqoff
  rw [State.setupRead_eq]
  by_cases hn : (t.readDispatch c).1 = .notsupp
  · rw [if_pos hn]
    exact stall_fits hqout'
  rw [if_neg hn]
  by_cases hw : t.usbReq.wLength = 0#16
  · rw [if_neg (not_not.mpr hw)]
    refine ⟨?_, by rintro ⟨⟩⟩
    intro off len hc
    have hc' : UsbAct.chunk off len ∈ (if _ then (t.readDispatch c).2.out else
      .tx [] :: (t.readDispatch c).2.out) := hc
    rw [hqout'] at hc'
    split at hc' <;> simp at hc'
  · rw [if_pos hw]
    have hlen : (State.readyToSend (t.readDispatch c).2 t.usbReq.wLength).datasize.toNat ≤
        dfuTransferSize := by
      change (if t.usbReq.wLength < (t.readDispatch c).2.datasize then t.usbReq.wLength
        else (t.readDispatch c).2.datasize).toNat ≤ _
      rcases hfit with hle | ⟨hk, hd⟩
      · split
        · exact hle
        · rename_i hlt
          rw [BitVec.lt_def] at hlt
          omega
      · have hle := readDispatch_len c hn (hdir.resolve_left hw) hk hd
        split
        · rename_i hlt
          rw [BitVec.lt_def] at hlt
          omega
        · exact hle
    have hsum : (State.readyToSend (t.readDispatch c).2 t.usbReq.wLength).dataoff.toNat +
        (State.readyToSend (t.readDispatch c).2 t.usbReq.wLength).datasize.toNat ≤
          dfuTransferSize := by
      have hoff : (State.readyToSend (t.readDispatch c).2 t.usbReq.wLength).dataoff = 0#16 := hqoff'
      rw [hoff, show (0#16).toNat = 0 from rfl, Nat.zero_add]
      exact hlen
    have hready : (State.readyToSend (t.readDispatch c).2 t.usbReq.wLength).out = [] := hqout'
    obtain ⟨hc, hr⟩ := sendChunk_fits hready hsum
    exact ⟨hc, fun _ => hr⟩

theorem chunks_step {e : Event} (hs : s.RestFits) (hfit : AnswerFits s e) :
    (step c s e).ChunksFit ∧ (step c s e).RestFits := by
  cases e with
  | reset =>
    rw [step_reset]
    refine ⟨?_, hs⟩
    intro off len hc
    have hc' : UsbAct.chunk off len ∈ [UsbAct.daddr usbDaddrEf] := hc
    simp at hc'
  | out d =>
    refine ⟨?_, fun hf => absurd hf (step_out_not_dataIn c s d)⟩
    intro off len hc
    rcases mem_step_out c s hc with hc | hc <;> cases hc
  | inComplete =>
    by_cases hf : s.usbFsmState = .dataIn
    · have hf' : ((s.raise .inComplete).mapUsb (Usb.clrEpTxCtr 0)).usbFsmState = .dataIn := hf
      have hout : ((s.raise .inComplete).mapUsb (Usb.clrEpTxCtr 0)).out = [] := rfl
      obtain ⟨hc, hr⟩ := sendChunk_fits hout (hs hf)
      rw [step_inComplete, State.usbdControlIn, hf']
      exact ⟨hc, fun _ => hr⟩
    · refine ⟨?_, fun hd => absurd (step_in_dataIn c s hd) hf⟩
      intro off len hc
      rcases mem_step_in c s hf hc with hc | ⟨v, hc⟩ <;> cases hc
  | setup d =>
    have hout : (s.tookSetup d (s.usb.readSetup d)).out = [] := rfl
    rw [step_setup_eq c s d, chunksFit_mapUsb, restFits_mapUsb]
    split
    · exact stall_fits hout
    · rename_i hlen
      split
      · rename_i hread
        exact setupRead_fits c hout hread (hfit ⟨not_not.mp hlen, hread⟩)
      · unfold State.usbControlSetupWrite
        split
        · exact stall_fits hout
        · refine ⟨by rintro off len ⟨⟩, ?_⟩
          intro hf
          have hf' : (if BitVec.ofNat 16 bMaxPacketSize0 < (s.usbReq.patch (setupBytes d)).wLength then
            UsbFsmState.dataOut else .lastDataOut) = .dataIn := hf
          split at hf' <;> cases hf'

end Step

/-- Along every run from start-up whose control reads fit, no chunk reaches beyond the buffer. -/
theorem no_overread {c : Device} {mem : Addr → Byte} {ram : ℕ → Byte} {es : List Event}
    (h : Along (step c) AnswerFits (State.start mem ram) es) :
    Along (step c) (fun s e => (step c s e).ChunksFit) (State.start mem ram) es := by
  have hstart : (State.start mem ram).RestFits := by rintro ⟨⟩
  have hstep : ∀ s e, s.RestFits → AnswerFits s e →
      (step c s e).ChunksFit ∧ (step c s e).RestFits := fun s e hs hfit => chunks_step c hs hfit
  exact along_of_invariant hstep hstart h

theorem no_overread_getstatus :
    let c := Device.stm64k
    Along (step c) AnswerFits (State.start (fun _ => 0xFF#8) fun _ => 0#8) getstatus ∧
      Along (step c) (fun s e => (step c s e).ChunksFit)
        (State.start (fun _ => 0xFF#8) fun _ => 0#8) getstatus := by
  have hfit : Along (step Device.stm64k) AnswerFits
      (State.start (fun _ => 0xFF#8) fun _ => 0#8) getstatus := by decide
  exact ⟨hfit, no_overread hfit⟩

/-- DFU_ABORT with the IN direction bit and wLength 0xFFFF: the handler leaves the length at
wLength, and after 64 chunks the device goes on with the RAM behind the buffer. -/
theorem abort_in_overreads :
    ¬Along (step Device.stm64k) (fun s e => (step Device.stm64k s e).ChunksFit)
      (State.start (fun _ => 0xFF#8) fun _ => 0#8)
      ((.setup (setupPacket 0xA1#8 6#8 0#16 0#16 0xFFFF#16) ::
        List.replicate 63 .inComplete) ++ [.inComplete]) := by
  intro h
  obtain ⟨-, hlast, -⟩ := along_append.mp h
  exact absurd (hlast 4096#16 64#16 (by decide +kernel)) (by decide)

end Swindle
