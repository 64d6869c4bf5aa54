import Swindle.Machine.Packets
import Swindle.Host
import Swindle.Usb.Stall

/-! Control reads: the packets the device loads, and where the data stage ends. -/
namespace Swindle
open Machine

namespace State

/-- The packets the hardware accepted in the poll. -/
def loaded (s : State) : List (List Byte) :=
  s.out.reverse.filterMap fun
    | .tx d => some d
    | _ => none

/-- What the handler leaves when the SETUP packet `d` is a control read. -/
def answered (c : Device) (s : State) (d : List Byte) : UsbdRequestReturnCodes × State :=
  (s.tookSetup d (s.usb.readSetup d)).readDispatch c

/-- `t` is about to load packet `i` of an answer of `m` bytes in `b`, asked for with wLength
`w`. -/
structure Sending (b : ℕ → Byte) (m w i : ℕ) (t : State) : Prop where
  buffer : t.usbdControlBuffer = b
  size : t.datasize.toNat = m - 64 * i
  off : 64 * i < m → t.dataoff.toNat = 64 * i
  zlp : t.usbNeedsZlp = true ↔ 64 * i < m ∧ m < w ∧ m % 64 = 0

/-- `t` has just loaded packet `i`. -/
structure Sent (b : ℕ → Byte) (m w i : ℕ) (t : State) : Prop where
  loaded : t.loaded = [packet b 64 m i]
  fsm : t.usbFsmState = if i = lastPacket 64 m w then .lastDataIn else .dataIn
  rest : i < lastPacket 64 m w → t.Sending b m w (i + 1)

section Chunk

variable {b : ℕ → Byte} {m w i : ℕ} {t : State}

theorem Sending.chunk (h : t.Sending b m w i) {n : ℕ} (hn : n = min 64 (m - 64 * i)) :
    slice t.usbdControlBuffer t.dataoff.toNat n = packet b 64 m i := by
  rw [h.buffer, packet, hn]
  by_cases hi : 64 * i < m
  · rw [h.off hi]
  · have h0 : min 64 (m - 64 * i) = 0 := by omega
    rw [h0]
    rfl

theorem loaded_writeChunk (hr : t.usb.txBusy 0#8 = false) (ho : t.out = []) (len : BitVec 16) :
    (t.writeChunk len).loaded = [slice t.usbdControlBuffer t.dataoff.toNat len.toNat] := by
  rw [State.loaded, writeChunk_out, hr, ho]
  rfl

theorem Sending.sendChunk (h : t.Sending b m w i) (hm : m ≤ w) (hw : w < 2 ^ 16)
    (hi : i ≤ lastPacket 64 m w) (hr : t.usb.txBusy 0#8 = false) (ho : t.out = []) :
    t.usbControlSendChunk.Sent b m w i := by
  obtain ⟨h₁, h₂, h₃, h₄⟩ := lastPacket_bounds (k := 64) (by decide) hm
  have hz := h.size
  have h64 : (BitVec.ofNat 16 bMaxPacketSize0).toNat = 64 := rfl
  by_cases hlt : BitVec.ofNat 16 bMaxPacketSize0 < t.datasize
  · have hlt' := BitVec.lt_def.mp hlt
    have hmore : i < lastPacket 64 m w := by omega
    have hoff := h.off (by omega)
    have hload := loaded_writeChunk hr ho (BitVec.ofNat 16 bMaxPacketSize0)
    rw [h64, h.chunk (by omega)] at hload
    rw [sendChunk_of_lt hlt]
    refine ⟨hload, (if_neg (by omega)).symm, fun _ => ⟨h.buffer, ?_, ?_, ?_⟩⟩
    · change (t.datasize - BitVec.ofNat 16 bMaxPacketSize0).toNat = _
      rw [BitVec.toNat_sub, h64]
      omega
    · intro _
      change (t.dataoff + BitVec.ofNat 16 bMaxPacketSize0).toNat = _
      rw [BitVec.toNat_add, h64]
      omega
    · refine h.zlp.trans ?_
      constructor
      · rintro ⟨-, hmw, hmod⟩
        exact ⟨by omega, hmw, hmod⟩
      · rintro ⟨-, hmw, hmod⟩
        exact ⟨by omega, hmw, hmod⟩
  · have hle := mt BitVec.lt_def.mpr hlt
    have hload := loaded_writeChunk hr ho t.datasize
    rw [h.chunk (by omega)] at hload
    rw [sendChunk_of_not_lt hlt]
    by_cases hzlp : t.usbNeedsZlp = true
    · obtain ⟨hi', hmw, hmod⟩ := h.zlp.mp hzlp
      have hmore : i + 1 = lastPacket 64 m w := by omega
      refine ⟨hload, ?_, fun _ => ⟨h.buffer, ?_, ?_, ?_⟩⟩
      · change (if t.usbNeedsZlp then UsbFsmState.dataIn else .lastDataIn) = _
        rw [if_pos hzlp, if_neg (by omega)]
      · change (0#16).toNat = _
        rw [show (0#16).toNat = 0 from rfl]
        omega
      · intro hcon
        omega
      · change false = true ↔ _
        constructor
        · nofun
        · rintro ⟨hcon, -⟩
          omega
    · have hlast : i = lastPacket 64 m w := by
        have hno := mt h.zlp.mpr hzlp
        omega
      refine ⟨hload, ?_, fun hcon => absurd hcon (by omega)⟩
      change (if t.usbNeedsZlp then UsbFsmState.dataIn else .lastDataIn) = _
      rw [if_neg hzlp, if_pos hlast]

end Chunk

theorem needsZlp_iff (len wLength : BitVec 16) :
    needsZlp len wLength bMaxPacketSize0 = true ↔
      0 < len.toNat ∧ len.toNat < wLength.toNat ∧ len.toNat % 64 = 0 := by
  have hne : len ≠ 0#16 ↔ 0 < len.toNat := by
    rw [Nat.pos_iff_ne_zero, ne_eq, ne_eq, ← BitVec.toNat_inj]
    rfl
  have h64 : bMaxPacketSize0 = 64 := rfl
  simp only [needsZlp, Bool.and_eq_true, decide_eq_true_eq, BitVec.lt_def, hne, h64]
  omega

section Poll

variable {c : Device} {b : ℕ → Byte} {m w i : ℕ} {s t : State}

theorem Sending.in_raise (h : t.Sending b m w i) :
    ((t.raise .inComplete).mapUsb (Usb.clrEpTxCtr 0)).Sending b m w i :=
  ⟨h.buffer, h.size, h.off, h.zlp⟩

theorem Sent.mapUsb (g : Usb → Usb) (h : t.Sent b m w i) : (t.mapUsb g).Sent b m w i :=
  ⟨h.loaded, h.fsm, fun hi => ⟨(h.rest hi).buffer, (h.rest hi).size, (h.rest hi).off,
    (h.rest hi).zlp⟩⟩

theorem in_raise_ready (t : State) :
    ((t.raise .inComplete).mapUsb (Usb.clrEpTxCtr 0)).usb.txBusy 0#8 = false := by
  apply Usb.txBusy_eq_false
  change ((t.usb.raise .inComplete).clrEpTxCtr 0).reg 0 &&& usbEpTxStat ≠ _
  rw [Usb.clrEpTxCtr_txStat _ (by decide), Usb.raise_in_txStat]
  decide

theorem Sent.step (h : t.Sent b m w i) (hm : m ≤ w) (hw : w < 2 ^ 16)
    (hi : i < lastPacket 64 m w) : (step c t .inComplete).Sent b m w (i + 1) := by
  have hf : ((t.raise .inComplete).mapUsb (Usb.clrEpTxCtr 0)).usbFsmState = .dataIn :=
    h.fsm.trans (if_neg (by omega))
  rw [step_inComplete, usbdControlIn, hf]
  exact ((h.rest hi).in_raise.sendChunk hm hw hi (in_raise_ready t) rfl).mapUsb _

theorem sent_setup {d : List Byte} (hd : (setupBytes d).length = 8)
    (hin : (s.requestOf (.setup d)).bmRequestType &&& 0x80#8 ≠ 0#8)
    (hw : (s.requestOf (.setup d)).wLength ≠ 0#16) (hcode : (s.answered c d).1 ≠ .notsupp) :
    (step c s (.setup d)).Sent (s.answered c d).2.usbdControlBuffer
      (min (s.answered c d).2.datasize.toNat (s.requestOf (.setup d)).wLength.toNat)
      (s.requestOf (.setup d)).wLength.toNat 0 := by
  have hwlen : (s.requestOf (.setup d)).wLength.toNat < 2 ^ 16 := BitVec.isLt _
  have hread : (s.usbReq.patch (setupBytes d)).wLength = 0#16 ∨
      (s.usbReq.patch (setupBytes d)).bmRequestType &&& 0x80#8 ≠ 0#8 := .inr hin
  let q := s.answered c d
  let w := (s.requestOf (.setup d)).wLength
  have hsize : (if w < q.2.datasize then w else q.2.datasize).toNat =
      min q.2.datasize.toNat w.toNat := cut_toNat _ _
  have hready : (readyToSend q.2 w).usb.txBusy 0#8 = false :=
    dispatch_ready c _ (s.usb.readSetup_ready d)
  obtain ⟨hout, hoff⟩ := dispatch_out c { s.tookSetup d (s.usb.readSetup d) with dataoff := 0#16 }
  have hsending : (readyToSend q.2 w).Sending q.2.usbdControlBuffer
      (min q.2.datasize.toNat w.toNat) w.toNat 0 := by
    refine ⟨rfl, hsize, fun _ => ?_, ?_⟩
    · change q.2.dataoff.toNat = _
      rw [show q.2.dataoff = 0#16 from hoff]
      rfl
    · change needsZlp (if w < q.2.datasize then w else q.2.datasize) w bMaxPacketSize0 = true ↔ _
      rw [needsZlp_iff, hsize]
  have htaken : ((s.tookSetup d (s.usb.readSetup d)).readDispatch c).1 ≠ .notsupp := hcode
  have hlen : (s.tookSetup d (s.usb.readSetup d)).usbReq.wLength ≠ 0#16 := hw
  rw [step_setup_eq, if_neg (not_not.mpr hd), if_pos hread, setupRead_eq, if_neg htaken,
    if_pos hlen]
  exact (hsending.sendChunk (Nat.min_le_right _ _) hwlen (Nat.zero_le _) hready hout).mapUsb _

end Poll

end State

section Read

variable {c : Device} {s : State} {d : List Byte}

/-- A SETUP and the completions of the packets that answer it. -/
def readEvents (d : List Byte) (i : ℕ) : List Event := .setup d :: List.replicate i .inComplete

theorem readEvents_succ (d : List Byte) (i : ℕ) :
    readEvents d (i + 1) = readEvents d i ++ [.inComplete] := by
  rw [readEvents, List.replicate_succ', ← List.cons_append]
  rfl

theorem sent_run {b : ℕ → Byte} {m w : ℕ} (hm : m ≤ w) (hw : w < 2 ^ 16)
    (h : (step c s (.setup d)).Sent b m w 0) {i : ℕ} (hi : i ≤ lastPacket 64 m w) :
    (run (step c) s (readEvents d i)).Sent b m w i ∧
      (trace (step c) State.loaded s (readEvents d i)).flatten =
        (packets b 64 m w).take (i + 1) := by
  rw [take_packets b (show i + 1 ≤ _ by omega)]
  induction i with
  | zero =>
    refine ⟨h, ?_⟩
    simp [readEvents, trace, h.loaded]
  | succ i ih =>
    obtain ⟨hs, ht⟩ := ih (by omega)
    have hnext := hs.step (c := c) hm hw (by omega)
    rw [readEvents_succ, run_append, trace_append]
    refine ⟨hnext, ?_⟩
    have hr : List.range (i + 1 + 1) = List.range (i + 1) ++ [i + 1] := List.range_succ
    rw [List.flatten_append, ht, hr, List.map_append]
    simp [trace, hnext.loaded]

theorem last_completion (c : Device) (hf : s.usbFsmState = .lastDataIn) :
    (step c s .inComplete).loaded = [] := by
  have hf' : ((s.raise .inComplete).mapUsb (Usb.clrEpTxCtr 0)).usbFsmState = .lastDataIn := hf
  rw [step_inComplete, State.usbdControlIn, hf']
  rfl

/-- Between the end of an answer and the next SETUP. -/
def State.Over (s : State) : Prop := s.usbFsmState = .statusOut ∨ s.usbFsmState = .idle

theorem over_step (hs : s.Over) {e : Event} (he : ∀ d, e ≠ .setup d) :
    (step c s e).Over ∧ (step c s e).loaded = [] := by
  cases e with
  | setup d => exact absurd rfl (he d)
  | reset =>
    rw [step_reset]
    exact ⟨hs, rfl⟩
  | out d =>
    rcases hs with hf | hf
    · rw [step_out_statusOut_eq c s d hf]
      let t : State := { s.raise (.out d) with
        usb := s.usb.readData d 0#16
        usbFsmState := .idle }
      obtain ⟨-, -, hidle, hout⟩ := State.complete_fields c t
      constructor
      · exact .inr hidle
      · change (State.complete c t).loaded = []
        rw [State.loaded, hout]
        rfl
    · rw [step_out_other c s d (by rw [hf]; decide)]
      exact ⟨.inr rfl, rfl⟩
  | inComplete =>
    have hf' : ((s.raise .inComplete).mapUsb (Usb.clrEpTxCtr 0)).usbFsmState = s.usbFsmState := rfl
    rw [step_inComplete, State.usbdControlIn, hf']
    rcases hs with hf | hf <;> rw [hf] <;> exact ⟨.inr rfl, rfl⟩

theorem over_run (hs : s.Over) {es : List Event} (he : ∀ e ∈ es, ∀ d, e ≠ .setup d) :
    (trace (step c) State.loaded s es).flatten = [] := by
  induction es generalizing s with
  | nil => rfl
  | cons e es ih =>
    obtain ⟨hover, hnone⟩ := over_step (c := c) hs (he e (by simp))
    rw [trace, List.flatten_cons, hnone, ih hover fun e h => he e (by simp [h])]
    rfl

theorem trace_read {b : ℕ → Byte} {m w : ℕ} (hm : m ≤ w) (hw : w < 2 ^ 16)
    (h : (step c s (.setup d)).Sent b m w 0) :
    (run (step c) s (readEvents d (lastPacket 64 m w + 1))).usbFsmState = .statusOut ∧
      ∀ es : List Event, (∀ e ∈ es, ∀ d', e ≠ .setup d') →
        (trace (step c) State.loaded s (readEvents d (lastPacket 64 m w + 1) ++ es)).flatten =
          packets b 64 m w := by
  obtain ⟨hlast, hall⟩ := sent_run hm hw h (Nat.le_refl _)
  have hfsm : (run (step c) s (readEvents d (lastPacket 64 m w))).usbFsmState = .lastDataIn :=
    hlast.fsm.trans (if_pos rfl)
  have hquiet := last_completion c hfsm
  have hend : (run (step c) s (readEvents d (lastPacket 64 m w + 1))).usbFsmState =
      .statusOut := by
    rw [readEvents_succ, run_append]
    exact (step_in_lastDataIn c _ hfsm).1
  refine ⟨hend, fun es he => ?_⟩
  have hlen : (packets b 64 m w).length ≤ lastPacket 64 m w + 1 := Nat.le_of_eq (length_packets b)
  rw [trace_append, List.flatten_append, over_run (.inl hend) he, List.append_nil,
    readEvents_succ, trace_append, List.flatten_append, hall, trace, trace, hquiet,
    List.take_of_length_le hlen]
  exact List.append_nil _

/-- Host and device agree on where a control read ends: the packets are the answer, cut to
wLength, and the FSM takes the packet for the last one that the host takes for the last one. -/
theorem control_read_ends (hd : (setupBytes d).length = 8)
    (hin : (s.requestOf (.setup d)).bmRequestType &&& 0x80#8 ≠ 0#8)
    (hw : (s.requestOf (.setup d)).wLength ≠ 0#16) (hcode : (s.answered c d).1 ≠ .notsupp) :
    let q := (s.answered c d).2
    let w := (s.requestOf (.setup d)).wLength.toNat
    let m := min q.datasize.toNat w
    let ps := packets q.usbdControlBuffer 64 m w
    ps.flatten = slice q.usbdControlBuffer 0 m ∧
      (∀ p ∈ ps.dropLast, p.length = 64) ∧
      (∀ i < ps.length,
        (trace (step c) State.loaded s (readEvents d i)).flatten = ps.take (i + 1) ∧
          ((run (step c) s (readEvents d i)).usbFsmState = .lastDataIn ↔
            Ends 64 w (ps.take (i + 1))) ∧
          (Ends 64 w (ps.take (i + 1)) ↔ i + 1 = ps.length)) ∧
      (run (step c) s (readEvents d ps.length)).usbFsmState = .statusOut ∧
      ∀ es : List Event, (∀ e ∈ es, ∀ d', e ≠ .setup d') →
        (trace (step c) State.loaded s (readEvents d ps.length ++ es)).flatten = ps := by
  intro q w m ps
  have hm : m ≤ w := Nat.min_le_right _ _
  have hw16 : w < 2 ^ 16 := BitVec.isLt _
  have hpos : 0 < w := Nat.pos_of_ne_zero fun h0 => hw (BitVec.eq_of_toNat_eq h0)
  have hfirst : (step c s (.setup d)).Sent q.usbdControlBuffer m w 0 :=
    State.sent_setup hd hin hw hcode
  have hlen : ps.length = lastPacket 64 m w + 1 := length_packets q.usbdControlBuffer
  obtain ⟨hend, hrest⟩ := trace_read hm hw16 hfirst
  rw [← hlen] at hend hrest
  refine ⟨flatten_packets _ (by decide) hm, packets_full _ (by decide) hm, ?_, hend, hrest⟩
  intro i hi
  have hi' : i ≤ lastPacket 64 m w := by omega
  obtain ⟨hs, ht⟩ := sent_run hm hw16 hfirst hi'
  have hends := ends_take_iff q.usbdControlBuffer (k := 64) (by decide) hm hpos hi'
  refine ⟨ht, ?_, hends.trans (by omega)⟩
  rw [hends, hs.fsm]
  split <;> simp [*]

/-- A device with uploads whose pointer has been set to the application area. -/
def State.atApplication : State :=
  run (step Device.upload64k) (State.start (fun _ => 0x55#8) fun _ => 0#8)
    (dnload 0#16 [cmdSetaddr, 0x00#8, 0x20#8, 0x00#8, 0x08#8] ++ getstatus)

/-- An upload that asks for more than the buffer holds: 64 packets, and one without data. -/
theorem control_read_ends_upload :
    let d := setupPacket 0xA1#8 2#8 2#16 0#16 0x2000#16
    let q := (State.atApplication.answered Device.upload64k d).2
    let ps := packets q.usbdControlBuffer 64 4096 0x2000
    ps.length = 65 ∧ ps.flatten = slice q.usbdControlBuffer 0 4096 ∧
      (∀ p ∈ ps.dropLast, p.length = 64) ∧
      (run (step Device.upload64k) State.atApplication (readEvents d ps.length)).usbFsmState =
        .statusOut := by
  intro d q ps
  have hcode : (State.atApplication.answered Device.upload64k d).1 ≠ .notsupp := by
    decide +kernel
  have hw : (State.atApplication.requestOf (.setup d)).wLength.toNat = 0x2000 := by
    decide +kernel
  have hm : min q.datasize.toNat 0x2000 = 4096 := by decide +kernel
  have hread := control_read_ends (by decide) (by decide +kernel) (by decide +kernel) hcode
  dsimp only at hread
  rw [hw, hm] at hread
  obtain ⟨hdata, hfull, -, hend, -⟩ := hread
  exact ⟨length_packets q.usbdControlBuffer, hdata, hfull, hend⟩

end Read

end Swindle
