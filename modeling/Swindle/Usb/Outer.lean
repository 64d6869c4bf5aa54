import Swindle.Usb.Stall

/-! The registers outside the control endpoint. A poll writes them in three cases only: a bus
reset, a request that is dispatched, and the end of a SET_ADDRESS transfer. -/
namespace Swindle
open Machine

/-- Not a register that serving endpoint 0 writes. -/
def Outer (i : ℕ) : Prop := i ≠ 0 ∧ i ≠ usbCntrReg ∧ i ≠ usbIstrReg

theorem outer_daddr : Outer usbDaddrReg := by
  unfold Outer
  decide

theorem outer_btable : Outer usbBtableReg := by
  unfold Outer
  decide

theorem outer_of_lt {i : ℕ} (h0 : i ≠ 0) (h8 : i < 8) : Outer i := by
  have hc : usbCntrReg = 16 := rfl
  have hi : usbIstrReg = 17 := rfl
  unfold Outer
  omega

theorem Outer.received {i : ℕ} (h : Outer i) : i ≠ 0 ∧ i ≠ usbIstrReg := ⟨h.1, h.2.2⟩

namespace Usb

variable (u : Usb) {i : ℕ}

theorem raise_reg (h : i ≠ 0 ∧ i ≠ usbIstrReg) {e : Event} (he : e ≠ .reset) :
    (u.raise e).reg i = u.reg i := by
  obtain ⟨h0, hi⟩ := h
  cases e with
  | reset => exact absurd rfl he
  | _ => exact (Function.update_of_ne hi _ _).trans (Function.update_of_ne h0 _ _)

theorem raise_in_reg (h : i ≠ 0 ∧ i ≠ usbIstrReg) :
    ((u.raise .inComplete).clrEpTxCtr 0).reg i = u.reg i := by
  rw [clrEpTxCtr, setReg_reg_of_ne _ h.1]
  exact u.raise_reg h Event.noConfusion

theorem nakSet_reg (h : i ≠ 0) (nak : Bool) : (u.usbdEpNakSet 0#8 nak).reg i = u.reg i := by
  rw [usbdEpNakSet, if_neg (by decide)]
  cases nak with
  | true => exact setReg_reg_of_ne _ h _
  | false => exact setReg_reg_of_ne _ h _

theorem readPacket_reg (h : i ≠ 0) (len : BitVec 16) :
    (u.usbdEpReadPacket 0#8 len).2.reg i = u.reg i := by
  unfold usbdEpReadPacket
  dsimp only
  split
  · rfl
  · split
    · exact setReg_reg_of_ne _ h _
    · exact (setReg_reg_of_ne _ h _).trans (setReg_reg_of_ne _ h _)

theorem writePacket_reg (h : i ≠ 0) (len : BitVec 16) :
    (u.usbdEpWritePacket 0#8 len).2.reg i = u.reg i := by
  unfold usbdEpWritePacket
  split
  · rfl
  · exact setReg_reg_of_ne _ h _

theorem readSetup_reg (h : i ≠ 0 ∧ i ≠ usbIstrReg) (d : List Byte) :
    (u.readSetup d).reg i = u.reg i := by
  have hraise : (u.raise (.setup d)).reg i = u.reg i := raise_reg u h (by simp)
  rw [readSetup, readPacket_reg _ h.1, nakSet_reg _ h.1, hraise]

theorem readData_reg (h : i ≠ 0 ∧ i ≠ usbIstrReg) (d : List Byte) (len : BitVec 16) :
    (u.readData d len).reg i = u.reg i := by
  have hraise : (u.raise (.out d)).reg i = u.reg i := raise_reg u h (by simp)
  rw [readData, readPacket_reg _ h.1, hraise]

theorem setEpRxBufsize_reg (ep : ℕ) (size : BitVec 32) :
    (u.setEpRxBufsize ep size).reg = u.reg := by
  unfold setEpRxBufsize
  split <;> rfl

theorem epSetup_reg (h : i ≠ 0) (type : Byte) (size : BitVec 16) :
    (u.usbdEpSetup 0#8 type size).reg i = u.reg i := by
  have h0 : i ≠ (0#8 &&& 0x7f#8).toNat := h
  unfold usbdEpSetup
  dsimp only
  rw [if_pos (by decide), if_pos (by decide)]
  simp only [setEpRxStat, clrEpRxDtog, setEpTxStat, clrEpTxDtog, setEpType, setEpAddr,
    setReg_reg_of_ne _ h0, setEpRxBufsize_reg]

theorem stall_reg (h : i ≠ 0) : (u.epStallSet 0#8 true).reg i = u.reg i :=
  u.epStallSet_reg_of_ne 0#8 true h

theorem acknowledge_reg_of_ne (hc : i ≠ usbCntrReg) (hi : i ≠ usbIstrReg) (istr : BitVec 16) :
    (State.acknowledge istr u).reg i = u.reg i := by
  unfold State.acknowledge
  dsimp only
  rw [setReg_reg_of_ne _ hc]
  repeat' split
  all_goals simp only [clrIstr, setReg_reg_of_ne _ hi]

theorem acknowledge_reg (h : Outer i) (istr : BitVec 16) :
    (State.acknowledge istr u).reg i = u.reg i := u.acknowledge_reg_of_ne h.2.1 h.2.2 istr

theorem acknowledge_cntr (istr : BitVec 16) :
    (State.acknowledge istr u).reg usbCntrReg =
      stored usbCntrReg (u.reg usbCntrReg) (u.reg usbCntrReg &&& ~~~usbCntrSofm) := by
  have hne : usbCntrReg ≠ usbIstrReg := by decide
  unfold State.acknowledge
  dsimp only
  rw [setReg_reg_self]
  repeat' split
  all_goals simp only [clrIstr, setReg_reg_of_ne _ hne]

theorem acknowledge_reg_zero (istr : BitVec 16) : (State.acknowledge istr u).reg 0 = u.reg 0 :=
  u.acknowledge_reg_of_ne (by decide) (by decide) istr

end Usb

namespace State

variable (c : Device) (s : State) {i : ℕ}

theorem sendChunk_reg (h : i ≠ 0) : s.usbControlSendChunk.usb.reg i = s.usb.reg i := by
  obtain ⟨len, hu⟩ := s.sendChunk_usb
  rw [hu]
  exact s.usb.writePacket_reg h len

/-! A request under the two paths that dispatch one. -/

/-- Stage 2 as `usb_control_request_dispatch` finds it. -/
def handed : Event → State
  | .setup d => { s.tookSetup d (s.usb.readSetup d) with dataoff := 0#16 }
  | .out d => { s.tookData d (s.usb.readData d s.packetsize) with
      datasize := s.datasize + s.packetsize }
  | _ => s

/-- The dispatch that the event leads to. -/
def handling (e : Event) : UsbdRequestReturnCodes × State :=
  (s.handed e).usbControlRequestDispatch c

/-- The data stage is over: the request is dispatched, and answered by an empty packet or a
stall. -/
def handOver (c : Device) (s : State) : State :=
  let q : UsbdRequestReturnCodes × State := s.usbControlRequestDispatch c
  State.mapUsb (State.acknowledge (usbIstrCtr ||| usbIstrDir))
    (if q.1 ≠ .notsupp then { q.2.usbdEpWritePacket 0#8 [] with usbFsmState := .statusIn }
    else q.2.stallTransaction)

theorem handOver_of_taken {s : State} (h : (s.usbControlRequestDispatch c).1 ≠ .notsupp) :
    s.handOver c = State.mapUsb (acknowledge (usbIstrCtr ||| usbIstrDir))
      { (s.usbControlRequestDispatch c).2.usbdEpWritePacket 0#8 [] with
        usbFsmState := .statusIn } := by
  unfold handOver
  dsimp only
  rw [if_pos h]

theorem handOver_of_refused {s : State} (h : (s.usbControlRequestDispatch c).1 = .notsupp) :
    s.handOver c = (s.usbControlRequestDispatch c).2.stallTransaction.mapUsb
      (acknowledge (usbIstrCtr ||| usbIstrDir)) := by
  unfold handOver
  dsimp only
  rw [if_neg (not_not.mpr h)]

theorem handed_reg (h : i ≠ 0 ∧ i ≠ usbIstrReg) (e : Event) :
    (s.handed e).usb.reg i = s.usb.reg i := by
  cases e with
  | setup d => exact s.usb.readSetup_reg h d
  | out d => exact s.usb.readData_reg h d _
  | _ => rfl

theorem handed_usbReq (e : Event) : (s.handed e).usbReq = s.requestOf e := by
  cases e <;> rfl

variable {s}

theorem step_out_handed {d : List Byte} (h : s.Dispatches (.out d)) :
    step c s (.out d) = (s.handed (.out d)).handOver c := by
  rw [step_out_lastDataOut_eq c s d h.1, if_pos h.2]
  rfl

theorem dispatch_refused {t : State} (h : (t.usbControlRequestDispatch c).1 = .notsupp) :
    (t.usbControlRequestDispatch c).2.dfu = t.dfu ∧
      (t.usbControlRequestDispatch c).2.usbCompleteCb = t.usbCompleteCb ∧
      (t.usbControlRequestDispatch c).2.usb = t.usb := by
  by_cases hdfu : t.usbReq.isDfu
  · cases hr : DfuReq.ofByte t.usbReq.bRequest with
    | none =>
      rw [dispatch_of_dfu c hdfu, controlRequest_of_none c _ hr]
      exact ⟨rfl, rfl, rfl⟩
    | some r =>
      rw [dispatch_of_dfu c hdfu, hr] at h
      cases h
  · rw [dispatch_of_not_dfu c hdfu] at h ⊢
    have hf := standardRequest_frame c t
    obtain ⟨x, hx⟩ := decides_standard c t.usbReq
    have hcode : x.code = .notsupp := by
      rw [hx.eq t rfl] at h
      exact h
    refine ⟨hf.dfu, hf.usbCompleteCb, ?_⟩
    rw [hx.eq t rfl, Effect.apply, hx.quiet hcode]
    rfl

theorem step_of_refused {e : Event} (hd : s.Dispatches e) (hq : (s.handling c e).1 = .notsupp) :
    step c s e = (s.handling c e).2.stallTransaction.mapUsb
      (acknowledge (usbIstrCtr ||| usbIstrDir)) := by
  cases e with
  | setup d =>
    rw [step_setup_eq, if_neg (not_not.mpr hd.1), if_pos hd.2]
    exact congrArg _ (setupRead_of_refused c hq)
  | out d =>
    exact (step_out_handed c hd).trans (handOver_of_refused c hq)
  | inComplete => exact hd.elim
  | reset => exact hd.elim

theorem step_of_taken {e : Event} (hd : s.Dispatches e) (hq : (s.handling c e).1 ≠ .notsupp) :
    (step c s e).Answering ∧ (step c s e).dfu = (s.handling c e).2.dfu ∧
      (step c s e).usbCompleteCb = (s.handling c e).2.usbCompleteCb ∧
      ∀ i, Outer i → (step c s e).usb.reg i = (s.handling c e).2.usb.reg i := by
  cases e with
  | setup d =>
    have hq' : ((s.tookSetup d (s.usb.readSetup d)).readDispatch c).1 ≠ .notsupp := hq
    obtain ⟨hdfu, hcb, -, hans⟩ := setupRead_of_taken c hq'
    rw [step_setup_eq, if_neg (not_not.mpr hd.1), if_pos hd.2]
    refine ⟨hans, hdfu, hcb, fun i hi => ?_⟩
    have hack := Usb.acknowledge_reg (usbControlSetupRead c
      (s.tookSetup d (s.usb.readSetup d))).usb hi (usbIstrCtr ||| usbIstrDir)
    refine hack.trans ?_
    rw [setupRead_eq, if_neg hq']
    split
    · exact sendChunk_reg _ hi.1
    · exact Usb.writePacket_reg _ hi.1 _
  | out d =>
    rw [step_out_handed c hd, handOver_of_taken c hq]
    refine ⟨.inr (.inr rfl), rfl, rfl, fun i hi => ?_⟩
    exact (Usb.acknowledge_reg _ hi _).trans (Usb.writePacket_reg _ hi.1 _)
  | inComplete => exact hd.elim
  | reset => exact hd.elim

theorem step_reg_of_dispatches {e : Event} (hd : s.Dispatches e) (hi : Outer i) :
    (step c s e).usb.reg i = (s.handling c e).2.usb.reg i := by
  by_cases hq : (s.handling c e).1 = .notsupp
  · rw [step_of_refused c hd hq]
    exact (Usb.acknowledge_reg _ hi _).trans (Usb.stall_reg _ hi.1)
  · exact (step_of_taken c hd hq).2.2.2 i hi

theorem complete_usb (t : State) : (complete c t).usb = t.usb := by
  unfold complete
  split <;> rfl

/-- The last poll of a SET_ADDRESS transfer. -/
def Latches (s : State) (e : Event) : Prop :=
  e = .inComplete ∧ s.usbFsmState = .statusIn ∧ s.usbReq.bmRequestType = 0#8 ∧
    s.usbReq.bRequest = 5#8

instance (s : State) : DecidablePred s.Latches := fun _ => inferInstanceAs (Decidable (_ ∧ _))

section Quiet

variable {c}

private theorem acknowledged_reg (hi : Outer i) {t : State} (ht : t.usb.reg i = s.usb.reg i)
    (istr : BitVec 16) : (t.mapUsb (acknowledge istr)).usb.reg i = s.usb.reg i :=
  (t.usb.acknowledge_reg hi istr).trans ht

private theorem stalled_reg (hi : Outer i) {t : State} (ht : t.usb.reg i = s.usb.reg i) :
    t.stallTransaction.usb.reg i = s.usb.reg i :=
  (t.usb.stall_reg hi.1).trans ht

private theorem step_setup_reg {d : List Byte} (hd : ¬s.Dispatches (.setup d)) (hi : Outer i) :
    (step c s (.setup d)).usb.reg i = s.usb.reg i := by
  have hread : (s.tookSetup d (s.usb.readSetup d)).usb.reg i = s.usb.reg i :=
    s.usb.readSetup_reg hi.received d
  rw [step_setup_eq]
  apply acknowledged_reg hi
  split
  · exact stalled_reg hi hread
  rename_i hlen
  split
  · rename_i hdir
    exact absurd ⟨not_not.mp hlen, hdir⟩ hd
  unfold usbControlSetupWrite
  split
  · exact stalled_reg hi hread
  · exact (Usb.nakSet_reg _ hi.1 false).trans hread

private theorem step_out_reg {d : List Byte} (hd : ¬s.Dispatches (.out d)) (hi : Outer i) :
    (step c s (.out d)).usb.reg i = s.usb.reg i := by
  have hread : ∀ len, (s.usb.readData d len).reg i = s.usb.reg i :=
    s.usb.readData_reg hi.received d
  by_cases hf : s.usbFsmState = .dataOut
  · rw [step_out_dataOut_eq c s d hf]
    apply acknowledged_reg hi
    split
    · exact hread _
    · exact stalled_reg hi (hread _)
  by_cases hf' : s.usbFsmState = .lastDataOut
  · have hshort : ¬s.packetsize.toNat ≤ d.length % 1024 := fun h => hd ⟨hf', h⟩
    rw [step_out_lastDataOut_eq c s d hf', if_neg hshort]
    exact acknowledged_reg hi (stalled_reg hi (hread _)) _
  by_cases hs : s.usbFsmState = .statusOut
  · rw [step_out_statusOut_eq c s d hs]
    apply acknowledged_reg hi
    have hc := complete_usb c { s.raise (.out d) with
      usb := s.usb.readData d 0#16, usbFsmState := .idle }
    exact (congrFun (congrArg Usb.reg hc) i).trans (hread _)
  · rw [step_out_other c s d ⟨hf, hf', hs⟩]
    have hraise : (s.usb.raise (.out d)).reg i = s.usb.reg i :=
      s.usb.raise_reg hi.received (by simp)
    exact acknowledged_reg hi (stalled_reg hi hraise) _

private theorem step_in_reg (hl : ¬s.Latches .inComplete) (hi : Outer i) :
    (step c s .inComplete).usb.reg i = s.usb.reg i := by
  let t := (s.raise .inComplete).mapUsb (Usb.clrEpTxCtr 0)
  have ht : t.usb.reg i = s.usb.reg i := s.usb.raise_in_reg hi.received
  have hfsm : t.usbFsmState = s.usbFsmState := rfl
  rw [step_inComplete]
  apply acknowledged_reg hi
  rw [usbdControlIn, hfsm]
  split
  · exact (t.sendChunk_reg hi.1).trans ht
  · exact (Usb.nakSet_reg _ hi.1 false).trans ht
  · rename_i hf
    have hno : ¬((complete c t).usbReq.bmRequestType = 0#8 ∧
        (complete c t).usbReq.bRequest = 5#8) := by
      rw [(complete_fields c t).2.1]
      exact fun h => hl ⟨rfl, hf, h⟩
    dsimp only
    rw [latchAddress, if_neg hno, complete_usb]
    exact ht
  · exact stalled_reg hi ht

end Quiet

theorem step_reg_of_quiet {e : Event} (hr : e ≠ .reset) (hd : ¬s.Dispatches e)
    (hl : ¬s.Latches e) (hi : Outer i) : (step c s e).usb.reg i = s.usb.reg i := by
  cases e with
  | reset => exact absurd rfl hr
  | setup d => exact step_setup_reg hd hi
  | out d => exact step_out_reg hd hi
  | inComplete => exact step_in_reg hl hi

theorem step_reg_of_latches {e : Event} (hl : s.Latches e) (hi : Outer i) :
    (step c s e).usb.reg i =
      if i = usbDaddrReg then ((s.usbReq.wValue &&& usbDaddrAddr) ||| usbDaddrEf) &&& 0x00FF#16
      else s.usb.reg i := by
  obtain ⟨rfl, hf, hreq⟩ := hl
  let t := (s.raise .inComplete).mapUsb (Usb.clrEpTxCtr 0)
  have ht : t.usb.reg i = s.usb.reg i := s.usb.raise_in_reg hi.received
  have hfsm : t.usbFsmState = .statusIn := hf
  have hreq' : (complete c t).usbReq = s.usbReq := (complete_fields c t).2.1
  have hyes : (complete c t).usbReq.bmRequestType = 0#8 ∧ (complete c t).usbReq.bRequest = 5#8 := by
    rw [hreq']
    exact hreq
  rw [step_inComplete, usbdControlIn, hfsm]
  refine (Usb.acknowledge_reg _ hi _).trans ?_
  dsimp only
  rw [latchAddress, if_pos hyes, hreq', complete_usb]
  by_cases hd : i = usbDaddrReg
  · rw [if_pos hd, hd]
    exact Usb.setReg_reg_self _ _ _
  · rw [if_neg hd]
    exact (Usb.setReg_reg_of_ne _ hd _).trans ht

theorem statusIn_cases {e : Event} (hf : (step c s e).usbFsmState = .statusIn) :
    e = .reset ∧ s.usbFsmState = .statusIn ∨
      s.Dispatches e ∧ (s.handling c e).1 ≠ .notsupp := by
  by_cases hd : s.Dispatches e
  · refine .inr ⟨hd, fun hq => ?_⟩
    rw [step_of_refused c hd hq] at hf
    cases hf
  cases e with
  | reset =>
    rw [step_reset] at hf
    exact .inl ⟨rfl, hf⟩
  | setup d =>
    rw [step_setup_eq] at hf
    split at hf
    · cases hf
    rename_i hlen
    split at hf
    · rename_i hdir
      exact absurd ⟨not_not.mp hlen, hdir⟩ hd
    unfold usbControlSetupWrite at hf
    split at hf
    · cases hf
    · have hf' : (if BitVec.ofNat 16 bMaxPacketSize0 <
          (s.tookSetup d (s.usb.readSetup d)).usbReq.wLength then UsbFsmState.dataOut
          else .lastDataOut) = .statusIn := hf
      split at hf' <;> cases hf'
  | out d =>
    rcases step_out_fsm c s d with hf' | ⟨-, hf' | hf'⟩ | ⟨hl, -⟩
    · cases hf'.symm.trans hf
    · cases hf'.symm.trans hf
    · cases hf'.symm.trans hf
    · have hshort : ¬s.packetsize.toNat ≤ d.length % 1024 := fun h => hd ⟨hl, h⟩
      rw [step_out_lastDataOut_eq c s d hl, if_neg hshort] at hf
      cases hf
  | inComplete =>
    rcases step_in_fsm c s with hf' | ⟨-, hf' | hf'⟩ | ⟨-, hf'⟩ <;> cases hf'.symm.trans hf

end State

end Swindle
