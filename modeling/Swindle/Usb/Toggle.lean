import Swindle.Usb.Outer
import Swindle.Usb.Stage

/-! Data toggles of endpoint 0. The hardware flips them; a status macro that wrote a one to
either bit would flip it too. -/
namespace Swindle
open Machine

def usbEpDtog : BitVec 16 := usbEpRxDtog ||| usbEpTxDtog

/-- What the protocol makes of the toggles: a SETUP starts both at DATA1, every other packet
flips the toggle of its direction. -/
def Event.toggle : Event → BitVec 16 → BitVec 16
  | .reset, _ => 0#16
  | .setup _, _ => usbEpDtog
  | .out _, x => x ^^^ usbEpRxDtog
  | .inComplete, x => x ^^^ usbEpTxDtog

/-- The toggle that a request sets back: CLEAR_FEATURE of ENDPOINT_HALT does it to the direction
of endpoint 0 that it is addressed to. -/
def UsbSetupData.clearsToggle (req : UsbSetupData) : BitVec 16 :=
  if req.haltFeature false ∧ Usb.stallReg req.endpoint = 0 then
    if req.endpoint = 0#8 then usbEpRxDtog else usbEpTxDtog
  else 0#16

namespace Usb

def toggles (u : Usb) : BitVec 16 := u.reg 0 &&& usbEpDtog

variable (u : Usb)

theorem toggles_of_reg {v : Usb} (h : v.reg 0 = u.reg 0) : v.toggles = u.toggles := by
  rw [toggles, toggles, h]

/-- A store flips the toggles that it names. -/
theorem setReg_toggles (v : BitVec 16) :
    (u.setReg 0 v).toggles = u.toggles ^^^ (v &&& usbEpDtog) := by
  rw [toggles, toggles, setReg_reg_self, stored_and (by decide), ← xor_and]
  simp [usbEpDtog, usbEpRxCtr, usbEpTxCtr, usbEpRxDtog, usbEpRxStat, usbEpTxDtog, usbEpTxStat,
    usbEpSetup, usbEpType, usbEpKind, usbEpAddr]

theorem setReg_toggles_kept {v : BitVec 16} (hv : v &&& usbEpDtog = 0#16) :
    (u.setReg 0 v).toggles = u.toggles := by
  rw [setReg_toggles, hv, BitVec.xor_zero]

/-! No macro but the two that clear a toggle stores one. -/

theorem statWord_dtog {t stat : BitVec 16} (r : BitVec 16) (ht : t &&& usbEpDtog = 0#16)
    (hs : stat &&& usbEpDtog = 0#16) :
    (((r &&& t) ^^^ stat) ||| (usbEpRxCtr ||| usbEpTxCtr)) &&& usbEpDtog = 0#16 := by
  have hctr : (usbEpRxCtr ||| usbEpTxCtr) &&& usbEpDtog = 0#16 := by decide
  rw [BitVec.and_or_distrib_right, hctr, BitVec.or_zero, xor_and, BitVec.and_assoc, ht, hs,
    BitVec.and_zero, BitVec.xor_zero]

theorem setEpRxStat_toggles {stat : BitVec 16} (hs : stat &&& usbEpDtog = 0#16) :
    (u.setEpRxStat 0 stat).toggles = u.toggles :=
  u.setReg_toggles_kept (statWord_dtog _ (by decide) hs)

theorem setEpTxStat_toggles {stat : BitVec 16} (hs : stat &&& usbEpDtog = 0#16) :
    (u.setEpTxStat 0 stat).toggles = u.toggles :=
  u.setReg_toggles_kept (statWord_dtog _ (by decide) hs)

theorem clrEpRxCtr_toggles : (u.clrEpRxCtr 0).toggles = u.toggles := by
  apply setReg_toggles_kept
  rw [BitVec.and_assoc]
  exact and_or_masked (by decide) (by decide)

theorem clrEpTxCtr_toggles : (u.clrEpTxCtr 0).toggles = u.toggles := by
  apply setReg_toggles_kept
  rw [BitVec.and_assoc]
  exact and_or_masked (by decide) (by decide)

theorem xor_and_self (x m : BitVec 16) : x ^^^ (x &&& m) = x &&& ~~~m := by
  apply BitVec.eq_of_getLsbD_eq
  intro i hi
  simp only [BitVec.getLsbD_xor, BitVec.getLsbD_and, BitVec.getLsbD_not, hi]
  cases x.getLsbD i <;> simp

theorem clrEpRxDtog_toggles : (u.clrEpRxDtog 0).toggles = u.toggles &&& ~~~usbEpRxDtog := by
  have hmask : (usbEpNtoggleMsk ||| usbEpRxDtog) &&& usbEpDtog = usbEpDtog &&& usbEpRxDtog := by
    decide
  rw [clrEpRxDtog, setReg_toggles, BitVec.and_assoc, hmask, ← BitVec.and_assoc]
  exact xor_and_self u.toggles usbEpRxDtog

theorem clrEpTxDtog_toggles : (u.clrEpTxDtog 0).toggles = u.toggles &&& ~~~usbEpTxDtog := by
  have hmask : (usbEpNtoggleMsk ||| usbEpTxDtog) &&& usbEpDtog = usbEpDtog &&& usbEpTxDtog := by
    decide
  rw [clrEpTxDtog, setReg_toggles, BitVec.and_assoc, hmask, ← BitVec.and_assoc]
  exact xor_and_self u.toggles usbEpTxDtog

/-! The endpoint layer. -/

theorem nakSet_toggles (nak : Bool) : (u.usbdEpNakSet 0#8 nak).toggles = u.toggles := by
  let v : Usb := { u with usbForceNak := Function.update u.usbForceNak 0 nak }
  have hv : v.toggles = u.toggles := rfl
  rw [usbdEpNakSet, if_neg (by decide)]
  cases nak with
  | true => exact (v.setEpRxStat_toggles (by decide)).trans hv
  | false => exact (v.setEpRxStat_toggles (by decide)).trans hv

theorem readPacket_toggles (len : BitVec 16) :
    (u.usbdEpReadPacket 0#8 len).2.toggles = u.toggles := by
  unfold usbdEpReadPacket
  dsimp only
  have hclr : (u.clrEpRxCtr 0).toggles = u.toggles := u.clrEpRxCtr_toggles
  split
  · rfl
  · split
    · exact hclr
    · exact (setEpRxStat_toggles _ (by decide)).trans hclr

theorem writePacket_toggles (len : BitVec 16) :
    (u.usbdEpWritePacket 0#8 len).2.toggles = u.toggles := by
  unfold usbdEpWritePacket
  split
  · rfl
  · exact setEpTxStat_toggles
      { u with txCount := Function.update u.txCount (u.entry 0) len } (by decide)

theorem stall_toggles : (u.epStallSet 0#8 true).toggles = u.toggles := by
  rw [epStallSet_zero, if_pos rfl, setEpRxStat_toggles _ (by decide),
    setEpTxStat_toggles _ (by decide)]

theorem acknowledge_toggles (istr : BitVec 16) : (State.acknowledge istr u).toggles = u.toggles :=
  u.toggles_of_reg (u.acknowledge_reg_zero istr)

theorem configure_toggles : u.configure.toggles = u.toggles :=
  u.toggles_of_reg (u.configure_reg (.inl rfl))

theorem epSetup_toggles (type : Byte) (size : BitVec 16) :
    (u.usbdEpSetup 0#8 type size).toggles = 0#16 := by
  let u₁ : Usb := ((u.setEpAddr 0 0#16).setEpType 0 (typelookup type))
  let u₂ : Usb :=
    ({ u₁ with txAddr := Function.update u₁.txAddr (u₁.entry 0) u₁.usbPmTop } : Usb).clrEpTxDtog 0
  let u₃ : Usb := u₂.setEpTxStat 0 usbEpTxStatNak
  let u₄ : Usb := { u₃ with
    usbPmTop := u₃.usbPmTop + size
    rxAddr := Function.update u₃.rxAddr (u₃.entry 0) (u₃.usbPmTop + size) }
  let u₅ : Usb := u₄.setEpRxBufsize 0 (size.setWidth 32)
  have hdef : (u.usbdEpSetup 0#8 type size).toggles =
      ((u₅.clrEpRxDtog 0).setEpRxStat 0 usbEpRxStatValid).toggles := rfl
  have h₂ : u₂.toggles = u₁.toggles &&& ~~~usbEpTxDtog := clrEpTxDtog_toggles _
  have h₃ : u₃.toggles = u₂.toggles := setEpTxStat_toggles _ (by decide)
  have h₅ : u₅.toggles = u₃.toggles := u₄.toggles_of_reg
    (congrFun (u₄.setEpRxBufsize_reg 0 (size.setWidth 32)) 0)
  have hnone : usbEpDtog &&& ~~~usbEpTxDtog &&& ~~~usbEpRxDtog = 0#16 := by decide
  rw [hdef, setEpRxStat_toggles _ (by decide), clrEpRxDtog_toggles, h₅, h₃, h₂, toggles,
    BitVec.and_assoc, BitVec.and_assoc, ← BitVec.and_assoc usbEpDtog, hnone, BitVec.and_zero]

theorem epStallSet_toggles (addr : Byte) (stall : Bool) :
    (u.epStallSet addr stall).toggles = u.toggles &&& ~~~(
      if stall = false ∧ stallReg addr = 0 then
        if addr = 0#8 then usbEpRxDtog else usbEpTxDtog
      else 0#16) := by
  have hkept : u.toggles &&& ~~~0#16 = u.toggles := BitVec.and_allOnes
  by_cases hr : stallReg addr = 0
  swap
  · rw [if_neg fun h => hr h.2, hkept]
    exact u.toggles_of_reg (u.epStallSet_reg_of_ne addr stall fun h => hr h.symm)
  by_cases h0 : addr = 0#8
  · rw [h0, epStallSet_zero]
    cases stall with
    | true =>
      rw [if_pos rfl, if_neg (by simp), hkept, setEpRxStat_toggles _ (by decide),
        setEpTxStat_toggles _ (by decide)]
    | false =>
      rw [if_neg (by decide), if_pos (by decide), if_pos rfl, setEpRxStat_toggles _ (by decide),
        clrEpRxDtog_toggles, setEpTxStat_toggles _ (by decide)]
  have hdir : addr &&& 0x80#8 ≠ 0#8 := by
    intro hdir
    refine h0 (BitVec.eq_of_toNat_eq ?_)
    rw [stallReg_eq hdir, hr]
    rfl
  rw [epStallSet_tx u hdir, hr]
  cases stall with
  | true => rw [if_pos rfl, if_neg (by simp), hkept, setEpTxStat_toggles _ (by decide)]
  | false =>
    rw [if_neg (by decide), if_pos (by decide), if_neg h0, clrEpTxDtog_toggles,
      setEpTxStat_toggles _ (by decide)]

theorem readSetup_toggles (d : List Byte) : (u.readSetup d).toggles = usbEpDtog := by
  rw [readSetup, readPacket_toggles, nakSet_toggles]
  change putBits _ _ _ &&& usbEpDtog = _
  rw [putBits_and (by decide)]
  decide

theorem readData_toggles (d : List Byte) (len : BitVec 16) :
    (u.readData d len).toggles = u.toggles ^^^ usbEpRxDtog := by
  rw [readData, readPacket_toggles]
  change putBits _ _ (u.reg 0 ^^^ usbEpRxDtog) &&& usbEpDtog = _
  rw [putBits_and_of_disjoint (by decide), xor_and]
  rfl

theorem raise_out_toggles (d : List Byte) :
    (u.raise (.out d)).toggles = u.toggles ^^^ usbEpRxDtog := by
  change putBits _ _ (u.reg 0 ^^^ usbEpRxDtog) &&& usbEpDtog = _
  rw [putBits_and_of_disjoint (by decide), xor_and]
  rfl

theorem raise_in_toggles :
    ((u.raise .inComplete).clrEpTxCtr 0).toggles = u.toggles ^^^ usbEpTxDtog := by
  rw [clrEpTxCtr_toggles]
  change putBits _ _ (u.reg 0 ^^^ usbEpTxDtog) &&& usbEpDtog = _
  rw [putBits_and_of_disjoint (by decide), xor_and]
  rfl

end Usb

section Poll

variable (c : Device) (s : State)

theorem haltFeature_not_dfu {req : UsbSetupData} {set : Bool} (h : req.haltFeature set) :
    ¬req.isDfu := by
  intro hdfu
  have hstd : req.bmRequestType &&& 0x60#8 = 0#8 := by
    simp only [UsbSetupData.haltFeature, UsbSetupData.toEndpoint, Bool.and_eq_true,
      decide_eq_true_eq] at h
    exact h.1.1.1
  exact State.isDfu_not_standard hdfu hstd

theorem standardRequest_halt {set : Bool} (h : s.usbReq.haltFeature set) :
    s.usbdStandardRequest c =
      (.handled, s.mapUsb (Usb.epStallSet s.usbReq.endpoint set)) := by
  simp only [UsbSetupData.haltFeature, UsbSetupData.toEndpoint, Bool.and_eq_true,
    decide_eq_true_eq] at h
  obtain ⟨⟨⟨htype, hrec⟩, hreq⟩, hvalue⟩ := h
  rw [State.usbdStandardRequest, if_neg (not_not.mpr htype), hrec]
  have hend : s.usbdStandardRequestEndpoint = State.endpointFeature set s := by
    rw [State.usbdStandardRequestEndpoint, hreq]
    cases set <;> rfl
  exact hend.trans (if_pos hvalue)

theorem dispatch_toggles :
    (s.usbControlRequestDispatch c).2.usb.toggles =
      s.usb.toggles &&& ~~~s.usbReq.clearsToggle := by
  have hkept : s.usb.toggles &&& ~~~0#16 = s.usb.toggles := BitVec.and_allOnes
  by_cases hh : s.usbReq.haltFeature false
  · have hd := haltFeature_not_dfu hh
    rw [State.dispatch_of_not_dfu c hd, standardRequest_halt c s hh]
    refine (s.usb.epStallSet_toggles s.usbReq.endpoint false).trans ?_
    simp only [UsbSetupData.clearsToggle, hh, true_and]
  have hnone : s.usbReq.clearsToggle = 0#16 := if_neg fun h => hh h.1
  rw [hnone, hkept]
  by_cases hd : s.usbReq.isDfu
  · rw [State.dispatch_of_dfu c hd]
    rfl
  rw [State.dispatch_of_not_dfu c hd]
  obtain ⟨x, hx⟩ := decides_standard c s.usbReq
  rw [hx.eq s rfl]
  change (x.usb s.usb).toggles = _
  rcases hx.regs with hu | hu | ⟨set, hset, hu⟩
  · rw [hu]
    rfl
  · rw [hu]
    exact s.usb.configure_toggles
  · cases set with
    | false => exact absurd hset hh
    | true =>
      rw [hu, s.usb.epStallSet_toggles, if_neg (by simp)]
      exact hkept

theorem setupRead_toggles :
    (s.usbControlSetupRead c).usb.toggles = s.usb.toggles &&& ~~~s.usbReq.clearsToggle := by
  have hdis : (s.readDispatch c).2.usb.toggles = s.usb.toggles &&& ~~~s.usbReq.clearsToggle :=
    dispatch_toggles c { s with dataoff := 0#16 }
  rw [State.setupRead_eq, ← hdis]
  split
  · exact Usb.stall_toggles _
  · split
    · obtain ⟨len, hu⟩ := (State.readyToSend (s.readDispatch c).2 s.usbReq.wLength).sendChunk_usb
      rw [hu]
      exact Usb.writePacket_toggles _ len
    · exact Usb.writePacket_toggles _ _

theorem handOver_toggles :
    (s.handOver c).usb.toggles = s.usb.toggles &&& ~~~s.usbReq.clearsToggle := by
  rw [← dispatch_toggles c s, State.handOver]
  dsimp only
  refine (Usb.acknowledge_toggles _ _).trans ?_
  split
  · exact Usb.writePacket_toggles _ _
  · exact Usb.stall_toggles _

/-- What the software adds to the toggling of the hardware in one poll. -/
def State.clearsToggle (s : State) (e : Event) : BitVec 16 :=
  if s.Dispatches e then (s.requestOf e).clearsToggle else 0#16

theorem clearsToggle_of_not {s : State} {e : Event} (h : ¬s.Dispatches e) (x : BitVec 16) :
    x &&& ~~~s.clearsToggle e = x := by
  rw [State.clearsToggle, if_neg h]
  exact BitVec.and_allOnes

theorem step_setup_toggles (d : List Byte) :
    (step c s (.setup d)).usb.toggles = usbEpDtog &&& ~~~s.clearsToggle (.setup d) := by
  have hread := s.usb.readSetup_toggles d
  rw [step_setup_eq]
  refine (Usb.acknowledge_toggles _ _).trans ?_
  split
  · rename_i hlen
    rw [clearsToggle_of_not fun h : s.Dispatches (.setup d) => hlen h.1]
    exact (Usb.stall_toggles _).trans hread
  rename_i hlen
  split
  · rename_i hdir
    rw [State.clearsToggle, if_pos ⟨not_not.mp hlen, hdir⟩, ← hread]
    exact setupRead_toggles c _
  · rename_i hdir
    rw [clearsToggle_of_not fun h : s.Dispatches (.setup d) => hdir h.2, ← hread,
      State.usbControlSetupWrite]
    split
    · exact Usb.stall_toggles _
    · exact (s.usb.readSetup d).nakSet_toggles false

theorem step_out_toggles (d : List Byte) :
    (step c s (.out d)).usb.toggles =
      (s.usb.toggles ^^^ usbEpRxDtog) &&& ~~~s.clearsToggle (.out d) := by
  by_cases hd : s.Dispatches (.out d)
  · have hread := s.usb.readData_toggles d s.packetsize
    rw [State.step_out_handed c hd, handOver_toggles, State.clearsToggle, if_pos hd, ← hread]
    rfl
  rw [clearsToggle_of_not hd]
  cases hf : s.usbFsmState with
  | dataOut =>
    rw [step_out_dataOut_eq c s d hf]
    refine (Usb.acknowledge_toggles _ _).trans ?_
    split
    · exact s.usb.readData_toggles d _
    · exact (Usb.stall_toggles _).trans (s.usb.readData_toggles d _)
  | lastDataOut =>
    rw [step_out_short c s d (.inr hf) fun h => hd ⟨hf, h⟩]
    exact (Usb.acknowledge_toggles _ _).trans
      ((Usb.stall_toggles _).trans (s.usb.readData_toggles d _))
  | statusOut =>
    rw [step_out_statusOut_eq c s d hf]
    refine (Usb.acknowledge_toggles _ _).trans ?_
    change (State.complete c _).usb.toggles = _
    rw [State.complete_usb]
    exact s.usb.readData_toggles d 0#16
  | _ =>
    rw [step_out_other c s d (by rw [hf]; decide)]
    exact (Usb.acknowledge_toggles _ _).trans
      ((Usb.stall_toggles _).trans (s.usb.raise_out_toggles d))

theorem controlIn_toggles : (s.usbdControlIn c).usb.toggles = s.usb.toggles := by
  unfold State.usbdControlIn
  split
  · obtain ⟨len, hu⟩ := s.sendChunk_usb
    rw [hu]
    exact s.usb.writePacket_toggles len
  · exact s.usb.nakSet_toggles false
  · change (s.complete c).latchAddress.usb.toggles = _
    have hu := s.complete_usb c
    unfold State.latchAddress
    split
    · rw [← hu]
      exact Usb.toggles_of_reg _ (Usb.setReg_reg_of_ne _ (by decide) _)
    · rw [hu]
  · exact s.usb.stall_toggles

theorem step_in_toggles :
    (step c s .inComplete).usb.toggles = s.usb.toggles ^^^ usbEpTxDtog := by
  rw [step_inComplete, ← s.usb.raise_in_toggles]
  exact (Usb.acknowledge_toggles _ _).trans (controlIn_toggles c _)

theorem step_reset_toggles : (step c s .reset).usb.toggles = 0#16 := by
  rw [step_reset, State.busReset]
  refine (Usb.toggles_of_reg _ (Usb.setReg_reg_of_ne _ (by decide) _)).trans ?_
  exact Usb.epSetup_toggles _ _ _

theorem step_toggles (e : Event) :
    (step c s e).usb.toggles = e.toggle s.usb.toggles &&& ~~~s.clearsToggle e := by
  cases e with
  | setup d => exact step_setup_toggles c s d
  | out d => exact step_out_toggles c s d
  | inComplete =>
    rw [clearsToggle_of_not (show ¬s.Dispatches .inComplete from id)]
    exact step_in_toggles c s
  | reset =>
    rw [clearsToggle_of_not (show ¬s.Dispatches .reset from id)]
    exact step_reset_toggles c s

end Poll

/-- The toggles a host keeps for endpoint 0 along a run. -/
def State.noteToggle (s : State) (e : Event) (x : BitVec 16) : BitVec 16 :=
  e.toggle x &&& ~~~s.clearsToggle e

/-- Data toggles never slip: whatever the events and their order, the toggles of the device are
those that the protocol prescribes. -/
theorem toggles_follow (c : Device) (s : State) (es : List Event) :
    run (watch (step c) State.noteToggle) (s, s.usb.toggles) es =
      (run (step c) s es, (run (step c) s es).usb.toggles) := by
  induction es generalizing s with
  | nil => rfl
  | cons e es ih =>
    have hone : watch (step c) State.noteToggle (s, s.usb.toggles) e =
        (step c s e, (step c s e).usb.toggles) := by
      rw [step_toggles c s e]
      rfl
    rw [run_cons, hone, ih, run_cons]

end Swindle
