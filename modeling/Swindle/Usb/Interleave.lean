import Swindle.Usb.Answer
import Swindle.Usb.Outer
import Swindle.Usb.Stage

/-! Host transactions and polls in any order: what the hardware answers, the flags it keeps for
the next poll, and what the poll makes of them. -/
namespace Swindle
open Machine

namespace Usb

def flag (m : BitVec 16) (u : Usb) : Bool := u.reg 0 &&& m ≠ 0#16

/-- Whether endpoint 0 takes part in a transaction: in a SETUP always. -/
def accepts (u : Usb) : Event → Bool
  | .reset => true
  | .setup _ => true
  | .out _ => u.reg 0 &&& usbEpRxStat = usbEpRxStatValid
  | .inComplete => u.reg 0 &&& usbEpTxStat = usbEpTxStatValid

end Usb

/-- Stage 2 on the bus. A bus reset waits in ISTR until the next poll. -/
structure Bus where
  state : State
  resetPending : Bool

/-- What happens next: something on the bus, or the main loop calls `do_usb_poll`. -/
inductive Action
  | host (e : Event)
  | poll
  deriving DecidableEq, Repr

namespace Bus

/-- ISTR as the poll reads it; DIR is 1 whenever CTR_RX is set. -/
def istr (b : Bus) : BitVec 16 :=
  (if b.resetPending then usbIstrReset else 0#16) |||
    (if b.state.usb.flag usbEpRxCtr || b.state.usb.flag usbEpTxCtr then usbIstrCtr else 0#16) |||
    (if b.state.usb.flag usbEpRxCtr then usbIstrDir else 0#16)

/-- The state that the poll starts from. -/
def polled (b : Bus) : State :=
  { b.state with
    usb := { b.state.usb with reg := Function.update b.state.usb.reg usbIstrReg b.istr }
    dfu := b.state.dfu.newPoll
    out := [] }

def act (c : Device) (b : Bus) : Action → Bus
  | .host e =>
    if b.state.usb.accepts e then
      { state := b.state.mapUsb fun u => u.raise e
        resetPending := b.resetPending || e = .reset }
    else b
  | .poll => ⟨b.polled.doUsbPoll c, false⟩

end Bus

/-! What the hardware writes to endpoint 0's register. -/

namespace Usb

variable (u : Usb) (d : List Byte)

theorem raise_setup_flags : (u.raise (.setup d)).flag usbEpRxCtr = true ∧
    (u.raise (.setup d)).flag usbEpTxCtr = u.flag usbEpTxCtr := by
  constructor
  · change decide (putBits _ _ (u.reg 0) &&& usbEpRxCtr ≠ 0#16) = true
    rw [putBits_and (by decide)]
    decide
  · change decide (putBits _ _ (u.reg 0) &&& usbEpTxCtr ≠ 0#16) = _
    rw [putBits_and_of_disjoint (by decide)]
    rfl

theorem raise_out_flags : (u.raise (.out d)).flag usbEpRxCtr = true ∧
    (u.raise (.out d)).flag usbEpTxCtr = u.flag usbEpTxCtr ∧
    (u.raise (.out d)).flag usbEpSetup = false := by
  refine ⟨?_, ?_, ?_⟩
  · change decide (putBits _ _ _ &&& usbEpRxCtr ≠ 0#16) = true
    rw [putBits_and (by decide)]
    decide
  · change decide (putBits _ _ (u.reg 0 ^^^ usbEpRxDtog) &&& usbEpTxCtr ≠ 0#16) = _
    rw [putBits_and_of_disjoint (by decide), xor_and,
      show usbEpRxDtog &&& usbEpTxCtr = 0#16 by decide, BitVec.xor_zero]
    rfl
  · change decide (putBits _ _ _ &&& usbEpSetup ≠ 0#16) = false
    rw [putBits_and (by decide)]
    decide

theorem raise_in_flags : (u.raise .inComplete).flag usbEpTxCtr = true ∧
    (u.raise .inComplete).flag usbEpRxCtr = u.flag usbEpRxCtr ∧
    (u.raise .inComplete).flag usbEpSetup = u.flag usbEpSetup := by
  have hkeep : ∀ m, (usbEpTxCtr ||| usbEpTxStat) &&& m = 0#16 → usbEpTxDtog &&& m = 0#16 →
      (u.raise .inComplete).flag m = u.flag m := by
    intro m hm hd
    change decide (putBits _ _ (u.reg 0 ^^^ usbEpTxDtog) &&& m ≠ 0#16) = _
    rw [putBits_and_of_disjoint hm, xor_and, hd, BitVec.xor_zero]
    rfl
  refine ⟨?_, hkeep _ (by decide) (by decide), hkeep _ (by decide) (by decide)⟩
  change decide (putBits _ _ _ &&& usbEpTxCtr ≠ 0#16) = true
  rw [putBits_and (by decide)]
  decide

theorem raise_reset_flags : (u.raise .reset).flag usbEpRxCtr = u.flag usbEpRxCtr ∧
    (u.raise .reset).flag usbEpTxCtr = u.flag usbEpTxCtr ∧
    (u.raise .reset).flag usbEpSetup = false ∧ (u.raise .reset).reg 0 &&& usbEpTxStat = 0#16 := by
  have hreg : (u.raise .reset).reg 0 = u.reg 0 &&& (usbEpRxCtr ||| usbEpTxCtr) := rfl
  refine ⟨?_, ?_, ?_, ?_⟩
  · simp [flag, hreg, BitVec.and_assoc, show (usbEpRxCtr ||| usbEpTxCtr) &&& usbEpRxCtr =
      usbEpRxCtr by decide]
  · simp [flag, hreg, BitVec.and_assoc, show (usbEpRxCtr ||| usbEpTxCtr) &&& usbEpTxCtr =
      usbEpTxCtr by decide]
  · simp [flag, hreg, BitVec.and_assoc, show (usbEpRxCtr ||| usbEpTxCtr) &&& usbEpSetup =
      0#16 by decide]
  · simp [hreg, BitVec.and_assoc, show (usbEpRxCtr ||| usbEpTxCtr) &&& usbEpTxStat =
      0#16 by decide]

end Usb

/-! Software raises no flag. -/

namespace Usb

structure NoNewFlags (u v : Usb) : Prop where
  rxCtr : u.flag usbEpRxCtr = false → v.flag usbEpRxCtr = false
  txCtr : u.flag usbEpTxCtr = false → v.flag usbEpTxCtr = false
  setup : v.flag usbEpSetup = u.flag usbEpSetup

variable {u v : Usb}

theorem NoNewFlags.refl (u : Usb) : NoNewFlags u u := ⟨id, id, rfl⟩

theorem NoNewFlags.trans {w : Usb} (h : NoNewFlags u v) (h' : NoNewFlags v w) : NoNewFlags u w :=
  ⟨h'.rxCtr ∘ h.rxCtr, h'.txCtr ∘ h.txCtr, h'.setup.trans h.setup⟩

theorem NoNewFlags.rxCtr_up (h : NoNewFlags u v) (hv : v.flag usbEpRxCtr = true) :
    u.flag usbEpRxCtr = true := by
  cases hu : u.flag usbEpRxCtr with
  | true => rfl
  | false => cases (h.rxCtr hu).symm.trans hv

theorem NoNewFlags.txCtr_up (h : NoNewFlags u v) (hv : v.flag usbEpTxCtr = true) :
    u.flag usbEpTxCtr = true := by
  cases hu : u.flag usbEpTxCtr with
  | true => rfl
  | false => cases (h.txCtr hu).symm.trans hv

theorem flag_congr (h : v.reg 0 = u.reg 0) (m : BitVec 16) : v.flag m = u.flag m := by
  rw [flag, h]
  rfl

theorem NoNewFlags.of_reg (h : v.reg 0 = u.reg 0) : NoNewFlags u v := by
  constructor
  · intro hu
    rwa [flag_congr h]
  · intro hu
    rwa [flag_congr h]
  · exact flag_congr h _

/-- A store can only clear CTR bits, and leaves SETUP alone. -/
private theorem stored_flags (old v : BitVec 16) :
    stored 0 old v &&& usbEpRxCtr = old &&& (v &&& usbEpRxCtr) ∧
      stored 0 old v &&& usbEpTxCtr = old &&& (v &&& usbEpTxCtr) ∧
      stored 0 old v &&& usbEpSetup = old &&& usbEpSetup := by
  refine ⟨?_, ?_, ?_⟩
  all_goals
    rw [stored_and (by decide)]
    simp [usbEpRxCtr, usbEpTxCtr, usbEpRxDtog, usbEpRxStat, usbEpTxDtog, usbEpTxStat, usbEpSetup,
      usbEpType, usbEpKind, usbEpAddr]

theorem setReg_noNewFlags (u : Usb) (off : ℕ) (w : BitVec 16) : NoNewFlags u (u.setReg off w) := by
  by_cases h0 : 0 = off
  · subst h0
    obtain ⟨hrx, htx, hsetup⟩ := stored_flags (u.reg 0) w
    have hclear : ∀ m : BitVec 16, u.flag m = false → u.reg 0 &&& (w &&& m) = 0#16 := by
      intro m hm
      rw [BitVec.and_comm w, ← BitVec.and_assoc, not_not.mp (of_decide_eq_false hm),
        BitVec.zero_and]
    have hreg : (u.setReg 0 w).reg 0 = stored 0 (u.reg 0) w := setReg_reg_self 0 w u
    constructor
    · intro h
      simp [flag, hreg, hrx, hclear _ h]
    · intro h
      simp [flag, hreg, htx, hclear _ h]
    · simp [flag, hreg, hsetup]
  · exact .of_reg (setReg_reg_of_ne u h0 w)

variable (u)

theorem nakSet_noNewFlags (nak : Bool) : NoNewFlags u (u.usbdEpNakSet 0#8 nak) := by
  rw [usbdEpNakSet, if_neg (by decide)]
  have hforce : NoNewFlags u { u with usbForceNak := Function.update u.usbForceNak 0 nak } :=
    .of_reg rfl
  cases nak with
  | true => exact hforce.trans (setReg_noNewFlags _ _ _)
  | false => exact hforce.trans (setReg_noNewFlags _ _ _)

theorem readPacket_noNewFlags (len : BitVec 16) :
    NoNewFlags u (u.usbdEpReadPacket 0#8 len).2 := by
  unfold usbdEpReadPacket
  dsimp only
  split
  · exact .refl u
  · split
    · exact setReg_noNewFlags _ _ _
    · exact (setReg_noNewFlags _ _ _).trans (setReg_noNewFlags _ _ _)

theorem nakSet_rxStat : (u.usbdEpNakSet 0#8 true).reg 0 &&& usbEpRxStat ≠ usbEpRxStatValid := by
  have hnak : (u.usbdEpNakSet 0#8 true).reg 0 &&& usbEpRxStat = usbEpRxStatNak :=
    setEpRxStat_rxStat _ (show 0 < 8 by decide) (by decide)
  rw [hnak]
  decide

theorem clrEpRxCtr_flag : (u.clrEpRxCtr 0).flag usbEpRxCtr = false := by
  have hreg := setReg_reg_self 0 ((u.reg 0 &&& usbEpNtoggleMsk &&& ~~~usbEpRxCtr) ||| usbEpTxCtr) u
  have hzero : (u.clrEpRxCtr 0).reg 0 &&& usbEpRxCtr = 0#16 := by
    rw [clrEpRxCtr, hreg, (stored_flags _ _).1, BitVec.and_assoc _ usbEpNtoggleMsk,
      and_or_masked (by decide) (by decide), BitVec.and_zero]
  simp [flag, hzero]

theorem clrEpTxCtr_flag : (u.clrEpTxCtr 0).flag usbEpTxCtr = false := by
  have hreg := setReg_reg_self 0 ((u.reg 0 &&& usbEpNtoggleMsk &&& ~~~usbEpTxCtr) ||| usbEpRxCtr) u
  have hzero : (u.clrEpTxCtr 0).reg 0 &&& usbEpTxCtr = 0#16 := by
    rw [clrEpTxCtr, hreg, (stored_flags _ _).2.1, BitVec.and_assoc _ usbEpNtoggleMsk,
      and_or_masked (by decide) (by decide), BitVec.and_zero]
  simp [flag, hzero]

theorem readPacket_rxCtr {u : Usb} (h : u.reg 0 &&& usbEpRxStat ≠ usbEpRxStatValid)
    (len : BitVec 16) : (u.usbdEpReadPacket 0#8 len).2.flag usbEpRxCtr = false := by
  have hclr := u.clrEpRxCtr_flag
  unfold usbdEpReadPacket
  dsimp only
  rw [show (0#8).toNat = 0 from rfl, if_neg h]
  split
  · exact hclr
  · exact (setReg_noNewFlags _ _ _).rxCtr hclr

theorem writePacket_noNewFlags (len : BitVec 16) :
    NoNewFlags u (u.usbdEpWritePacket 0#8 len).2 := by
  unfold usbdEpWritePacket
  split
  · exact .refl u
  · have hcount : NoNewFlags u { u with txCount := Function.update u.txCount (u.entry 0) len } :=
      .of_reg rfl
    exact hcount.trans (setReg_noNewFlags _ _ _)

theorem epStallSet_noNewFlags (addr : Byte) (stall : Bool) :
    NoNewFlags u (u.epStallSet addr stall) := by
  by_cases h0 : addr = 0#8
  · subst h0
    rw [epStallSet_zero]
    cases stall with
    | true => exact (setReg_noNewFlags _ _ _).trans (setReg_noNewFlags _ _ _)
    | false =>
      exact (setReg_noNewFlags _ _ _).trans ((setReg_noNewFlags _ _ _).trans
        (setReg_noNewFlags _ _ _))
  by_cases hdir : addr &&& 0x80#8 = 0#8
  · rw [epStallSet_rx u hdir h0]
    cases stall with
    | true => exact setReg_noNewFlags _ _ _
    | false => exact (setReg_noNewFlags _ _ _).trans (setReg_noNewFlags _ _ _)
  · rw [epStallSet_tx u hdir]
    cases stall with
    | true => exact setReg_noNewFlags _ _ _
    | false => exact (setReg_noNewFlags _ _ _).trans (setReg_noNewFlags _ _ _)

theorem epSetup_zero (type : Byte) (size : BitVec 16) :
    NoNewFlags u (u.usbdEpSetup 0#8 type size) ∧
      (u.usbdEpSetup 0#8 type size).reg 0 &&& usbEpTxStat = usbEpTxStatNak := by
  let u₁ := (u.setEpAddr 0 0#16).setEpType 0 (typelookup type)
  let u₂ := ({ u₁ with
    txAddr := Function.update u₁.txAddr (u₁.entry 0) u₁.usbPmTop }.clrEpTxDtog 0).setEpTxStat 0
      usbEpTxStatNak
  let u₃ := { u₂ with
    usbPmTop := u₂.usbPmTop + size
    rxAddr := Function.update u₂.rxAddr (u₂.entry 0) (u₂.usbPmTop + size) }.setEpRxBufsize 0
      (size.setWidth 32)
  let u₄ := (u₃.clrEpRxDtog 0).setEpRxStat 0 usbEpRxStatValid
  have hdef : (u.usbdEpSetup 0#8 type size).reg = u₄.reg := by
    unfold usbdEpSetup
    dsimp only
    rw [if_pos (by decide), if_pos (by decide)]
    rfl
  have h₁ : NoNewFlags u u₁ := (setReg_noNewFlags _ _ _).trans (setReg_noNewFlags _ _ _)
  have h₂ : NoNewFlags u₁ u₂ := by
    have haddr : NoNewFlags u₁
        { u₁ with txAddr := Function.update u₁.txAddr (u₁.entry 0) u₁.usbPmTop } := .of_reg rfl
    exact haddr.trans ((setReg_noNewFlags _ _ _).trans (setReg_noNewFlags _ _ _))
  have hreg₃ : u₃.reg = u₂.reg := setEpRxBufsize_reg _ _ _
  have h₃ : NoNewFlags u₂ u₃ := .of_reg (congrFun hreg₃ 0)
  have h₄ : NoNewFlags u₃ u₄ := (setReg_noNewFlags _ _ _).trans (setReg_noNewFlags _ _ _)
  constructor
  · exact (h₁.trans (h₂.trans (h₃.trans h₄))).trans (.of_reg (congrFun hdef 0))
  · have htx₄ : u₄.reg 0 &&& usbEpTxStat = (u₃.clrEpRxDtog 0).reg 0 &&& usbEpTxStat :=
      setEpRxStat_txStat _ (by decide) (by decide)
    have htx₂ : u₂.reg 0 &&& usbEpTxStat = usbEpTxStatNak :=
      setEpTxStat_txStat _ (by decide) (by decide)
    rw [hdef, htx₄, clrEpRxDtog_stat _ (by decide) (.inr rfl), hreg₃, htx₂]

end Usb

namespace State

open Usb

variable (c : Device) (s : State)

theorem dispatch_noNewFlags : NoNewFlags s.usb (s.usbControlRequestDispatch c).2.usb := by
  by_cases hd : s.usbReq.isDfu
  · rw [dispatch_of_dfu c hd]
    exact .refl _
  · rw [dispatch_of_not_dfu c hd]
    obtain ⟨x, hx⟩ := decides_standard c s.usbReq
    rw [hx.eq s rfl]
    change NoNewFlags s.usb (x.usb s.usb)
    rcases hx.regs with hu | hu | ⟨set, -, hu⟩
    · rw [hu]
      exact .refl _
    · rw [hu]
      exact .of_reg (s.usb.configure_reg (.inl rfl))
    · rw [hu]
      exact s.usb.epStallSet_noNewFlags _ _

theorem stall_noNewFlags : NoNewFlags s.usb s.stallTransaction.usb :=
  s.usb.epStallSet_noNewFlags 0#8 true

theorem sendChunk_noNewFlags : NoNewFlags s.usb s.usbControlSendChunk.usb := by
  obtain ⟨len, hu⟩ := s.sendChunk_usb
  rw [hu]
  exact s.usb.writePacket_noNewFlags len

theorem setupRead_noNewFlags : NoNewFlags s.usb (s.usbControlSetupRead c).usb := by
  have hq : NoNewFlags s.usb (s.readDispatch c).2.usb :=
    dispatch_noNewFlags c { s with dataoff := 0#16 }
  rw [setupRead_eq]
  split
  · exact hq.trans (stall_noNewFlags _)
  · split
    · exact hq.trans (sendChunk_noNewFlags (readyToSend (s.readDispatch c).2 s.usbReq.wLength))
    · exact hq.trans ((s.readDispatch c).2.usb.writePacket_noNewFlags _)

theorem setupWrite_noNewFlags : NoNewFlags s.usb s.usbControlSetupWrite.usb := by
  unfold usbControlSetupWrite
  split
  · exact s.stall_noNewFlags
  · exact s.usb.nakSet_noNewFlags false

/-- Every chunk handed over in the poll has been accepted by the endpoint. -/
def ChunksSent (s : State) : Prop :=
  ∀ off len, .chunk off len ∈ s.out →
    .tx (slice s.usbdControlBuffer off.toNat len.toNat) ∈ s.out

variable {c s}

theorem chunksSent_of_none (h : ∀ off len, .chunk off len ∉ s.out) : s.ChunksSent :=
  fun off len hc => absurd hc (h off len)

theorem chunksSent_of_nil (h : s.out = []) : s.ChunksSent := by
  apply chunksSent_of_none
  simp [h]

theorem stall_chunksSent (h : s.out = []) : s.stallTransaction.ChunksSent := by
  have hout : s.stallTransaction.out = .stall :: s.out := rfl
  apply chunksSent_of_none
  simp [hout, h]

theorem sendChunk_sent (hr : s.usb.txBusy 0#8 = false) (ho : s.out = []) :
    s.usbControlSendChunk.ChunksSent := by
  intro off len hc
  rw [sendChunk_out, writeChunk_out, hr, ho] at hc ⊢
  rw [sendChunk_usbdControlBuffer]
  simp only [Bool.false_eq_true, if_false, List.mem_cons, reduceCtorEq, UsbAct.chunk.injEq,
    List.not_mem_nil, or_false, false_or] at hc
  rw [hc.1, hc.2]
  exact List.mem_cons_self

theorem controlSetup_cases (c : Device) (s : State) : ∃ t : State,
    t.usb = ((s.usb.usbdEpNakSet 0#8 true).usbdEpReadPacket 0#8 8#16).2 ∧ t.out = s.out ∧
      (s.usbdControlSetup c = t.stallTransaction ∨
        s.usbdControlSetup c = t.usbControlSetupRead c ∨
        s.usbdControlSetup c = t.usbControlSetupWrite) := by
  let p := (s.usb.usbdEpNakSet 0#8 true).usbdEpReadPacket 0#8 8#16
  refine ⟨{ s with usbCompleteCb := none, usb := p.2, usbReq := s.usbReq.patch p.1 }, rfl, rfl, ?_⟩
  unfold usbdControlSetup
  dsimp only
  split
  · exact .inl rfl
  · split
    · exact .inr (.inl rfl)
    · exact .inr (.inr rfl)

theorem setupRead_fsm (c : Device) (t : State) :
    (t.usbControlSetupRead c).usbFsmState = .idle ∨ (t.usbControlSetupRead c).Answering := by
  by_cases hn : (t.readDispatch c).1 = .notsupp
  · rw [setupRead_of_refused c hn]
    exact .inl rfl
  · exact .inr (setupRead_of_taken c hn).2.2.2

theorem setupRead_sent {t : State} (hr : t.usb.txBusy 0#8 = false) (ho : t.out = []) :
    (t.usbControlSetupRead c).ChunksSent := by
  have hout : (t.readDispatch c).2.out = [] :=
    (dispatch_out c { t with dataoff := 0#16 }).1.trans ho
  rw [setupRead_eq]
  split
  · exact stall_chunksSent hout
  · split
    · exact sendChunk_sent (dispatch_ready c { t with dataoff := 0#16 } hr) hout
    · apply chunksSent_of_none
      intro off len hc
      have hc' : .chunk off len ∈ (if (t.readDispatch c).2.usb.txBusy 0#8 then
        (t.readDispatch c).2.out else .tx [] :: (t.readDispatch c).2.out) := hc
      rw [hout] at hc'
      split at hc' <;> simp at hc'

section ControlSetup

variable (c s)

theorem controlSetup_noNewFlags : NoNewFlags s.usb (s.usbdControlSetup c).usb := by
  obtain ⟨t, husb, -, hcases⟩ := controlSetup_cases c s
  have hread : NoNewFlags s.usb t.usb := by
    rw [husb]
    exact (nakSet_noNewFlags _ _).trans (readPacket_noNewFlags _ _)
  rcases hcases with h | h | h
  · rw [h]
    exact hread.trans t.stall_noNewFlags
  · rw [h]
    exact hread.trans (setupRead_noNewFlags c t)
  · rw [h]
    exact hread.trans t.setupWrite_noNewFlags

theorem controlSetup_rxCtr : (s.usbdControlSetup c).usb.flag usbEpRxCtr = false := by
  obtain ⟨t, husb, -, hcases⟩ := controlSetup_cases c s
  have hread : t.usb.flag usbEpRxCtr = false := by
    rw [husb]
    exact readPacket_rxCtr (nakSet_rxStat s.usb) _
  rcases hcases with h | h | h
  · rw [h]
    exact t.stall_noNewFlags.rxCtr hread
  · rw [h]
    exact (setupRead_noNewFlags c t).rxCtr hread
  · rw [h]
    exact t.setupWrite_noNewFlags.rxCtr hread

theorem controlSetup_expecting (h : (s.usbdControlSetup c).Expecting) :
    (s.usbdControlSetup c).usb.reg 0 &&& usbEpTxStat = s.usb.reg 0 &&& usbEpTxStat := by
  obtain ⟨t, husb, -, hcases⟩ := controlSetup_cases c s
  have hread : t.usb.reg 0 &&& usbEpTxStat = s.usb.reg 0 &&& usbEpTxStat := by
    rw [husb, readPacket_txStat, nakSet_txStat]
  rcases hcases with hstep | hstep | hstep
  · rw [hstep] at h
    rcases h with h | h <;> cases h
  · rw [hstep] at h
    exfalso
    rcases setupRead_fsm c t with hf | hf | hf | hf <;> rcases h with h | h <;>
      cases h.symm.trans hf
  · rw [hstep] at h ⊢
    unfold usbControlSetupWrite at h ⊢
    split
    · rename_i hlong
      rw [if_pos hlong] at h
      rcases h with h | h <;> cases h
    · exact (nakSet_txStat _ false).trans hread

theorem controlSetup_fsm : (s.usbdControlSetup c).usbFsmState ≠ .statusOut := by
  obtain ⟨t, -, -, hcases⟩ := controlSetup_cases c s
  rcases hcases with h | h | h
  · rw [h]
    exact UsbFsmState.noConfusion
  · rw [h]
    rcases setupRead_fsm c t with hf | hf | hf | hf <;> rw [hf] <;> decide
  · rw [h]
    unfold usbControlSetupWrite
    split
    · exact UsbFsmState.noConfusion
    · dsimp only
      split <;> decide

variable {c s}

theorem controlSetup_sent (hr : s.usb.reg 0 &&& usbEpTxStat ≠ usbEpTxStatValid)
    (ho : s.out = []) : (s.usbdControlSetup c).ChunksSent := by
  obtain ⟨t, husb, hout, hcases⟩ := controlSetup_cases c s
  have hready : t.usb.txBusy 0#8 = false := by
    apply txBusy_eq_false
    rwa [husb, readPacket_txStat, nakSet_txStat]
  have hnone : t.out = [] := hout.trans ho
  rcases hcases with h | h | h
  · rw [h]
    exact stall_chunksSent hnone
  · rw [h]
    exact setupRead_sent hready hnone
  · rw [h]
    unfold usbControlSetupWrite
    split
    · exact stall_chunksSent hnone
    · exact chunksSent_of_nil hnone

end ControlSetup

/-- What the OUT handler makes of a packet, from whatever state. -/
structure OutDone (s r : State) : Prop where
  flags : NoNewFlags s.usb r.usb
  out : ∀ a ∈ r.out, a = .stall ∨ s.Expecting ∧ a = .tx []
  fsm : r.usbFsmState ≠ .statusOut
  expecting : r.Expecting →
    s.Expecting ∧ r.usb.reg 0 &&& usbEpTxStat = s.usb.reg 0 &&& usbEpTxStat
  other : ¬s.Expecting →
    r.usb.reg 0 &&& usbEpTxStat = s.usb.reg 0 &&& usbEpTxStat ∨
      r.usb.reg 0 &&& usbEpTxStat = usbEpTxStatStall

theorem stall_txStat (t : State) :
    t.stallTransaction.usb.reg 0 &&& usbEpTxStat = usbEpTxStatStall := by
  change (t.usb.epStallSet 0#8 true).reg 0 &&& usbEpTxStat = _
  rw [epStallSet_zero, if_pos rfl, setEpRxStat_txStat _ (by decide) (by decide),
    setEpTxStat_txStat _ (by decide) (by decide)]

theorem stall_not_expecting (t : State) : ¬t.stallTransaction.Expecting := by
  rintro (h | h) <;> cases h

theorem outDone_stall {t : State} (hf : NoNewFlags s.usb t.usb) (ho : t.out = []) :
    OutDone s t.stallTransaction where
  flags := hf.trans t.stall_noNewFlags
  out := by
    intro a ha
    have ha' : a ∈ UsbAct.stall :: t.out := ha
    rw [ho] at ha'
    exact .inl (List.mem_singleton.mp ha')
  fsm := UsbFsmState.noConfusion
  expecting := fun h => absurd h t.stall_not_expecting
  other := fun _ => .inr t.stall_txStat

theorem outDone_taken {t : State} (hf : NoNewFlags s.usb t.usb) (ho : t.out = [])
    (hexp : s.Expecting) (htx : t.usb.reg 0 &&& usbEpTxStat = s.usb.reg 0 &&& usbEpTxStat)
    (hfsm : t.usbFsmState ≠ .statusOut) : OutDone s t where
  flags := hf
  out := by simp [ho]
  fsm := hfsm
  expecting := fun _ => ⟨hexp, htx⟩
  other := fun h => absurd hexp h

theorem outDone_answered {t : State} (hf : NoNewFlags s.usb t.usb) (ho : t.out = [])
    (hexp : s.Expecting) :
    OutDone s { t.usbdEpWritePacket 0#8 [] with usbFsmState := .statusIn } where
  flags := hf.trans (writePacket_noNewFlags _ _)
  out := by
    intro a ha
    have ha' : a ∈ (if t.usb.txBusy 0#8 then t.out else .tx [] :: t.out) := ha
    rw [ho] at ha'
    split at ha'
    · cases ha'
    · exact .inr ⟨hexp, List.mem_singleton.mp ha'⟩
  fsm := UsbFsmState.noConfusion
  expecting := by rintro (h | h) <;> cases h
  other := fun h => absurd hexp h

theorem outDone_status (c : Device) (ho : s.out = []) :
    OutDone s { complete c { s with
      usb := (s.usb.usbdEpReadPacket 0#8 0#16).2
      usbFsmState := .idle } with usbCompleteCb := none } := by
  let r : State := { s with
    usb := (s.usb.usbdEpReadPacket 0#8 0#16).2
    usbFsmState := .idle }
  obtain ⟨-, -, hidle, hsame⟩ := complete_fields c r
  have hu : (complete c r).usb = r.usb := complete_usb c r
  constructor
  · change NoNewFlags s.usb (complete c r).usb
    rw [hu]
    exact s.usb.readPacket_noNewFlags _
  · intro a ha
    have ha' : a ∈ (complete c r).out := ha
    rw [hsame.trans ho] at ha'
    cases ha'
  · change (complete c r).usbFsmState ≠ _
    rw [hidle]
    exact UsbFsmState.noConfusion
  · intro h
    rcases h with h | h <;> cases hidle.symm.trans h
  · intro _
    left
    change (complete c r).usb.reg 0 &&& _ = _
    rw [hu]
    exact readPacket_txStat _ _

theorem recvChunk_cases (s : State) : ∃ t : State,
    t.usb = (s.usb.usbdEpReadPacket 0#8 s.packetsize).2 ∧ t.out = s.out ∧
      t.usbFsmState = s.usbFsmState ∧
      (s.usbControlRecvChunk = (false, t.stallTransaction) ∨
        s.usbControlRecvChunk = (true, t)) := by
  let p := s.usb.usbdEpReadPacket 0#8 s.packetsize
  let t : State := { s with
    usb := p.2
    usbdControlBuffer := blit s.datasize.toNat p.1 s.usbdControlBuffer }
  have hdef : s.usbControlRecvChunk =
      if p.1.length ≠ s.packetsize.toNat then (false, t.stallTransaction)
      else (true, { t with datasize := t.datasize + s.packetsize }) := rfl
  by_cases hl : p.1.length ≠ s.packetsize.toNat
  · rw [if_pos hl] at hdef
    exact ⟨t, rfl, rfl, rfl, .inl hdef⟩
  · rw [if_neg hl] at hdef
    exact ⟨{ t with datasize := t.datasize + s.packetsize }, rfl, rfl, rfl, .inr hdef⟩

/-- What the OUT handler leaves; `t` is the state in which the packet of a data stage has been
read. -/
inductive OutHandled (c : Device) (s t : State) : State → Prop
  | short (h : s.Expecting) : OutHandled c s t t.stallTransaction
  | last (h : s.usbFsmState = .dataOut) : OutHandled c s t { t with usbFsmState := .lastDataOut }
  | more (h : s.usbFsmState = .dataOut) : OutHandled c s t t
  | answered (h : s.usbFsmState = .lastDataOut) :
    OutHandled c s t { (t.usbControlRequestDispatch c).2.usbdEpWritePacket 0#8 [] with
      usbFsmState := .statusIn }
  | refused (h : s.usbFsmState = .lastDataOut) :
    OutHandled c s t (t.usbControlRequestDispatch c).2.stallTransaction
  | status (h : s.usbFsmState = .statusOut) :
    OutHandled c s t { complete c { s with
      usb := (s.usb.usbdEpReadPacket 0#8 0#16).2
      usbFsmState := .idle } with usbCompleteCb := none }
  | unexpected (h : ¬s.Expecting) : OutHandled c s t s.stallTransaction

theorem controlOut_handled (c : Device) (s : State) : ∃ t : State,
    t.usb = (s.usb.usbdEpReadPacket 0#8 s.packetsize).2 ∧ t.out = s.out ∧
      t.usbFsmState = s.usbFsmState ∧ OutHandled c s t (s.usbdControlOut c) := by
  obtain ⟨t, husb, hout, hfsm, hrecv⟩ := recvChunk_cases s
  refine ⟨t, husb, hout, hfsm, ?_⟩
  unfold usbdControlOut
  cases hf : s.usbFsmState with
  | dataOut =>
    rcases hrecv with hr | hr
    · rw [hr]
      exact .short (.inl hf)
    · rw [hr]
      dsimp only
      rw [if_neg (by decide)]
      split
      · exact .last hf
      · exact .more hf
  | lastDataOut =>
    rcases hrecv with hr | hr
    · rw [hr]
      exact .short (.inr hf)
    · rw [hr]
      dsimp only
      rw [if_neg (by decide)]
      split
      · exact .answered hf
      · exact .refused hf
  | statusOut => exact .status hf
  | _ => exact .unexpected (by simp [Expecting, hf])

theorem controlOut_done (c : Device) (ho : s.out = []) : OutDone s (s.usbdControlOut c) := by
  obtain ⟨t, husb, hout, hfsm, hcase⟩ := controlOut_handled c s
  have htx : t.usb.reg 0 &&& usbEpTxStat = s.usb.reg 0 &&& usbEpTxStat := by
    rw [husb, readPacket_txStat]
  have hflags : NoNewFlags s.usb t.usb := husb ▸ s.usb.readPacket_noNewFlags _
  have hnone : t.out = [] := hout.trans ho
  have hq := hflags.trans (dispatch_noNewFlags c t)
  have hqout : (t.usbControlRequestDispatch c).2.out = [] := (dispatch_out c t).1.trans hnone
  generalize s.usbdControlOut c = r at hcase ⊢
  cases hcase with
  | short _ => exact outDone_stall hflags hnone
  | last hf => exact outDone_taken hflags hnone (.inl hf) htx UsbFsmState.noConfusion
  | more hf => exact outDone_taken hflags hnone (.inl hf) htx (by rw [hfsm, hf]; decide)
  | answered hf => exact outDone_answered hq hqout (.inr hf)
  | refused _ => exact outDone_stall hq hqout
  | status _ => exact outDone_status c ho
  | unexpected _ => exact outDone_stall (.refl _) ho

theorem busReset_zero (s : State) : NoNewFlags s.usb s.busReset.usb ∧
    s.busReset.usb.reg 0 &&& usbEpTxStat = usbEpTxStatNak := by
  let u := { s.usb.clrIstr usbIstrReset with usbPmTop := usbdPmTop }
  have hclr : NoNewFlags s.usb (s.usb.clrIstr usbIstrReset) := setReg_noNewFlags _ _ _
  have hu : NoNewFlags (s.usb.clrIstr usbIstrReset) u := .of_reg rfl
  obtain ⟨hsetup, htx⟩ := u.epSetup_zero 0#8 (BitVec.ofNat 16 bMaxPacketSize0)
  have hreg : s.busReset.usb.reg 0 =
      (u.usbdEpSetup 0#8 0#8 (BitVec.ofNat 16 bMaxPacketSize0)).reg 0 :=
    setReg_reg_of_ne _ (by decide) _
  constructor
  · exact (hclr.trans hu).trans (hsetup.trans (.of_reg hreg))
  · rw [hreg, htx]

section ControlIn

variable (c s)

theorem controlIn_noNewFlags : NoNewFlags s.usb (s.usbdControlIn c).usb := by
  unfold usbdControlIn
  cases s.usbFsmState with
  | dataIn => exact s.sendChunk_noNewFlags
  | lastDataIn => exact s.usb.nakSet_noNewFlags false
  | statusIn =>
    change NoNewFlags s.usb (complete c s).latchAddress.usb
    have hu := complete_usb c s
    unfold latchAddress
    split
    · dsimp only
      rw [hu]
      exact setReg_noNewFlags _ _ _
    · rw [hu]
      exact .refl _
  | _ => exact s.stall_noNewFlags

variable {c s}

theorem controlIn_sent (hr : s.usb.reg 0 &&& usbEpTxStat ≠ usbEpTxStatValid) (ho : s.out = []) :
    (s.usbdControlIn c).ChunksSent := by
  unfold usbdControlIn
  cases s.usbFsmState with
  | dataIn => exact sendChunk_sent (txBusy_eq_false hr) ho
  | lastDataIn => exact chunksSent_of_nil ho
  | statusIn =>
    apply chunksSent_of_none
    intro off len hc
    have hout : (complete c s).out = [] := (complete_fields c s).2.2.2.trans ho
    have hc' : .chunk off len ∈ (complete c s).latchAddress.out := hc
    unfold latchAddress at hc'
    split at hc' <;> simp [hout] at hc'
  | _ => exact stall_chunksSent ho

end ControlIn

end State

/-! One poll: a bus reset, a SETUP or OUT packet, an IN completion, or nothing. -/

namespace Bus

variable (c : Device) (b : Bus)

theorem act_accepted {e : Event} (h : b.state.usb.accepts e) :
    b.act c (.host e) =
      ⟨b.state.mapUsb fun u => u.raise e, b.resetPending || e = .reset⟩ := if_pos h

theorem act_ignored {e : Event} (h : ¬b.state.usb.accepts e) : b.act c (.host e) = b := if_neg h

theorem polled_reg : b.polled.usb.reg = Function.update b.state.usb.reg usbIstrReg b.istr := rfl

theorem polled_reg_zero : b.polled.usb.reg 0 = b.state.usb.reg 0 := by
  rw [polled_reg, Function.update_of_ne (by decide)]

theorem polled_istr : b.polled.usb.reg usbIstrReg = b.istr := by
  rw [polled_reg, Function.update_self]

theorem polled_flag (m : BitVec 16) : b.polled.usb.flag m = b.state.usb.flag m :=
  Usb.flag_congr b.polled_reg_zero m

theorem poll_reset (h : b.resetPending = true) :
    (b.act c .poll).state = b.polled.busReset := by
  have hi : b.istr &&& usbIstrReset ≠ 0#16 := by
    rw [istr, h]
    cases b.state.usb.flag usbEpRxCtr <;> cases b.state.usb.flag usbEpTxCtr <;> decide
  change b.polled.doUsbPoll c = _
  rw [State.doUsbPoll, polled_istr]
  exact if_pos hi

theorem poll_setup (h : b.resetPending = false) (hrx : b.state.usb.flag usbEpRxCtr = true)
    (hs : b.state.usb.flag usbEpSetup = true) :
    (b.act c .poll).state =
      (b.polled.usbdControlSetup c).mapUsb (State.acknowledge b.istr) := by
  have hi : b.istr = usbIstrCtr ||| usbIstrDir := by simp [istr, h, hrx]
  have hs' : b.polled.usb.reg 0 &&& usbEpSetup ≠ 0#16 := by
    rw [polled_reg_zero]
    exact of_decide_eq_true hs
  change b.polled.doUsbPoll c = _
  rw [State.doUsbPoll, polled_istr, hi, if_neg (by decide), if_pos (by decide), if_pos (by decide)]
  exact congrArg (State.mapUsb _) (if_pos hs')

theorem poll_out (h : b.resetPending = false) (hrx : b.state.usb.flag usbEpRxCtr = true)
    (hs : b.state.usb.flag usbEpSetup = false) :
    (b.act c .poll).state =
      (b.polled.usbdControlOut c).mapUsb (State.acknowledge b.istr) := by
  have hi : b.istr = usbIstrCtr ||| usbIstrDir := by simp [istr, h, hrx]
  have hs' : ¬b.polled.usb.reg 0 &&& usbEpSetup ≠ 0#16 := by
    rw [polled_reg_zero]
    exact of_decide_eq_false hs
  change b.polled.doUsbPoll c = _
  rw [State.doUsbPoll, polled_istr, hi, if_neg (by decide), if_pos (by decide), if_pos (by decide)]
  exact congrArg (State.mapUsb _) (if_neg hs')

theorem poll_in (h : b.resetPending = false) (hrx : b.state.usb.flag usbEpRxCtr = false)
    (htx : b.state.usb.flag usbEpTxCtr = true) :
    (b.act c .poll).state =
      ((b.polled.mapUsb (Usb.clrEpTxCtr 0)).usbdControlIn c).mapUsb
        (State.acknowledge b.istr) := by
  have hi : b.istr = usbIstrCtr := by simp [istr, h, hrx, htx]
  change b.polled.doUsbPoll c = _
  rw [State.doUsbPoll, polled_istr, hi, if_neg (by decide), if_pos (by decide), if_neg (by decide)]
  rfl

theorem poll_nothing (h : b.resetPending = false) (hrx : b.state.usb.flag usbEpRxCtr = false)
    (htx : b.state.usb.flag usbEpTxCtr = false) :
    (b.act c .poll).state = b.polled.mapUsb (State.acknowledge b.istr) := by
  have hi : b.istr = 0#16 := by simp [istr, h, hrx, htx]
  change b.polled.doUsbPoll c = _
  rw [State.doUsbPoll, polled_istr, hi, if_neg (by decide), if_neg (by decide)]

/-- Where every event is polled before the next, the bus takes the steps of the event-driven
machine. -/
theorem poll_host {e : Event} (h : b.resetPending = false)
    (hrx : b.state.usb.flag usbEpRxCtr = false) (htx : b.state.usb.flag usbEpTxCtr = false)
    (ha : b.state.usb.accepts e) : ((b.act c (.host e)).act c .poll).state = step c b.state e := by
  let b' : Bus := ⟨b.state.mapUsb fun u => u.raise e, b.resetPending || e = .reset⟩
  have hact : b.act c (.host e) = b' := b.act_accepted c ha
  have histr : b'.istr = (b.state.usb.raise e).reg usbIstrReg := by
    have hflag : ∀ m, b'.state.usb.flag m = (b.state.usb.raise e).flag m := fun _ => rfl
    have hpending : b'.resetPending = (b.resetPending || e = .reset) := rfl
    rw [istr, hflag, hflag, hpending, h]
    cases e with
    | reset =>
      obtain ⟨hr, ht, -, -⟩ := b.state.usb.raise_reset_flags
      rw [hr, ht, hrx, htx]
      rfl
    | setup d =>
      obtain ⟨hr, -⟩ := b.state.usb.raise_setup_flags d
      have hvalue : (b.state.usb.raise (.setup d)).reg usbIstrReg = usbIstrCtr ||| usbIstrDir := rfl
      simp [hr, hvalue]
    | out d =>
      obtain ⟨hr, -, -⟩ := b.state.usb.raise_out_flags d
      have hvalue : (b.state.usb.raise (.out d)).reg usbIstrReg = usbIstrCtr ||| usbIstrDir := rfl
      simp [hr, hvalue]
    | inComplete =>
      obtain ⟨ht, hr, -⟩ := b.state.usb.raise_in_flags
      have hvalue : (b.state.usb.raise .inComplete).reg usbIstrReg = usbIstrCtr := rfl
      simp [hr, ht, hrx, hvalue]
  have hreg : Function.update (b.state.usb.raise e).reg usbIstrReg b'.istr =
      (b.state.usb.raise e).reg := by
    rw [histr, Function.update_eq_self]
  rw [hact]
  change State.doUsbPoll c { b.state with
    usb := { b.state.usb.raise e with
      reg := Function.update (b.state.usb.raise e).reg usbIstrReg b'.istr }
    dfu := b.state.dfu.newPoll
    out := [] } = _
  rw [hreg]
  rfl

end Bus

end Swindle
