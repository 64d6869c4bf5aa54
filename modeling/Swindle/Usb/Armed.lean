import Swindle.Usb.Interleave

/-! What the control FSM waits for, and whether endpoint 0 is armed for it. The main loop polls
as often as it likes; at most one event is on the bus between two polls. -/
namespace Swindle
open Machine

namespace Usb

/-- Endpoint 0 takes the next OUT packet. -/
def RxArmed (u : Usb) : Prop := u.reg 0 &&& usbEpRxStat = usbEpRxStatValid

/-- Endpoint 0 answers the next IN token with the packet loaded. -/
def TxArmed (u : Usb) : Prop := u.reg 0 &&& usbEpTxStat = usbEpTxStatValid

instance (u : Usb) : Decidable u.RxArmed := inferInstanceAs (Decidable (_ = _))
instance (u : Usb) : Decidable u.TxArmed := inferInstanceAs (Decidable (_ = _))

theorem nakSet_rxArmed (u : Usb) : (u.usbdEpNakSet 0#8 false).RxArmed :=
  setEpRxStat_rxStat { u with usbForceNak := Function.update u.usbForceNak 0 false }
    (show 0 < 8 by decide) (by decide)

theorem nakSet_forceNak (u : Usb) : (u.usbdEpNakSet 0#8 false).usbForceNak 0 = false := by
  change Function.update u.usbForceNak 0 false 0 = false
  exact Function.update_self ..

theorem readPacket_rxArmed {u : Usb} (hr : ¬u.RxArmed) (hf : u.usbForceNak 0 = false)
    (len : BitVec 16) : (u.usbdEpReadPacket 0#8 len).2.RxArmed ∧
      (u.usbdEpReadPacket 0#8 len).2.usbForceNak 0 = false := by
  have hkept : (u.clrEpRxCtr 0).usbForceNak 0 = false := hf
  have hread : (u.usbdEpReadPacket 0#8 len).2 =
      (u.clrEpRxCtr 0).setEpRxStat 0 usbEpRxStatValid := by
    unfold usbdEpReadPacket
    dsimp only
    unfold RxArmed at hr
    rw [show (0#8).toNat = 0 from rfl, if_neg hr, if_neg (by simp [hkept])]
  rw [hread]
  constructor
  · exact setEpRxStat_rxStat _ (by decide) (by decide)
  · exact hf

theorem writePacket_txArmed {u : Usb} (h : ¬u.TxArmed) (len : BitVec 16) :
    (u.usbdEpWritePacket 0#8 len).2.TxArmed := by
  have hfree : u.txBusy 0#8 = false := txBusy_eq_false h
  unfold usbdEpWritePacket
  rw [if_neg (by simp [hfree])]
  exact setEpTxStat_txStat _ (show 0 < 8 by decide) (by decide)

theorem raise_rxArmed (u : Usb) (d : List Byte) : ¬(u.raise (.out d)).RxArmed := by
  have hnak : (u.raise (.out d)).reg 0 &&& usbEpRxStat = usbEpRxStatNak := by
    change putBits _ _ _ &&& usbEpRxStat = _
    rw [putBits_and (by decide)]
    decide
  rw [RxArmed, hnak]
  decide

theorem acknowledge_forceNak (u : Usb) (istr : BitVec 16) :
    (State.acknowledge istr u).usbForceNak = u.usbForceNak := by
  unfold State.acknowledge
  dsimp only
  repeat' split
  all_goals rfl

end Usb

namespace State

/-- The FSM waits for nothing that endpoint 0 is not armed for. -/
structure Armed (s : State) : Prop where
  rx : s.usbFsmState = .dataOut ∨ s.usbFsmState = .lastDataOut ∨ s.usbFsmState = .statusOut →
    s.usb.RxArmed
  tx : s.usbFsmState = .dataIn ∨ s.usbFsmState = .lastDataIn ∨ s.usbFsmState = .statusIn →
    s.usb.TxArmed

/-- The poll has loaded one packet, the next chunk of a data stage or the empty packet of a
status stage, and the endpoint has accepted it. -/
structure Accepted (s : State) : Prop where
  data : s.usbFsmState = .dataIn ∨ s.usbFsmState = .lastDataIn →
    ∃ off len, s.out = [.tx (slice s.usbdControlBuffer off.toNat len.toNat), .chunk off len]
  status : s.usbFsmState = .statusIn → s.out = [.tx []]

/-- In a data stage to the device the endpoint stays armed when a packet is read, and is free
for the answer. -/
structure Poised (s : State) : Prop extends Armed s where
  expecting : s.Expecting → s.usb.usbForceNak 0 = false ∧ ¬s.usb.TxArmed

/-- What every handler leaves. -/
def Served (s : State) : Prop := s.Poised ∧ s.Accepted

variable {s : State}

theorem served_of_idle (h : s.usbFsmState = .idle) : s.Served := by
  constructor
  · constructor
    · constructor <;> simp [h]
    · simp [Expecting, h]
  · constructor <;> simp [h]

theorem stall_served (t : State) : t.stallTransaction.Served := served_of_idle rfl

theorem sendChunk_served {t : State} (hr : ¬t.usb.TxArmed) (ho : t.out = []) :
    t.usbControlSendChunk.Served := by
  have harmed : t.usbControlSendChunk.usb.TxArmed := by
    obtain ⟨len, hu⟩ := t.sendChunk_usb
    rw [hu]
    exact Usb.writePacket_txArmed hr len
  have hfree : t.usb.txBusy 0#8 = false := Usb.txBusy_eq_false hr
  have hout : t.usbControlSendChunk.out =
      [.tx (slice t.usbControlSendChunk.usbdControlBuffer t.dataoff.toNat t.chunkLen.toNat),
        .chunk t.dataoff t.chunkLen] := by
    rw [sendChunk_out, writeChunk_out, hfree, ho, sendChunk_usbdControlBuffer]
    rfl
  have hfsm := t.sendChunk_usbFsmState
  constructor
  · constructor
    · constructor
      · rcases hfsm with hf | hf <;> simp [hf]
      · exact fun _ => harmed
    · unfold Expecting
      rcases hfsm with hf | hf <;> simp [hf]
  · constructor
    · exact fun _ => ⟨_, _, hout⟩
    · rcases hfsm with hf | hf <;> simp [hf]

theorem status_served {t : State} (hr : ¬t.usb.TxArmed) (ho : t.out = []) :
    Served { t.usbdEpWritePacket 0#8 [] with usbFsmState := .statusIn } := by
  have hfree : t.usb.txBusy 0#8 = false := Usb.txBusy_eq_false hr
  constructor
  · constructor
    · constructor
      · simp
      · exact fun _ => Usb.writePacket_txArmed hr _
    · simp [Expecting]
  · constructor
    · simp
    · intro _
      change (if t.usb.txBusy 0#8 then t.out else .tx [] :: t.out) = _
      rw [hfree, ho]
      rfl

theorem receiving_served {t : State} (hrx : t.usb.RxArmed) (hf : t.usb.usbForceNak 0 = false)
    (htx : ¬t.usb.TxArmed) (hfsm : t.Expecting ∨ t.usbFsmState = .statusOut) : t.Served := by
  constructor
  · constructor
    · constructor
      · exact fun _ => hrx
      · rcases hfsm with (h | h) | h <;> simp [h]
    · exact fun _ => ⟨hf, htx⟩
  · constructor
    · rcases hfsm with (h | h) | h <;> simp [h]
    · rcases hfsm with (h | h) | h <;> simp [h]

theorem Poised.congr {t : State} (h : s.Poised) (hreg : t.usb.reg 0 = s.usb.reg 0)
    (hnak : t.usb.usbForceNak = s.usb.usbForceNak) (hfsm : t.usbFsmState = s.usbFsmState) :
    t.Poised := by
  have hrx : t.usb.RxArmed ↔ s.usb.RxArmed := by rw [Usb.RxArmed, hreg, Usb.RxArmed]
  have htx : t.usb.TxArmed ↔ s.usb.TxArmed := by rw [Usb.TxArmed, hreg, Usb.TxArmed]
  constructor
  · constructor
    · rw [hfsm, hrx]
      exact h.rx
    · rw [hfsm, htx]
      exact h.tx
  · unfold Expecting
    rw [hfsm, hnak, htx]
    exact h.expecting

theorem Poised.acknowledge (h : s.Poised) (istr : BitVec 16) :
    (s.mapUsb (State.acknowledge istr)).Poised :=
  h.congr (s.usb.acknowledge_reg_zero istr) (s.usb.acknowledge_forceNak istr) rfl

/-! The three handlers. -/

section Handlers

variable (c : Device) {t : State}

theorem dispatch_txArmed (h : ¬t.usb.TxArmed) :
    ¬(t.usbControlRequestDispatch c).2.usb.TxArmed :=
  (Usb.ready_iff _).mp (dispatch_ready c t (Usb.txBusy_eq_false h))

theorem setupRead_served (hr : ¬t.usb.TxArmed) (ho : t.out = []) :
    (t.usbControlSetupRead c).Served := by
  have hfree : ¬(t.readDispatch c).2.usb.TxArmed := dispatch_txArmed c hr
  have hout : (t.readDispatch c).2.out = [] :=
    (dispatch_out c { t with dataoff := 0#16 }).1.trans ho
  rw [setupRead_eq]
  split
  · exact stall_served _
  · split
    · exact sendChunk_served hfree hout
    · exact status_served hfree hout

theorem setupWrite_served (hr : ¬t.usb.TxArmed) : t.usbControlSetupWrite.Served := by
  unfold usbControlSetupWrite
  split
  · exact stall_served t
  · apply receiving_served
    · exact t.usb.nakSet_rxArmed
    · exact t.usb.nakSet_forceNak
    · change ¬(t.usb.usbdEpNakSet 0#8 false).TxArmed
      rwa [Usb.TxArmed, Usb.nakSet_txStat]
    · left
      unfold Expecting
      dsimp only
      split <;> simp

theorem controlSetup_served (hr : ¬s.usb.TxArmed) (ho : s.out = []) :
    (s.usbdControlSetup c).Served := by
  obtain ⟨t, husb, hout, hcases⟩ := controlSetup_cases c s
  have hfree : ¬t.usb.TxArmed := by
    rwa [Usb.TxArmed, husb, Usb.readPacket_txStat, Usb.nakSet_txStat]
  rcases hcases with h | h | h
  · rw [h]
    exact stall_served t
  · rw [h]
    exact setupRead_served c hfree (hout.trans ho)
  · rw [h]
    exact setupWrite_served hfree

theorem controlOut_served (hp : s.Expecting → s.usb.usbForceNak 0 = false ∧ ¬s.usb.TxArmed)
    (hr : ¬s.usb.RxArmed) (ho : s.out = []) : (s.usbdControlOut c).Served := by
  obtain ⟨t, husb, hout, hfsm, hcase⟩ := controlOut_handled c s
  have hread : s.Expecting → t.usb.RxArmed ∧ t.usb.usbForceNak 0 = false ∧ ¬t.usb.TxArmed := by
    intro hexp
    obtain ⟨hf, hfree⟩ := hp hexp
    obtain ⟨hrx, hf'⟩ := Usb.readPacket_rxArmed hr hf s.packetsize
    rw [husb]
    refine ⟨hrx, hf', ?_⟩
    rwa [Usb.TxArmed, Usb.readPacket_txStat]
  generalize s.usbdControlOut c = r at hcase ⊢
  cases hcase with
  | short _ => exact stall_served t
  | last hs =>
    obtain ⟨hrx, hf, hfree⟩ := hread (.inl hs)
    exact receiving_served hrx hf hfree (.inl (.inr rfl))
  | more hs =>
    obtain ⟨hrx, hf, hfree⟩ := hread (.inl hs)
    exact receiving_served hrx hf hfree (.inl (.inl (hfsm.trans hs)))
  | answered hs =>
    obtain ⟨-, -, hfree⟩ := hread (.inr hs)
    exact status_served (dispatch_txArmed c hfree) ((dispatch_out c t).1.trans (hout.trans ho))
  | refused _ => exact stall_served _
  | status _ =>
    apply served_of_idle
    exact (complete_fields c { s with
      usb := (s.usb.usbdEpReadPacket 0#8 0#16).2
      usbFsmState := .idle }).2.2.1
  | unexpected _ => exact stall_served s

theorem controlIn_served (hr : ¬s.usb.TxArmed) (ho : s.out = []) :
    (s.usbdControlIn c).Served := by
  unfold usbdControlIn
  cases s.usbFsmState with
  | dataIn => exact sendChunk_served hr ho
  | lastDataIn =>
    apply receiving_served
    · exact s.usb.nakSet_rxArmed
    · exact s.usb.nakSet_forceNak
    · change ¬(s.usb.usbdEpNakSet 0#8 false).TxArmed
      rwa [Usb.TxArmed, Usb.nakSet_txStat]
    · exact .inr rfl
  | statusIn => exact served_of_idle rfl
  | _ => exact stall_served s

theorem controlOut_rxCtr (hr : ¬s.usb.RxArmed) :
    (s.usbdControlOut c).usb.flag usbEpRxCtr = false ∨ s.usbdControlOut c = s.stallTransaction := by
  obtain ⟨t, husb, -, -, hcase⟩ := controlOut_handled c s
  have hread : t.usb.flag usbEpRxCtr = false := by
    rw [husb]
    exact Usb.readPacket_rxCtr hr _
  have hq := dispatch_noNewFlags c t
  generalize s.usbdControlOut c = r at hcase ⊢
  cases hcase with
  | short _ => exact .inl (t.stall_noNewFlags.rxCtr hread)
  | last _ => exact .inl hread
  | more _ => exact .inl hread
  | answered _ => exact .inl ((hq.trans (Usb.writePacket_noNewFlags _ _)).rxCtr hread)
  | refused _ => exact .inl ((hq.trans (stall_noNewFlags _)).rxCtr hread)
  | status _ =>
    left
    change (complete c { s with
      usb := (s.usb.usbdEpReadPacket 0#8 0#16).2
      usbFsmState := .idle }).usb.flag usbEpRxCtr = false
    rw [complete_usb]
    exact Usb.readPacket_rxCtr hr _
  | unexpected _ => exact .inr rfl

end Handlers

theorem stall_not_armed (t : State) :
    ¬t.stallTransaction.usb.RxArmed ∧ ¬t.stallTransaction.usb.TxArmed := by
  have hrx : t.stallTransaction.usb.reg 0 &&& usbEpRxStat = usbEpRxStatStall := by
    change (t.usb.epStallSet 0#8 true).reg 0 &&& usbEpRxStat = _
    rw [Usb.epStallSet_zero, if_pos rfl, Usb.setEpRxStat_rxStat _ (by decide) (by decide)]
  constructor
  · rw [Usb.RxArmed, hrx]
    decide
  · rw [Usb.TxArmed, stall_txStat]
    decide

end State

namespace Bus

/-- At most one event on the bus before the next poll. -/
def arrive (c : Device) (b : Bus) : Option Event → Bus
  | none => b
  | some e => b.act c (.host e)

def turn (c : Device) (b : Bus) (t : Option Event) : Bus := (b.arrive c t).act c .poll

/-- An OUT packet that the FSM did not expect stays on the stalled endpoint: every poll finds
it again, and only a SETUP packet takes its place. -/
structure Stuck (s : State) : Prop where
  fsm : s.usbFsmState = .idle
  setup : s.usb.flag usbEpSetup = false
  rx : ¬s.usb.RxArmed
  tx : ¬s.usb.TxArmed

/-- Between two turns. -/
structure Settled (b : Bus) : Prop where
  noReset : b.resetPending = false
  noTx : b.state.usb.flag usbEpTxCtr = false
  poised : b.state.Poised
  taken : b.state.usb.flag usbEpRxCtr = false ∨ Stuck b.state

/-- What a turn achieves. The poll accepts a packet whenever ISTR has something for it. -/
structure Turned (c : Device) (b : Bus) (t : Option Event) : Prop where
  armed : (b.turn c t).state.Armed
  accepted : (b.arrive c t).istr ≠ 0#16 → (b.turn c t).state.Accepted

section Turns

variable {c : Device} {b : Bus}

theorem Stuck.congr {s t : State} (h : Stuck s) (hreg : t.usb.reg 0 = s.usb.reg 0)
    (hfsm : t.usbFsmState = s.usbFsmState) : Stuck t := by
  constructor
  · exact hfsm.trans h.fsm
  · exact (Usb.flag_congr hreg _).trans h.setup
  · rw [Usb.RxArmed, hreg]
    exact h.rx
  · rw [Usb.TxArmed, hreg]
    exact h.tx

theorem settled_of_poised {s : State} (h : s.Poised) (htx : s.usb.flag usbEpTxCtr = false)
    (hrx : s.usb.flag usbEpRxCtr = false ∨ Stuck s) (istr : BitVec 16) :
    Settled ⟨s.mapUsb (State.acknowledge istr), false⟩ := by
  have hreg := s.usb.acknowledge_reg_zero istr
  constructor
  · rfl
  · exact (Usb.flag_congr hreg _).trans htx
  · exact h.acknowledge istr
  · rcases hrx with hrx | hrx
    · exact .inl ((Usb.flag_congr hreg _).trans hrx)
    · exact .inr (hrx.congr hreg rfl)

theorem stuck_stall {s : State} (h : s.usb.flag usbEpSetup = false) :
    Stuck s.stallTransaction := by
  obtain ⟨hrx, htx⟩ := s.stall_not_armed
  exact ⟨rfl, s.stall_noNewFlags.setup.trans h, hrx, htx⟩

theorem turn_of_served {t : Option Event} {r : State}
    (hpoll : ((b.arrive c t).act c .poll).state =
      r.mapUsb (State.acknowledge (b.arrive c t).istr))
    (hr : r.Served) (htx : r.usb.flag usbEpTxCtr = false)
    (hrx : r.usb.flag usbEpRxCtr = false ∨ Stuck r) :
    Turned c b t ∧ Settled (b.turn c t) := by
  have hturn : b.turn c t = ⟨r.mapUsb (State.acknowledge (b.arrive c t).istr), false⟩ :=
    congrArg (Bus.mk · false) hpoll
  have hsettled := settled_of_poised hr.1 htx hrx (b.arrive c t).istr
  rw [← hturn] at hsettled
  constructor
  · constructor
    · exact hsettled.poised.toArmed
    · intro _
      rw [hturn]
      exact ⟨hr.2.data, hr.2.status⟩
  · exact hsettled

theorem Settled.turn_quiet (h : Settled b) {t : Option Event} (ht : b.arrive c t = b) :
    Turned c b t ∧ Settled (b.turn c t) := by
  cases hrx : b.state.usb.flag usbEpRxCtr with
  | false =>
    have hpoll := b.poll_nothing c h.noReset hrx h.noTx
    have hturn : b.turn c t = ⟨b.polled.mapUsb (State.acknowledge b.istr), false⟩ := by
      rw [turn, ht]
      exact congrArg (Bus.mk · false) hpoll
    have hsettled : Settled (b.turn c t) := by
      rw [hturn]
      apply settled_of_poised
      · exact h.poised.congr b.polled_reg_zero rfl rfl
      · exact (b.polled_flag _).trans h.noTx
      · exact .inl ((b.polled_flag _).trans hrx)
    constructor
    · constructor
      · exact hsettled.poised.toArmed
      · intro hi
        rw [ht] at hi
        simp [istr, h.noReset, hrx, h.noTx] at hi
    · exact hsettled
  | true =>
    have hstuck : Stuck b.state := by
      rcases h.taken with hf | hf
      · cases hf.symm.trans hrx
      · exact hf
    have hstall : b.polled.usbdControlOut c = b.polled.stallTransaction := by
      have hfsm : b.polled.usbFsmState = .idle := hstuck.fsm
      rw [State.usbdControlOut, hfsm]
    apply turn_of_served (r := b.polled.stallTransaction)
    · rw [ht, ← hstall]
      exact b.poll_out c h.noReset hrx hstuck.setup
    · exact b.polled.stall_served
    · exact b.polled.stall_noNewFlags.txCtr ((b.polled_flag _).trans h.noTx)
    · exact .inr (stuck_stall ((b.polled_flag _).trans hstuck.setup))

theorem Settled.turn_setup (h : Settled b) (d : List Byte) :
    Turned c b (some (.setup d)) ∧ Settled (b.turn c (some (.setup d))) := by
  let b' := b.arrive c (some (.setup d))
  obtain ⟨hrx, htx⟩ := b.state.usb.raise_setup_flags d
  have hsetup : b'.state.usb.flag usbEpSetup = true := by
    change decide (putBits _ _ (b.state.usb.reg 0) &&& usbEpSetup ≠ 0#16) = true
    rw [putBits_and (by decide)]
    decide
  have hfree : ¬b'.polled.usb.TxArmed := by
    rw [Usb.TxArmed, b'.polled_reg_zero]
    change (b.state.usb.raise (.setup d)).reg 0 &&& _ ≠ _
    rw [Usb.raise_setup_txStat]
    decide
  have hreset : b'.resetPending = false := by
    change (b.resetPending || _) = false
    simp [h.noReset]
  apply turn_of_served (b'.poll_setup c hreset hrx hsetup)
  · exact State.controlSetup_served c hfree rfl
  · apply (b'.polled.controlSetup_noNewFlags c).txCtr
    exact (b'.polled_flag _).trans (htx.trans h.noTx)
  · exact .inl (b'.polled.controlSetup_rxCtr c)

theorem Settled.turn_out (h : Settled b) (d : List Byte) :
    Turned c b (some (.out d)) ∧ Settled (b.turn c (some (.out d))) := by
  by_cases ha : b.state.usb.accepts (.out d)
  swap
  · exact h.turn_quiet (b.act_ignored c ha)
  let b' : Bus := ⟨b.state.mapUsb fun u => u.raise (.out d), false⟩
  have hb' : b.arrive c (some (.out d)) = b' := by
    rw [arrive, b.act_accepted c ha, h.noReset]
    rfl
  obtain ⟨hrx, htx, hsetup⟩ := b.state.usb.raise_out_flags d
  have hread : ¬b'.polled.usb.RxArmed := by
    rw [Usb.RxArmed, b'.polled_reg_zero]
    exact b.state.usb.raise_rxArmed d
  have hexp : b'.polled.Expecting →
      b'.polled.usb.usbForceNak 0 = false ∧ ¬b'.polled.usb.TxArmed := by
    intro hexp
    obtain ⟨hf, hfree⟩ := h.poised.expecting hexp
    constructor
    · exact hf
    · rw [Usb.TxArmed, b'.polled_reg_zero]
      change (b.state.usb.raise (.out d)).reg 0 &&& _ ≠ _
      rwa [Usb.raise_out_txStat]
  have hdone := State.controlOut_done (s := b'.polled) c rfl
  apply turn_of_served (r := b'.polled.usbdControlOut c)
  · rw [hb']
    exact b'.poll_out c rfl hrx hsetup
  · exact State.controlOut_served c hexp hread rfl
  · exact hdone.flags.txCtr ((b'.polled_flag _).trans (htx.trans h.noTx))
  · rcases State.controlOut_rxCtr c hread with hr | hr
    · exact .inl hr
    · rw [hr]
      exact .inr (stuck_stall ((b'.polled_flag _).trans hsetup))

theorem Settled.turn_in (h : Settled b) :
    Turned c b (some .inComplete) ∧ Settled (b.turn c (some .inComplete)) := by
  by_cases ha : b.state.usb.accepts .inComplete
  swap
  · exact h.turn_quiet (b.act_ignored c ha)
  let b' : Bus := ⟨b.state.mapUsb fun u => u.raise .inComplete, false⟩
  have hb' : b.arrive c (some .inComplete) = b' := by
    rw [arrive, b.act_accepted c ha, h.noReset]
    rfl
  obtain ⟨htx, hrx, -⟩ := b.state.usb.raise_in_flags
  have harmed : b.state.usb.TxArmed := of_decide_eq_true ha
  have hnone : b.state.usb.flag usbEpRxCtr = false := by
    rcases h.taken with hf | hf
    · exact hf
    · exact absurd harmed hf.tx
  let t := b'.polled.mapUsb (Usb.clrEpTxCtr 0)
  have hfree : ¬t.usb.TxArmed := by
    change (b'.polled.usb.clrEpTxCtr 0).reg 0 &&& _ ≠ _
    rw [Usb.clrEpTxCtr_txStat _ (by decide), b'.polled_reg_zero]
    change (b.state.usb.raise .inComplete).reg 0 &&& _ ≠ _
    rw [Usb.raise_in_txStat]
    decide
  have hclr : Usb.NoNewFlags b'.polled.usb t.usb := Usb.setReg_noNewFlags _ _ _
  have hflags := State.controlIn_noNewFlags c t
  apply turn_of_served (r := t.usbdControlIn c)
  · rw [hb']
    exact b'.poll_in c rfl (hrx.trans hnone) htx
  · exact State.controlIn_served c hfree rfl
  · exact hflags.txCtr (Usb.clrEpTxCtr_flag _)
  · exact .inl (hflags.rxCtr (hclr.rxCtr ((b'.polled_flag _).trans (hrx.trans hnone))))

theorem Settled.turn (h : Settled b) {t : Option Event} (ht : t ≠ some .reset) :
    Turned c b t ∧ Settled (b.turn c t) := by
  rcases t with - | e
  · exact h.turn_quiet rfl
  · cases e with
    | reset => exact absurd rfl ht
    | setup d => exact h.turn_setup d
    | out d => exact h.turn_out d
    | inComplete => exact h.turn_in

theorem istr_eq_reset (h : b.istr = usbIstrReset) :
    b.resetPending = true ∧ b.state.usb.flag usbEpRxCtr = false ∧
      b.state.usb.flag usbEpTxCtr = false := by
  revert h
  unfold istr
  cases b.resetPending <;> cases b.state.usb.flag usbEpRxCtr <;>
    cases b.state.usb.flag usbEpTxCtr <;> decide

theorem turn_reset (hidle : b.state.usbFsmState = .idle) (h : b.istr = usbIstrReset) :
    Turned c b none ∧ Settled (b.turn c none) := by
  obtain ⟨hreset, hrx, htx⟩ := istr_eq_reset h
  have hturn : b.turn c none = ⟨b.polled.busReset, false⟩ :=
    congrArg (Bus.mk · false) (b.poll_reset c hreset)
  obtain ⟨hflags, -⟩ := State.busReset_zero b.polled
  obtain ⟨hpoised, haccepted⟩ : b.polled.busReset.Served := State.served_of_idle hidle
  constructor
  · constructor
    · rw [hturn]
      exact hpoised.toArmed
    · intro _
      rw [hturn]
      exact haccepted
  · rw [hturn]
    constructor
    · rfl
    · exact hflags.txCtr ((b.polled_flag _).trans htx)
    · exact hpoised
    · exact .inl (hflags.rxCtr ((b.polled_flag _).trans hrx))

end Turns

end Bus

open Bus

/-- From a bus reset on, the control FSM never waits on an endpoint that is not armed, and every
packet loaded is accepted. -/
theorem control_fsm_armed (c : Device) {b : Bus} (hidle : b.state.usbFsmState = .idle)
    (hreset : b.istr = usbIstrReset) {ts : List (Option Event)} (hts : some .reset ∉ ts) :
    Along (turn c) (Turned c) b (none :: ts) := by
  obtain ⟨hfirst, hsettled⟩ := turn_reset hidle hreset
  have hevents : ∀ t ∈ ts, t ≠ some .reset := fun t ht h => hts (h ▸ ht)
  constructor
  · exact hfirst
  · exact along_of_invariant (fun b t hb ht => hb.turn ht) hsettled
      (along_of_forall hevents (b.turn c none))

/-- A GETSTATUS with idle polls in between, up to its status stage. -/
theorem control_fsm_armed_getstatus :
    let c := Device.stm64k
    let b := Bus.act c ⟨State.start (fun _ => 0xFF#8) fun _ => 0#8, false⟩ (.host .reset)
    let ts := (getstatus.take 2).flatMap fun e => [none, some e]
    Along (turn c) (Turned c) b (none :: ts) ∧
      (run (turn c) b (none :: ts)).state.usbFsmState = .statusOut := by
  intro c b ts
  have hidle : b.state.usbFsmState = .idle := rfl
  have hreset : b.istr = usbIstrReset := by decide
  have hts : some .reset ∉ ts := by decide
  constructor
  · exact control_fsm_armed c hidle hreset hts
  · decide +kernel

end Swindle
