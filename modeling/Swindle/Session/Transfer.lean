import Swindle.Machine.Port
import Swindle.Usb.Armed
import Swindle.Usb.Read
import Swindle.Usb.Refusal
import Swindle.Usb.Toggle

/-! Host and device together: the control endpoint of stage 2 as the host meets it, and what a
whole transfer brings. The device polls once after every packet. -/
namespace Swindle
open Machine

namespace State

/-- Endpoint 0 between two polls. The packet of an IN token is the one loaded last. -/
def port (c : Device) : Port State Byte where
  setup s d := step c s (.setup d)
  out s d := step c s (.out d)
  inComplete s := step c s .inComplete
  stalled s := s.usb.reg 0 &&& usbEpTxStat = usbEpTxStatStall
  ready s :=
    if s.usb.TxArmed then
      s.loaded.getLast?.map fun p => (decide (s.usb.toggles &&& usbEpTxDtog ≠ 0#16), p)
    else none
  accepts s :=
    if s.usb.RxArmed then some (decide (s.usb.toggles &&& usbEpRxDtog ≠ 0#16)) else none

section Polls

variable (c : Device) (s : State)

theorem Served.acknowledge {s : State} (h : s.Served) (istr : BitVec 16) :
    (s.mapUsb (State.acknowledge istr)).Served :=
  ⟨h.1.acknowledge istr, ⟨h.2.data, h.2.status⟩⟩

theorem step_setup_served (d : List Byte) : (step c s (.setup d)).Served := by
  rw [step_setup]
  apply Served.acknowledge
  apply controlSetup_served
  · rw [Usb.TxArmed]
    change (s.usb.raise (.setup d)).reg 0 &&& usbEpTxStat ≠ _
    rw [Usb.raise_setup_txStat]
    decide
  · rfl

theorem step_in_served : (step c s .inComplete).Served := by
  rw [step_inComplete]
  apply Served.acknowledge
  apply controlIn_served
  · exact (Usb.ready_iff _).mp (in_raise_ready s)
  · rfl

theorem step_out_served (h : s.Poised) (d : List Byte) : (step c s (.out d)).Served := by
  rw [step_out]
  apply Served.acknowledge
  apply controlOut_served
  · intro hexp
    obtain ⟨hf, htx⟩ := h.expecting hexp
    refine ⟨hf, ?_⟩
    rw [Usb.TxArmed]
    change ¬(s.usb.raise (.out d)).reg 0 &&& usbEpTxStat = _
    rwa [Usb.raise_out_txStat]
  · exact s.usb.raise_rxArmed d
  · rfl

end Polls

/-! The port in the states of a transfer. -/

section Port

variable {c : Device} {s : State}

theorem port_stalled_of_stall {t : State} (istr : BitVec 16) :
    (port c).stalled (t.stallTransaction.mapUsb (acknowledge istr)) = true := by
  have hstall := stall_txStat t
  have hreg := t.stallTransaction.usb.acknowledge_reg_zero istr
  refine decide_eq_true ?_
  change (State.acknowledge istr t.stallTransaction.usb).reg 0 &&& usbEpTxStat = _
  rw [hreg]
  exact hstall

theorem port_stalled_of_txArmed (h : s.usb.TxArmed) : (port c).stalled s = false := by
  have h' : s.usb.reg 0 &&& usbEpTxStat = usbEpTxStatValid := h
  refine decide_eq_false ?_
  rw [h']
  decide

theorem port_ready (h : s.usb.TxArmed) {p : List Byte} (hp : s.loaded = [p]) :
    (port c).ready s = some (decide (s.usb.toggles &&& usbEpTxDtog ≠ 0#16), p) := by
  change (if s.usb.TxArmed then _ else _) = _
  rw [if_pos h, hp]
  rfl

theorem port_accepts (h : s.usb.RxArmed) :
    (port c).accepts s = some (decide (s.usb.toggles &&& usbEpRxDtog ≠ 0#16)) := if_pos h

theorem step_in_txStat (hf : s.usbFsmState = .lastDataIn ∨ s.usbFsmState = .statusIn) :
    (step c s .inComplete).usb.reg 0 &&& usbEpTxStat = usbEpTxStatNak := by
  let u := (s.usb.raise .inComplete).clrEpTxCtr 0
  have hu : u.reg 0 &&& usbEpTxStat = usbEpTxStatNak := by
    rw [Usb.clrEpTxCtr_txStat _ (by decide), Usb.raise_in_txStat]
  have hreg : ((((s.raise .inComplete).mapUsb (Usb.clrEpTxCtr 0)).usbdControlIn c).usb.reg 0 &&&
      usbEpTxStat) = usbEpTxStatNak := by
    rcases hf with hf | hf
    · have hf' : ((s.raise .inComplete).mapUsb (Usb.clrEpTxCtr 0)).usbFsmState = .lastDataIn := hf
      rw [usbdControlIn, hf']
      exact (u.nakSet_txStat false).trans hu
    · have hf' : ((s.raise .inComplete).mapUsb (Usb.clrEpTxCtr 0)).usbFsmState = .statusIn := hf
      rw [usbdControlIn, hf']
      change (complete c _).latchAddress.usb.reg 0 &&& usbEpTxStat = _
      have hc := complete_usb c ((s.raise .inComplete).mapUsb (Usb.clrEpTxCtr 0))
      unfold latchAddress
      split
      · rw [hc]
        exact (congrArg (· &&& usbEpTxStat) (u.setReg_reg_of_ne (by decide) _)).trans hu
      · rw [hc]
        exact hu
  rw [step_inComplete]
  exact (congrArg (· &&& usbEpTxStat) (Usb.acknowledge_reg_zero _ _)).trans hreg

theorem port_stalled_of_nak (h : s.usb.reg 0 &&& usbEpTxStat = usbEpTxStatNak) :
    (port c).stalled s = false := by
  refine decide_eq_false ?_
  rw [h]
  decide

end Port

end State

/-! The two toggles along a transfer. -/

theorem dtog_flip (i : ℕ) :
    decide ((if i % 2 = 0 then usbEpDtog else usbEpDtog ^^^ usbEpTxDtog) &&& usbEpTxDtog ≠ 0#16) =
      decide (i % 2 = 0) := by
  by_cases h : i % 2 = 0 <;> simp only [h, if_true, if_false] <;> decide

section Read

variable {c : Device} {s : State} {d : List Byte}

theorem iterate_inComplete (c : Device) (s : State) (d : List Byte) (i : ℕ) :
    ((State.port c).inComplete^[i] (step c s (.setup d))) =
      run (step c) s (readEvents d i) := by
  induction i with
  | zero => rfl
  | succ i ih =>
    rw [Function.iterate_succ_apply', ih, readEvents_succ, run_append]
    rfl

theorem read_toggles (h : (step c s (.setup d)).usb.toggles = usbEpDtog) (i : ℕ) :
    (run (step c) s (readEvents d i)).usb.toggles =
      if i % 2 = 0 then usbEpDtog else usbEpDtog ^^^ usbEpTxDtog := by
  induction i with
  | zero => exact h
  | succ i ih =>
    rw [readEvents_succ, run_append]
    change (step c (run (step c) s (readEvents d i)) .inComplete).usb.toggles = _
    rw [step_in_toggles, ih]
    by_cases hpar : i % 2 = 0
    · have hnext : ¬(i + 1) % 2 = 0 := by omega
      simp [hpar, hnext]
    · have hnext : (i + 1) % 2 = 0 := by omega
      rw [if_neg hpar, if_pos hnext, BitVec.xor_assoc, BitVec.xor_self, BitVec.xor_zero]

theorem read_poised (c : Device) (s : State) (d : List Byte) (i : ℕ) :
    (run (step c) s (readEvents d i)).Poised := by
  cases i with
  | zero => exact (State.step_setup_served c s d).1
  | succ i =>
    rw [readEvents_succ, run_append]
    exact (State.step_in_served c _).1

theorem streams_of_sent {b : ℕ → Byte} {m w : ℕ} (hm : m ≤ w) (hw : w < 2 ^ 16)
    (h : (step c s (.setup d)).Sent b m w 0)
    (ht : (step c s (.setup d)).usb.toggles = usbEpDtog) :
    (State.port c).Streams b 64 m w (step c s (.setup d)) := by
  constructor
  · intro i hi
    obtain ⟨hsent, -⟩ := sent_run hm hw h hi
    have hp := read_poised c s d i
    have htx : (run (step c) s (readEvents d i)).usb.TxArmed := by
      apply hp.tx
      rw [hsent.fsm]
      split <;> simp
    rw [iterate_inComplete, State.port_ready htx hsent.loaded, read_toggles ht, dtog_flip]
    exact ⟨State.port_stalled_of_txArmed htx, rfl⟩
  · obtain ⟨hsent, -⟩ := sent_run hm hw h (Nat.le_refl _)
    let t := run (step c) s (readEvents d (lastPacket 64 m w))
    have hfsm : t.usbFsmState = .lastDataIn := hsent.fsm.trans (if_pos rfl)
    have hrun : (State.port c).inComplete^[lastPacket 64 m w + 1] (step c s (.setup d)) =
        step c t .inComplete := by
      rw [iterate_inComplete, readEvents_succ, run_append]
      rfl
    have htog := read_toggles ht (lastPacket 64 m w + 1)
    rw [← iterate_inComplete, hrun] at htog
    have hrx : (step c t .inComplete).usb.RxArmed :=
      (State.step_in_served c t).1.rx (.inr (.inr (step_in_lastDataIn c t hfsm).1))
    have hdtog : decide ((step c t .inComplete).usb.toggles &&& usbEpRxDtog ≠ 0#16) = true := by
      rw [htog]
      split <;> decide
    rw [hrun, State.port_accepts hrx, hdtog]
    exact ⟨State.port_stalled_of_nak (State.step_in_txStat (.inl hfsm)), rfl⟩

theorem setup_toggles_of_quiet (hq : (s.requestOf (.setup d)).clearsToggle = 0#16) :
    (step c s (.setup d)).usb.toggles = usbEpDtog := by
  rw [step_setup_toggles, State.clearsToggle]
  split
  · rw [hq]
    exact BitVec.and_allOnes
  · exact BitVec.and_allOnes

/-- A control read that is taken brings the answer, cut to wLength: the packets carry the right
toggles, none is missing, and the device takes the status packet. -/
theorem read_answered (hd : (setupBytes d).length = 8)
    (hin : (s.requestOf (.setup d)).bmRequestType &&& 0x80#8 ≠ 0#8)
    (hw : (s.requestOf (.setup d)).wLength ≠ 0#16) (hcode : (s.answered c d).1 ≠ .notsupp)
    (hq : (s.requestOf (.setup d)).clearsToggle = 0#16) :
    let w := (s.requestOf (.setup d)).wLength.toNat
    let m := min (s.answered c d).2.datasize.toNat w
    (State.port c).read 64 w d s =
      (.data (slice (s.answered c d).2.usbdControlBuffer 0 m),
        run (step c) s (readEvents d (lastPacket 64 m w + 1) ++ [.out []])) := by
  intro w m
  have hm : m ≤ w := Nat.min_le_right _ _
  have hpos : 0 < w := Nat.pos_of_ne_zero fun h0 => hw (BitVec.eq_of_toNat_eq h0)
  have htog := setup_toggles_of_quiet (c := c) hq
  have hstream := streams_of_sent hm (BitVec.isLt _) (State.sent_setup hd hin hw hcode) htog
  have hread := Port.Streams.read (P := State.port c) (s := s) (d := d) hstream (by decide) hm hpos
  rw [hread, run_append]
  refine congrArg (Prod.mk _) ?_
  change step c ((State.port c).inComplete^[lastPacket 64 m w + 1] (step c s (.setup d)))
    (.out []) = _
  rw [iterate_inComplete]
  rfl

theorem refuses_stall {e : Event} (h : s.Refuses c e) :
    ∃ t : State, ∃ istr : BitVec 16,
      step c s e = t.stallTransaction.mapUsb (State.acknowledge istr) := by
  cases e with
  | setup d =>
    by_cases hlen : (setupBytes d).length = 8
    · rcases h with hshort | ⟨hw, hlong⟩ | ⟨hd, hq⟩
      · exact absurd hlen hshort
      · exact ⟨_, _, setup_too_long hlen hw hlong⟩
      · exact ⟨_, _, State.step_of_refused c hd hq⟩
    · refine ⟨s.tookSetup d (s.usb.readSetup d), usbIstrCtr ||| usbIstrDir, ?_⟩
      rw [step_setup_eq, if_pos hlen]
  | out p =>
    obtain ⟨hexp, hshort | ⟨hd, hq⟩⟩ := h
    · exact ⟨_, _, step_out_short c s p hexp (Nat.not_le.mpr hshort)⟩
    · exact ⟨_, _, State.step_of_refused c hd hq⟩
  | inComplete => exact h.elim
  | reset => exact h.elim

theorem refuses_stalled {e : Event} (h : s.Refuses c e) :
    (State.port c).stalled (step c s e) = true := by
  obtain ⟨t, istr, hstep⟩ := refuses_stall h
  rw [hstep]
  exact State.port_stalled_of_stall istr

theorem read_refused {w : ℕ} (h : s.Refuses c (.setup d)) :
    (State.port c).read 64 w d s = (.stalled, step c s (.setup d)) :=
  Port.read_of_stalled (P := State.port c) (refuses_stalled h)

end Read

/-! Requests without a data stage, and control writes. -/

section Write

variable {c : Device} {s : State} {d : List Byte}

theorem statusIn_answered {t : State} (hf : t.usbFsmState = .statusIn) (hs : t.Served)
    (ht : t.usb.toggles &&& usbEpTxDtog ≠ 0#16) :
    (State.port c).statusIn t = (.data [], step c t .inComplete) := by
  have htx : t.usb.TxArmed := hs.1.tx (.inr (.inr hf))
  have hload : t.loaded = [[]] := by
    rw [State.loaded, hs.2.status hf]
    rfl
  have hready : (State.port c).ready t = some (true, []) := by
    rw [State.port_ready htx hload]
    simp [ht]
  have hrun : (State.port c).stalled t = false := State.port_stalled_of_txArmed htx
  unfold Port.statusIn
  rw [hrun, hready]
  rfl

theorem setup_statusIn (hd : (setupBytes d).length = 8)
    (hw : (s.requestOf (.setup d)).wLength = 0#16) (hcode : (s.answered c d).1 ≠ .notsupp) :
    (step c s (.setup d)).usbFsmState = .statusIn := by
  have hread : (s.usbReq.patch (setupBytes d)).wLength = 0#16 ∨
      (s.usbReq.patch (setupBytes d)).bmRequestType &&& 0x80#8 ≠ 0#8 := .inl hw
  have htaken : ((s.tookSetup d (s.usb.readSetup d)).readDispatch c).1 ≠ .notsupp := hcode
  have hlen : ¬(s.tookSetup d (s.usb.readSetup d)).usbReq.wLength ≠ 0#16 := not_not.mpr hw
  rw [step_setup_eq, if_neg (not_not.mpr hd), if_pos hread, State.setupRead_eq, if_neg htaken,
    if_neg hlen]
  rfl

theorem write_nil_answered (hd : (setupBytes d).length = 8)
    (hw : (s.requestOf (.setup d)).wLength = 0#16) (hcode : (s.answered c d).1 ≠ .notsupp)
    (hq : (s.requestOf (.setup d)).clearsToggle = 0#16) :
    (State.port c).write d [] s = (.data [], run (step c) s [.setup d, .inComplete]) := by
  have htog := setup_toggles_of_quiet (c := c) hq
  have hdtog : (step c s (.setup d)).usb.toggles &&& usbEpTxDtog ≠ 0#16 := by
    rw [htog]
    decide
  exact statusIn_answered (setup_statusIn hd hw hcode) (State.step_setup_served c s d) hdtog

/-- The control endpoint in a data stage from the host, after `i` packets of it. -/
structure Filling (i : ℕ) (t : State) : Prop where
  poised : t.Poised
  txStat : t.usb.reg 0 &&& usbEpTxStat = usbEpTxStatNak
  toggles : t.usb.toggles = if i % 2 = 0 then usbEpDtog else usbEpDtog ^^^ usbEpRxDtog

theorem filling_setup (hq : (s.requestOf (.setup d)).clearsToggle = 0#16)
    (h : (step c s (.setup d)).Expecting) : Filling 0 (step c s (.setup d)) := by
  obtain ⟨hstep, -, -⟩ := setup_expecting c s d h
  refine ⟨(State.step_setup_served c s d).1, ?_, setup_toggles_of_quiet hq⟩
  rw [hstep]
  have hack := Usb.acknowledge_reg_zero ((s.usb.readSetup d).usbdEpNakSet 0#8 false)
    (usbIstrCtr ||| usbIstrDir)
  refine (congrArg (· &&& usbEpTxStat) hack).trans ?_
  rw [Usb.nakSet_txStat, Usb.readSetup_txStat]

theorem Filling.next {i : ℕ} {t : State} {p : List Byte} (h : Filling i t)
    (hexp : (step c t (.out p)).Expecting) : Filling (i + 1) (step c t (.out p)) := by
  obtain ⟨hf, -, hstep⟩ := out_expecting c t p hexp
  have hno : ¬t.Dispatches (.out p) := fun hd => by
    cases hf.symm.trans hd.1
  constructor
  · exact (State.step_out_served c t h.poised p).1
  · rw [hstep]
    have hack := Usb.acknowledge_reg_zero (t.usb.readData p t.packetsize)
      (usbIstrCtr ||| usbIstrDir)
    refine (congrArg (· &&& usbEpTxStat) hack).trans ?_
    rw [Usb.readData, Usb.readPacket_txStat, Usb.raise_out_txStat, h.txStat]
  · rw [step_out_toggles, clearsToggle_of_not hno, h.toggles]
    by_cases hpar : i % 2 = 0
    · have hnext : ¬(i + 1) % 2 = 0 := by omega
      simp [hpar, hnext]
    · have hnext : (i + 1) % 2 = 0 := by omega
      rw [if_neg hpar, if_pos hnext, BitVec.xor_assoc, BitVec.xor_self, BitVec.xor_zero]

theorem Filling.accepts {i : ℕ} {t : State} (h : Filling i t) (hexp : t.Expecting) :
    (State.port c).stalled t = false ∧
      (State.port c).accepts t = some (true ^^ decide (i % 2 = 1)) := by
  have hrx : t.usb.RxArmed := h.poised.rx (by
    rcases hexp with hf | hf <;> simp [hf])
  have htog : decide (t.usb.toggles &&& usbEpRxDtog ≠ 0#16) = (true ^^ decide (i % 2 = 1)) := by
    rw [h.toggles]
    by_cases hpar : i % 2 = 0
    · have hodd : ¬i % 2 = 1 := by omega
      simp only [hpar, if_true]
      decide
    · have hodd : i % 2 = 1 := by omega
      simp only [hodd]
      decide
  rw [State.port_accepts hrx, htog]
  exact ⟨State.port_stalled_of_nak h.txStat, rfl⟩

theorem reported_of_le {p : List Byte} (h : p.length ≤ 64) : reported p = p := by
  rw [reported, Nat.mod_eq_of_lt (by omega), List.take_length]

theorem map_reported_blocks (data : List Byte) (i : ℕ) :
    ((List.range i).map (block 64 data)).map reported = (List.range i).map (block 64 data) := by
  rw [List.map_map]
  refine List.map_congr_left fun j _ => ?_
  apply reported_of_le
  rw [length_block]
  omega

theorem filling_run (hd : (setupBytes d).length = 8) (h : (s.requestOf (.setup d)).Writes)
    (hq : (s.requestOf (.setup d)).clearsToggle = 0#16) {data : List Byte}
    (hlen : (s.requestOf (.setup d)).wLength.toNat = data.length)
    (h4 : data.length ≤ dfuTransferSize) {i : ℕ} (hi : i < blockCount 64 data) :
    let t := run (step c) s (.setup d :: ((List.range i).map (block 64 data)).map .out)
    Collected s (s.requestOf (.setup d)) ((List.range i).map (block 64 data)) t ∧
      Filling i t := by
  have hcol : ∀ j < blockCount 64 data,
      Collected s (s.requestOf (.setup d)) ((List.range j).map (block 64 data))
        (run (step c) s (.setup d :: ((List.range j).map (block 64 data)).map .out)) := by
    intro j hj
    have hrun := collected_run (c := c) hd h (by omega) ((List.range j).map (block 64 data))
    have hlt : 64 * j < data.length := (lt_blockCount_iff (by decide) data j).mp hj
    dsimp only at hrun
    rw [map_reported_blocks, hlen, List.length_map, List.length_range,
      if_pos ⟨whole_blocks data j, hlt⟩] at hrun
    exact hrun
  intro t
  refine ⟨hcol i hi, ?_⟩
  induction i with
  | zero => exact filling_setup hq (hcol 0 hi).expecting
  | succ i ih =>
    have hstep := run_concat c s d ((List.range i).map (block 64 data)) (block 64 data i)
    have hnext := (hcol (i + 1) hi).expecting
    have hsplit : (List.range (i + 1)).map (block 64 data) =
        (List.range i).map (block 64 data) ++ [block 64 data i] := by
      rw [List.range_succ, List.map_append, List.map_singleton]
    rw [hsplit, hstep] at hnext
    change Filling (i + 1) (run (step c) s _)
    rw [hsplit, hstep]
    exact (ih (by omega)).next hnext

theorem foldl_out (c : Device) (ps : List (List Byte)) (t : State) :
    ps.foldl (State.port c).out t = run (step c) t (ps.map .out) := by
  induction ps generalizing t with
  | nil => rfl
  | cons p ps ih => exact ih (step c t (.out p))

theorem takes_blocks (hd : (setupBytes d).length = 8) (h : (s.requestOf (.setup d)).Writes)
    (hq : (s.requestOf (.setup d)).clearsToggle = 0#16) {data : List Byte}
    (hlen : (s.requestOf (.setup d)).wLength.toNat = data.length)
    (h4 : data.length ≤ dfuTransferSize) :
    (State.port c).Takes (blocks 64 data) true (step c s (.setup d)) := by
  intro i hi
  have hi' : i < blockCount 64 data := by simpa [blocks] using hi
  obtain ⟨hcol, hfill⟩ := filling_run (c := c) hd h hq hlen h4 hi'
  have htake : (blocks 64 data).take i = (List.range i).map (block 64 data) := by
    rw [blocks, ← List.map_take, List.take_range, Nat.min_eq_left (Nat.le_of_lt hi')]
  rw [htake, foldl_out]
  exact hfill.accepts hcol.expecting

/-- Stage 2 as the handler finds it when `data`, the data stage of the request `r`, is in. -/
structure Written (s : State) (r : UsbSetupData) (data : List Byte) (q : State) : Prop where
  usbReq : q.usbReq = r
  usbCompleteCb : q.usbCompleteCb = none
  usbdControlBuffer : q.usbdControlBuffer = blit 0 data s.usbdControlBuffer
  dfu : q.dfu.newPoll = s.dfu.newPoll

theorem written_run (hd : (setupBytes d).length = 8) (h : (s.requestOf (.setup d)).Writes)
    (hq : (s.requestOf (.setup d)).clearsToggle = 0#16) {data : List Byte}
    (hlen : (s.requestOf (.setup d)).wLength.toNat = data.length)
    (h4 : data.length ≤ dfuTransferSize) :
    let u := run (step c) s (.setup d :: (blocks 64 data).map .out)
    ∃ q : State, Written s (s.requestOf (.setup d)) data q ∧ u = q.handOver c ∧ u.Served ∧
      u.usb.toggles &&& usbEpTxDtog ≠ 0#16 := by
  intro u
  have hpos : 0 < data.length := by
    rw [← hlen]
    exact Nat.pos_of_ne_zero fun h0 => h.data (BitVec.eq_of_toNat_eq h0)
  obtain ⟨n, hn⟩ : ∃ n, blockCount 64 data = n + 1 :=
    Nat.exists_eq_succ_of_ne_zero (by unfold blockCount; omega)
  have hlast : data.length ≤ 64 * (n + 1) :=
    Nat.not_lt.mp fun h => absurd ((lt_blockCount_iff (by decide) data (n + 1)).mpr h) (by omega)
  obtain ⟨hcol, hfill⟩ := filling_run (c := c) hd h hq hlen h4 (show n < _ by omega)
  let t := run (step c) s (.setup d :: ((List.range n).map (block 64 data)).map .out)
  have hblocks : blocks 64 data = (List.range (n + 1)).map (block 64 data) := by rw [blocks, hn]
  have hsplit : blocks 64 data = (List.range n).map (block 64 data) ++ [block 64 data n] := by
    rw [hblocks, List.range_succ, List.map_append, List.map_singleton]
  have hu : u = step c t (.out (block 64 data n)) := by
    change run (step c) s (.setup d :: (blocks 64 data).map .out) = _
    rw [hsplit, run_concat]
  have hmap : ((List.range n).map (block 64 data) ++ [block 64 data n]).map reported =
      (List.range (n + 1)).map (block 64 data) := by
    rw [← hsplit, hblocks, map_reported_blocks]
  have hfit : t.packetsize.toNat ≤ (block 64 data n).length % 1024 := by
    rw [hcol.packetsize, hlen, length_block, List.length_map, List.length_range]
    omega
  have hcount : (s.requestOf (.setup d)).wLength.toNat ≤
      64 * ((List.range n).map (block 64 data)).length + 64 := by
    rw [hlen, List.length_map, List.length_range]
    omega
  have hdis : t.Dispatches (.out (block 64 data n)) :=
    ⟨hcol.usbFsmState.trans (if_pos hcount), hfit⟩
  obtain ⟨q, hreq, hcb, hdfu, hbuf, hq'⟩ := hcol.last c hfit hcount
  refine ⟨q, ⟨hreq, hcb, ?_, hdfu⟩, hu.trans hq', ?_, ?_⟩
  · rw [hbuf, hmap, hlen, collect_blocks, List.take_of_length_le hlast]
  · rw [hu]
    exact State.step_out_served c t hfill.poised _
  · have hclear : t.clearsToggle (.out (block 64 data n)) = 0#16 := by
      rw [State.clearsToggle, if_pos hdis]
      exact (congrArg UsbSetupData.clearsToggle hcol.usbReq).trans hq
    rw [hu, step_out_toggles, hclear, hfill.toggles]
    split <;> decide

/-- A control write whose packets are all delivered: the handler has the data, and the status
stage tells the host whether it took the request. -/
theorem write_answered (hd : (setupBytes d).length = 8) (h : (s.requestOf (.setup d)).Writes)
    (hq : (s.requestOf (.setup d)).clearsToggle = 0#16) {data : List Byte}
    (hlen : (s.requestOf (.setup d)).wLength.toNat = data.length)
    (h4 : data.length ≤ dfuTransferSize) :
    let es := .setup d :: (blocks 64 data).map .out
    ∃ q : State, Written s (s.requestOf (.setup d)) data q ∧
      (State.port c).write d (blocks 64 data) s =
        if (q.usbControlRequestDispatch c).1 = .notsupp then (.stalled, run (step c) s es)
        else (.data [], run (step c) s (es ++ [.inComplete])) := by
  intro es
  obtain ⟨q, hw, hu, hserved, htog⟩ := written_run (c := c) hd h hq hlen h4
  refine ⟨q, hw, ?_⟩
  have hrun : (blocks 64 data).foldl (State.port c).out (step c s (.setup d)) =
      run (step c) s es := foldl_out c _ _
  rw [(takes_blocks hd h hq hlen h4).write]
  change (State.port c).statusIn ((blocks 64 data).foldl (State.port c).out
    (step c s (.setup d))) = _
  rw [hrun]
  split
  · rename_i hno
    have hstall : (State.port c).stalled (run (step c) s es) = true := by
      rw [hu, State.handOver_of_refused c hno]
      exact State.port_stalled_of_stall _
    unfold Port.statusIn
    rw [if_pos hstall]
  · rename_i htaken
    have hfsm : (run (step c) s es).usbFsmState = .statusIn := by
      rw [hu, State.handOver_of_taken c htaken]
      rfl
    rw [statusIn_answered hfsm hserved htog, run_append]
    rfl

end Write

end Swindle
