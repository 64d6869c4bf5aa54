import Mathlib.Data.List.Induction
import Swindle.Host
import Swindle.Machine.Collect
import Swindle.Usb.Outer
import Swindle.Usb.Stage

/-! A control write as a whole: its packets are put together in the buffer, and the request is
dispatched when the last of them is in. -/
namespace Swindle
open Machine

/-- The bytes of a packet that COUNT_RX, a field of ten bits, reports. -/
def reported (d : List Byte) : List Byte := d.take (d.length % 1024)

@[simp] theorem length_reported (d : List Byte) : (reported d).length = d.length % 1024 := by
  have := Nat.mod_le d.length 1024
  simp [reported, this]

namespace State

theorem dataBytes_eq (s : State) (d : List Byte) :
    s.dataBytes d = (reported d).take s.packetsize.toNat := by
  rw [dataBytes, reported, List.take_take, Nat.min_comm]

theorem handOver_fsm (c : Device) (s : State) :
    (s.handOver c).usbFsmState = .statusIn ∨ (s.handOver c).usbFsmState = .idle := by
  unfold handOver
  dsimp only
  split
  · exact .inl rfl
  · exact .inr rfl

end State

/-- The poll that leads from `t` to `u` has called no handler: what the handlers keep is as it was,
and the host is handed a STALL at most. -/
structure Unhandled (t u : State) : Prop where
  dfu : u.dfu = t.dfu.newPoll
  usbCompleteCb : u.usbCompleteCb = t.usbCompleteCb
  out : u.out = [] ∨ u.out = [.stall]

/-- `t` has the packets `ds` of the control write `r` that a SETUP began at `s`, and expects
more. -/
structure Collected (s : State) (r : UsbSetupData) (ds : List (List Byte)) (t : State) : Prop where
  whole : Whole 64 r.wLength.toNat (ds.map reported)
  more : 64 * ds.length < r.wLength.toNat
  small : r.wLength.toNat ≤ dfuTransferSize
  usbReq : t.usbReq = r
  usbFsmState :
    t.usbFsmState = if r.wLength.toNat ≤ 64 * ds.length + 64 then .lastDataOut else .dataOut
  datasize : t.datasize.toNat = 64 * ds.length
  buffer : t.usbdControlBuffer =
    blit 0 (collect 64 r.wLength.toNat (ds.map reported)) s.usbdControlBuffer
  usbCompleteCb : t.usbCompleteCb = none
  dfu : t.dfu.newPoll = s.dfu.newPoll

section Packet

variable {c : Device} {s t : State} {r : UsbSetupData} {ds : List (List Byte)} {p : List Byte}

theorem whole_of_concat {w : ℕ} (h : Whole 64 w ((ds ++ [p]).map reported)) :
    Whole 64 w (ds.map reported) := by
  rw [List.map_append, List.map_singleton, whole_concat] at h
  exact h.1

theorem Collected.expecting (h : Collected s r ds t) : t.Expecting := by
  have hf := h.usbFsmState
  split at hf
  · exact .inr hf
  · exact .inl hf

theorem Collected.packetsize (h : Collected s r ds t) :
    t.packetsize.toNat = min 64 (r.wLength.toNat - 64 * ds.length) := by
  have hmore := h.more
  rw [t.packetsize_toNat (by rw [h.usbReq, h.datasize]; omega), h.usbReq, h.datasize]

theorem Collected.tookData (h : Collected s r ds t) (p : List Byte) (u : Usb) :
    (t.tookData p u).usbdControlBuffer =
      blit 0 (collect 64 r.wLength.toNat ((ds ++ [p]).map reported)) s.usbdControlBuffer := by
  have hmore := h.more
  have hlen : (collect 64 r.wLength.toNat (ds.map reported)).length = t.datasize.toNat := by
    rw [length_collect h.whole, h.datasize, List.length_map]
    omega
  change blit t.datasize.toNat (t.dataBytes p) t.usbdControlBuffer = _
  rw [h.buffer, ← hlen, blit_blit, t.dataBytes_eq, h.packetsize, List.map_append,
    List.map_singleton,
    collect_concat, List.length_map]

theorem Collected.whole_concat (h : Collected s r ds t) :
    Whole 64 r.wLength.toNat ((ds ++ [p]).map reported) ↔
      t.packetsize.toNat ≤ p.length % 1024 := by
  rw [List.map_append, List.map_singleton, Machine.whole_concat, h.packetsize, List.length_map,
    length_reported]
  exact and_iff_right h.whole

theorem Collected.sum (h : Collected s r ds t) (hmore : 64 * ds.length + 64 ≤ r.wLength.toNat) :
    (t.datasize + t.packetsize).toNat = 64 * ds.length + 64 := by
  have hw := r.wLength.isLt
  rw [BitVec.toNat_add, h.packetsize, h.datasize]
  omega

theorem Collected.next (c : Device) (h : Collected s r ds t)
    (hp : t.packetsize.toNat ≤ p.length % 1024)
    (hmore : 64 * ds.length + 64 < r.wLength.toNat) :
    Collected s r (ds ++ [p]) (step c t (.out p)) := by
  have hf : t.usbFsmState = .dataOut := h.usbFsmState.trans (if_neg (by omega))
  have hsum := h.sum (by omega)
  have hwhole := h.whole_concat.mpr hp
  have hlen : (ds ++ [p]).length = ds.length + 1 := by simp
  have hbuf := h.tookData p (t.usb.readData p t.packetsize)
  rw [step_out_dataOut_eq c t p hf, if_pos hp, hsum, h.usbReq]
  refine ⟨hwhole, ?_, h.small, h.usbReq, ?_, ?_, hbuf, h.usbCompleteCb, h.dfu⟩
  · rw [hlen]
    omega
  · have h64 : (bMaxPacketSize0 : ℤ) = 64 := rfl
    change (if (r.wLength.toNat - (64 * ds.length + 64 : ℕ) : ℤ) ≤ bMaxPacketSize0 then
      UsbFsmState.lastDataOut else .dataOut) = _
    rw [hlen, h64]
    congr 1
    exact propext (by omega)
  · change (t.datasize + t.packetsize).toNat = _
    rw [hsum, hlen]
    omega

theorem Collected.last (c : Device) (h : Collected s r ds t)
    (hp : t.packetsize.toNat ≤ p.length % 1024)
    (hlast : r.wLength.toNat ≤ 64 * ds.length + 64) : ∃ q : State,
      q.usbReq = r ∧ q.usbCompleteCb = none ∧ q.dfu.newPoll = s.dfu.newPoll ∧
      q.usbdControlBuffer =
        blit 0 (collect 64 r.wLength.toNat ((ds ++ [p]).map reported)) s.usbdControlBuffer ∧
      step c t (.out p) = q.handOver c := by
  have hf : t.usbFsmState = .lastDataOut := h.usbFsmState.trans (if_pos hlast)
  rw [step_out_lastDataOut_eq c t p hf, if_pos hp]
  have hbuf := h.tookData p (t.usb.readData p t.packetsize)
  exact ⟨{ t.tookData p (t.usb.readData p t.packetsize) with
    datasize := t.datasize + t.packetsize }, h.usbReq, h.usbCompleteCb, h.dfu, hbuf, rfl⟩

theorem Collected.short (c : Device) (h : Collected s r ds t)
    (hp : ¬t.packetsize.toNat ≤ p.length % 1024) :
    (step c t (.out p)).usbdControlBuffer =
        blit 0 (collect 64 r.wLength.toNat ((ds ++ [p]).map reported)) s.usbdControlBuffer ∧
      .stall ∈ (step c t (.out p)).out ∧ (step c t (.out p)).usbFsmState = .idle := by
  rw [step_out_short c t p h.expecting hp]
  exact ⟨h.tookData p (t.usb.readData p t.packetsize), List.mem_cons_self, rfl⟩

end Packet

section Transfer

variable {c : Device} {s : State} {d : List Byte}

/-- The SETUP packet of a control write: a data stage from the host is announced. -/
structure UsbSetupData.Writes (r : UsbSetupData) : Prop where
  out : r.bmRequestType &&& 0x80#8 = 0#8
  data : r.wLength ≠ 0#16

theorem setup_write (hd : (setupBytes d).length = 8) (h : (s.requestOf (.setup d)).Writes) :
    step c s (.setup d) = State.mapUsb (State.acknowledge (usbIstrCtr ||| usbIstrDir))
      (s.tookSetup d (s.usb.readSetup d)).usbControlSetupWrite := by
  have hread : ¬((s.usbReq.patch (setupBytes d)).wLength = 0#16 ∨
      (s.usbReq.patch (setupBytes d)).bmRequestType &&& 0x80#8 ≠ 0#8) :=
    not_or.mpr ⟨h.data, not_not.mpr h.out⟩
  rw [step_setup_eq, if_neg (not_not.mpr hd), if_neg hread]

theorem setup_unhandled (hd : (setupBytes d).length = 8) (h : (s.requestOf (.setup d)).Writes) :
    let v := step c s (.setup d)
    v.usbdControlBuffer = s.usbdControlBuffer ∧ v.usbCompleteCb = none ∧
      v.dfu = s.dfu.newPoll ∧ (v.out = [] ∨ v.out = [.stall]) := by
  intro v
  have hv : v = _ := setup_write hd h
  rw [hv, State.usbControlSetupWrite]
  split
  · exact ⟨rfl, rfl, rfl, .inr rfl⟩
  · exact ⟨rfl, rfl, rfl, .inl rfl⟩

theorem setup_too_long (hd : (setupBytes d).length = 8) (h : (s.requestOf (.setup d)).Writes)
    (hw : dfuTransferSize < (s.requestOf (.setup d)).wLength.toNat) :
    step c s (.setup d) = State.mapUsb (State.acknowledge (usbIstrCtr ||| usbIstrDir))
      (s.tookSetup d (s.usb.readSetup d)).stallTransaction := by
  have hlt : BitVec.ofNat 16 dfuTransferSize < (s.requestOf (.setup d)).wLength :=
    BitVec.lt_def.mpr hw
  rw [setup_write hd h, State.usbControlSetupWrite]
  exact congrArg _ (if_pos hlt)

theorem collected_setup (hd : (setupBytes d).length = 8) (h : (s.requestOf (.setup d)).Writes)
    (hw : (s.requestOf (.setup d)).wLength.toNat ≤ dfuTransferSize) :
    Collected s (s.requestOf (.setup d)) [] (step c s (.setup d)) := by
  have hle : ¬BitVec.ofNat 16 dfuTransferSize < (s.requestOf (.setup d)).wLength := fun hlt =>
    Nat.not_lt.mpr hw (BitVec.lt_def.mp hlt)
  have hwrite : (s.tookSetup d (s.usb.readSetup d)).usbControlSetupWrite = _ := if_neg hle
  have hpos : 0 < (s.requestOf (.setup d)).wLength.toNat :=
    Nat.pos_of_ne_zero fun h0 => h.data (BitVec.eq_of_toNat_eq h0)
  have h64 : BitVec.ofNat 16 bMaxPacketSize0 < (s.requestOf (.setup d)).wLength ↔
      64 < (s.requestOf (.setup d)).wLength.toNat := BitVec.lt_def
  rw [setup_write hd h, hwrite]
  refine ⟨trivial, hpos, hw, rfl, ?_, rfl, rfl, rfl, rfl⟩
  change (if BitVec.ofNat 16 bMaxPacketSize0 < (s.requestOf (.setup d)).wLength then
    UsbFsmState.dataOut else .lastDataOut) = _
  rw [List.length_nil, Nat.mul_zero, Nat.zero_add]
  split
  · rename_i hlt
    exact (if_neg (Nat.not_le.mpr (h64.mp hlt))).symm
  · rename_i hnot
    exact (if_pos (Nat.not_lt.mp (mt h64.mpr hnot))).symm

/-- No packet is expected: the transfer is over, one way or the other. -/
def State.Closed (s : State) : Prop := s.usbFsmState = .idle ∨ s.usbFsmState = .statusIn

theorem State.Closed.out {t : State} (h : t.Closed) (p : List Byte) :
    step c t (.out p) = (t.raise (.out p)).stallTransaction.mapUsb
      (State.acknowledge (usbIstrCtr ||| usbIstrDir)) := by
  apply step_out_other
  rcases h with h | h <;> rw [h] <;> decide

theorem State.Closed.not_dispatches {t : State} (h : t.Closed) (p : List Byte) :
    ¬t.Dispatches (.out p) := by
  rintro ⟨hf, -⟩
  rcases h with h | h <;> cases h.symm.trans hf

/-- In a control write no packet but the last of its data calls a handler. -/
theorem unhandled_of_not_dispatches (c : Device) {t : State} {p : List Byte}
    (ht : t.Expecting ∨ t.Closed) (hno : ¬t.Dispatches (.out p)) :
    Unhandled t (step c t (.out p)) := by
  rcases ht with hexp | hclosed
  · by_cases hp : t.packetsize.toNat ≤ p.length % 1024
    · have hf : t.usbFsmState = .dataOut := hexp.resolve_right fun hlast => hno ⟨hlast, hp⟩
      rw [step_out_dataOut_eq c t p hf, if_pos hp]
      exact ⟨rfl, rfl, .inl rfl⟩
    · rw [step_out_short c t p hexp hp]
      exact ⟨rfl, rfl, .inr rfl⟩
  · rw [hclosed.out p]
    exact ⟨rfl, rfl, .inr rfl⟩

theorem idle_run {t : State} (h : t.usbFsmState = .idle) (ds : List (List Byte)) :
    let u := run (step c) t (ds.map .out)
    u.usbFsmState = .idle ∧ u.usbdControlBuffer = t.usbdControlBuffer ∧
      u.usbCompleteCb = t.usbCompleteCb ∧ u.dfu.newPoll = t.dfu.newPoll := by
  induction ds generalizing t with
  | nil => exact ⟨h, rfl, rfl, rfl⟩
  | cons p ds ih =>
    have hclosed : t.Closed := .inl h
    rw [List.map_cons, run_cons, hclosed.out p]
    exact ih rfl

theorem run_concat (c : Device) (s : State) (d : List Byte) (ds : List (List Byte))
    (p : List Byte) :
    run (step c) s (.setup d :: (ds ++ [p]).map .out) =
      step c (run (step c) s (.setup d :: ds.map .out)) (.out p) := by
  rw [List.map_append, ← List.cons_append, run_append]
  rfl

/-- The transfer after the packets `ds`: under way as long as they are whole and leave something
to come, and over from then on. -/
theorem collected_run (hd : (setupBytes d).length = 8) (h : (s.requestOf (.setup d)).Writes)
    (hw : (s.requestOf (.setup d)).wLength.toNat ≤ dfuTransferSize) (ds : List (List Byte)) :
    let r := s.requestOf (.setup d)
    let t := run (step c) s (.setup d :: ds.map .out)
    if Whole 64 r.wLength.toNat (ds.map reported) ∧ 64 * ds.length < r.wLength.toNat then
      Collected s r ds t
    else t.Closed := by
  induction ds using List.reverseRecOn with
  | nil =>
    intro r t
    have hz := collected_setup (c := c) hd h hw
    rw [if_pos ⟨hz.whole, hz.more⟩]
    exact hz
  | append_singleton ds p ih =>
    intro r t
    let t₀ := run (step c) s (.setup d :: ds.map .out)
    have hrun : t = step c t₀ (.out p) := run_concat c s d ds p
    have hlen : (ds ++ [p]).length = ds.length + 1 := by simp
    rw [hrun, hlen]
    dsimp only at ih
    split at ih
    · rename_i hopen
      have hwhole := ih.whole_concat (p := p)
      by_cases hp : t₀.packetsize.toNat ≤ p.length % 1024
      · by_cases hmore : 64 * ds.length + 64 < r.wLength.toNat
        · rw [if_pos ⟨hwhole.mpr hp, by omega⟩]
          exact ih.next c hp hmore
        · rw [if_neg (by omega)]
          obtain ⟨q, -, -, -, -, hq⟩ := ih.last c hp (Nat.not_lt.mp hmore)
          rw [hq]
          exact (q.handOver_fsm c).symm
      · rw [if_neg fun hall => hp (hwhole.mp hall.1)]
        exact .inl (ih.short c hp).2.2
    · rename_i hover
      have hclosed : ¬(Whole 64 r.wLength.toNat ((ds ++ [p]).map reported) ∧
          64 * (ds.length + 1) < r.wLength.toNat) := by
        rintro ⟨hall, hmore⟩
        exact hover ⟨whole_of_concat hall, show 64 * ds.length < r.wLength.toNat by omega⟩
      rw [if_neg hclosed, State.Closed.out ih p]
      exact .inl rfl

/-- Which packet of a control write is handed over with its data: the one that completes
`wLength`, if no packet was short. -/
theorem dispatches_iff (hd : (setupBytes d).length = 8) (h : (s.requestOf (.setup d)).Writes)
    (hw : (s.requestOf (.setup d)).wLength.toNat ≤ dfuTransferSize) (ds : List (List Byte))
    (p : List Byte) :
    (run (step c) s (.setup d :: ds.map .out)).Dispatches (.out p) ↔
      (ds ++ [p]).length = ((s.requestOf (.setup d)).wLength.toNat + 63) / 64 ∧
        Whole 64 (s.requestOf (.setup d)).wLength.toNat ((ds ++ [p]).map reported) := by
  have hrun := collected_run (c := c) hd h hw ds
  have hlen : (ds ++ [p]).length = ds.length + 1 := by simp
  rw [hlen]
  dsimp only at hrun
  split at hrun
  · rename_i hopen
    rw [hrun.whole_concat]
    constructor
    · rintro ⟨hf, hp⟩
      have hlast : (s.requestOf (.setup d)).wLength.toNat ≤ 64 * ds.length + 64 := by
        have hfsm := hrun.usbFsmState
        by_contra hlt
        rw [if_neg hlt, hf] at hfsm
        cases hfsm
      exact ⟨by omega, hp⟩
    · rintro ⟨hn, hp⟩
      exact ⟨hrun.usbFsmState.trans (if_pos (by omega)), hp⟩
  · rename_i hover
    refine iff_of_false (hrun.not_dispatches p) ?_
    rintro ⟨hn, hall⟩
    exact hover ⟨whole_of_concat hall, by omega⟩

/-- A packet that is not handed over is stored inside the bytes asked for: the transfer goes on,
or it is stalled. -/
theorem Collected.undispatched {t : State} {r : UsbSetupData} {ds : List (List Byte)}
    {p : List Byte} (c : Device) (h : Collected s r ds t) (hno : ¬t.Dispatches (.out p)) :
    let u := step c t (.out p)
    let w := r.wLength.toNat
    let seen := (ds ++ [p]).map reported
    (∀ i, w ≤ i → u.usbdControlBuffer i = t.usbdControlBuffer i) ∧
      if Whole 64 w seen ∧ 64 * (ds ++ [p]).length < w then
        u.Expecting ∧ u.usbdControlBuffer = blit 0 (collect 64 w seen) s.usbdControlBuffer
      else .stall ∈ u.out ∧ u.usbFsmState = .idle := by
  intro u w seen
  have hkept : u.usbdControlBuffer = blit 0 (collect 64 w seen) s.usbdControlBuffer →
      ∀ i, w ≤ i → u.usbdControlBuffer i = t.usbdControlBuffer i := by
    intro hbuf i hi
    rw [hbuf, h.buffer, blit_collect_of_le hi, blit_collect_of_le hi]
  by_cases hp : t.packetsize.toNat ≤ p.length % 1024
  · have hmore : 64 * ds.length + 64 < w := by
      by_contra hlast
      exact hno ⟨h.usbFsmState.trans (if_pos (Nat.not_lt.mp hlast)), hp⟩
    have hnext := h.next c hp hmore
    rw [if_pos ⟨hnext.whole, hnext.more⟩]
    exact ⟨hkept hnext.buffer, hnext.expecting, hnext.buffer⟩
  · obtain ⟨hbuf, hstall, hidle⟩ := h.short c hp
    rw [if_neg fun hall => hp (h.whole_concat.mp hall.1)]
    exact ⟨hkept hbuf, hstall, hidle⟩

theorem too_long_inert (hd : (setupBytes d).length = 8) (h : (s.requestOf (.setup d)).Writes)
    (hw : dfuTransferSize < (s.requestOf (.setup d)).wLength.toNat) (ds : List (List Byte))
    (p : List Byte) :
    let t := run (step c) s (.setup d :: ds.map .out)
    let u := step c t (.out p)
    .stall ∈ (step c s (.setup d)).out ∧ t.usbFsmState = .idle ∧ ¬t.Dispatches (.out p) ∧
      u.usbdControlBuffer = s.usbdControlBuffer ∧ u.usbCompleteCb = none ∧
      u.dfu = s.dfu.newPoll ∧ (u.out = [] ∨ u.out = [.stall]) := by
  intro t u
  have hsetup : step c s (.setup d) = _ := setup_too_long hd h hw
  have hstalled : (step c s (.setup d)).usbFsmState = .idle := by
    rw [hsetup]
    rfl
  have hnew : (step c s (.setup d)).usbdControlBuffer = s.usbdControlBuffer ∧
      (step c s (.setup d)).usbCompleteCb = none ∧
      (step c s (.setup d)).dfu.newPoll = s.dfu.newPoll := by
    rw [hsetup]
    exact ⟨rfl, rfl, rfl⟩
  obtain ⟨hidle, hbuf, hcb, hdfu⟩ := idle_run (c := c) hstalled ds
  have hclosed : t.Closed := .inl hidle
  have hno := hclosed.not_dispatches p
  have hquiet : Unhandled t u := unhandled_of_not_dispatches c (.inr hclosed) hno
  have hkept : u.usbdControlBuffer = t.usbdControlBuffer := by
    change (step c t (.out p)).usbdControlBuffer = _
    rw [hclosed.out p]
    rfl
  refine ⟨by rw [hsetup]; exact List.mem_cons_self, hidle, hno, ?_, ?_, ?_, hquiet.out⟩
  · exact hkept.trans (hbuf.trans hnew.1)
  · exact hquiet.usbCompleteCb.trans (hcb.trans hnew.2.1)
  · exact hquiet.dfu.trans (hdfu.trans hnew.2.2)

end Transfer

end Swindle
