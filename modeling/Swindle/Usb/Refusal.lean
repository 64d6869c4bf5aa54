import Swindle.Usb.Reassembly

/-! Refused control transfers: from the SETUP to the stall, nothing changes above the control
endpoint. -/
namespace Swindle
open Machine

/-- The DFU state with its pending download, the flash and the device address are as before. -/
structure Untouched (s t : State) : Prop where
  usbdfuState : t.dfu.usbdfuState = s.dfu.usbdfuState
  prog : t.dfu.prog = s.dfu.prog
  flash : t.dfu.newPoll.flash = s.dfu.newPoll.flash
  daddr : t.usb.reg usbDaddrReg = s.usb.reg usbDaddrReg

/-- `t` is where a transfer begun at `s` ends that is stalled. -/
structure Refused (s t : State) : Prop extends Untouched s t where
  stall : .stall ∈ t.out
  idle : t.usbFsmState = .idle
  usbCompleteCb : t.usbCompleteCb = none

/-- The event makes the device refuse the control transfer it is in: a SETUP that is too short or
announces too much, a data packet that is too short, a request that no handler takes. -/
def State.Refuses (c : Device) (s : State) : Event → Prop
  | .setup d =>
    (setupBytes d).length ≠ 8 ∨
      (s.requestOf (.setup d)).Writes ∧
        dfuTransferSize < (s.requestOf (.setup d)).wLength.toNat ∨
      s.Dispatches (.setup d) ∧ (s.handling c (.setup d)).1 = .notsupp
  | .out p =>
    s.Expecting ∧ (p.length % 1024 < s.packetsize.toNat ∨
      s.Dispatches (.out p) ∧ (s.handling c (.out p)).1 = .notsupp)
  | _ => False

section Refusal

variable {c : Device} {s t : State}

theorem Untouched.trans {u : State} (h : Untouched s t) (h' : Untouched t u) : Untouched s u :=
  ⟨h'.usbdfuState.trans h.usbdfuState, h'.prog.trans h.prog, h'.flash.trans h.flash,
    h'.daddr.trans h.daddr⟩

theorem untouched_of_dfu (hd : t.dfu = s.dfu.newPoll)
    (hr : t.usb.reg usbDaddrReg = s.usb.reg usbDaddrReg) : Untouched s t := by
  constructor
  · rw [hd]
    rfl
  · rw [hd]
    rfl
  · rw [hd]
    rfl
  · exact hr

theorem refused_step {e : Event} (h : s.Refuses c e)
    (hcb : ∀ p, e = .out p → s.usbCompleteCb = none) : Refused s (step c s e) := by
  -- both causes that lie in the packet itself end in a stall straight away
  have hreg : ∀ (u : Usb) (istr : BitVec 16), u.reg usbDaddrReg = s.usb.reg usbDaddrReg →
      (State.acknowledge istr (u.epStallSet 0#8 true)).reg usbDaddrReg =
        s.usb.reg usbDaddrReg := by
    intro u istr hu
    rw [Usb.acknowledge_reg _ outer_daddr, Usb.stall_reg _ outer_daddr.1, hu]
  have hdispatch : s.Dispatches e → (s.handling c e).1 = .notsupp →
      (s.handed e).dfu = s.dfu.newPoll → (s.handed e).usbCompleteCb = none →
      Refused s (step c s e) := by
    intro hd hq hdfu hnone
    obtain ⟨hqd, hqc, hqu⟩ := State.dispatch_refused c hq
    rw [State.step_of_refused c hd hq]
    refine ⟨untouched_of_dfu (hqd.trans hdfu) (hreg _ _ ?_), List.mem_cons_self, rfl,
      hqc.trans hnone⟩
    rw [State.handling, hqu, s.handed_reg outer_daddr.received]
  cases e with
  | setup d =>
    have hread := s.usb.readSetup_reg outer_daddr.received d
    rcases h with hlen | ⟨hw, hlong⟩ | ⟨hd, hq⟩
    · rw [step_setup_eq, if_pos hlen]
      exact ⟨untouched_of_dfu rfl (hreg _ _ hread), List.mem_cons_self, rfl, rfl⟩
    · by_cases hlen : (setupBytes d).length = 8
      · rw [setup_too_long hlen hw hlong]
        exact ⟨untouched_of_dfu rfl (hreg _ _ hread), List.mem_cons_self, rfl, rfl⟩
      · rw [step_setup_eq, if_pos hlen]
        exact ⟨untouched_of_dfu rfl (hreg _ _ hread), List.mem_cons_self, rfl, rfl⟩
    · exact hdispatch hd hq rfl rfl
  | out p =>
    have hnone := hcb p rfl
    obtain ⟨hexp, hshort | ⟨hd, hq⟩⟩ := h
    · have hread := s.usb.readData_reg outer_daddr.received p s.packetsize
      rw [step_out_short c s p hexp (Nat.not_le.mpr hshort)]
      exact ⟨untouched_of_dfu rfl (hreg _ _ hread), List.mem_cons_self, rfl, hnone⟩
    · exact hdispatch hd hq rfl hnone
  | inComplete => exact h.elim
  | reset => exact h.elim

section Stage

variable {d : List Byte}

theorem untouched_of_expecting {ds : List (List Byte)}
    (h : (run (step c) s (.setup d :: ds.map .out)).Expecting) :
    (run (step c) s (.setup d :: ds.map .out)).usbCompleteCb = none ∧
      ∀ k, Untouched s (run (step c) s (.setup d :: (ds.take k).map .out)) := by
  induction ds using List.reverseRecOn with
  | nil =>
    obtain ⟨hstep, -, -⟩ := setup_expecting c s d h
    have hcb : (step c s (.setup d)).usbCompleteCb = none := by rw [hstep]; rfl
    refine ⟨hcb, fun k => ?_⟩
    rw [List.take_nil]
    change Untouched s (step c s (.setup d))
    rw [hstep]
    refine untouched_of_dfu rfl ((Usb.acknowledge_reg _ outer_daddr _).trans ?_)
    exact (Usb.nakSet_reg _ outer_daddr.1 false).trans (s.usb.readSetup_reg outer_daddr.received d)
  | append_singleton ds p ih =>
    let t := run (step c) s (.setup d :: ds.map .out)
    rw [run_concat c s d ds p] at h ⊢
    obtain ⟨hf, -, hstep⟩ := out_expecting c t p h
    obtain ⟨hcb, huntouched⟩ := ih (.inl hf)
    have hlast : Untouched t (step c t (.out p)) := by
      rw [hstep]
      exact untouched_of_dfu rfl ((Usb.acknowledge_reg _ outer_daddr _).trans
        (t.usb.readData_reg outer_daddr.received p _))
    have hcb' : (step c t (.out p)).usbCompleteCb = none := by
      rw [hstep]
      exact hcb
    refine ⟨hcb', fun k => ?_⟩
    by_cases hk : k ≤ ds.length
    · rw [List.take_append_of_le_length hk]
      exact huntouched k
    · have hall : (ds ++ [p]).take k = ds ++ [p] := List.take_of_length_le (by simp; omega)
      have hbefore := huntouched ds.length
      rw [List.take_length] at hbefore
      rw [hall, run_concat]
      exact hbefore.trans hlast

end Stage

/-- A control transfer that the device refuses, at its SETUP or at a packet of its data stage,
changes nothing from its SETUP up to and including the stall. -/
theorem refused_transfer_inert (c : Device) (s : State) (d : List Byte) :
    (s.Refuses c (.setup d) → Refused s (step c s (.setup d))) ∧
    ∀ (ds : List (List Byte)) (p : List Byte),
      (run (step c) s (.setup d :: ds.map .out)).Refuses c (.out p) →
      (∀ k, Untouched s (run (step c) s (.setup d :: (ds.take k).map .out))) ∧
        Refused s (run (step c) s (.setup d :: (ds ++ [p]).map .out)) := by
  constructor
  · intro h
    exact refused_step h nofun
  · intro ds p h
    obtain ⟨hcb, huntouched⟩ := untouched_of_expecting h.1
    have hbefore := huntouched ds.length
    rw [List.take_length] at hbefore
    have hlast := refused_step h fun _ _ => hcb
    rw [run_concat]
    exact ⟨huntouched, ⟨hbefore.trans hlast.toUntouched, hlast.stall, hlast.idle,
      hlast.usbCompleteCb⟩⟩

/-- A download of 100 bytes whose second packet has ten: the device keeps the one that waits. -/
theorem refused_transfer_inert_short :
    let c := Device.stm64k
    let s := run (step c) (State.start (fun _ => 0xFF#8) fun _ => 0#8) (dnload 2#16 [0xAA#8])
    let d := setupPacket 0x21#8 1#8 3#16 0#16 100#16
    let ds := [List.replicate 64 0xBB#8]
    let p := List.replicate 10 0xBB#8
    (run (step c) s (.setup d :: ds.map .out)).Refuses c (.out p) ∧
      Refused s (run (step c) s (.setup d :: (ds ++ [p]).map .out)) := by
  intro c s d ds p
  have hr : (run (step c) s (.setup d :: ds.map .out)).Refuses c (.out p) :=
    ⟨by decide, .inl (by decide)⟩
  exact ⟨hr, ((refused_transfer_inert c s d).2 ds p hr).2⟩

end Refusal

end Swindle
