import Swindle.Usb.Poll

/-! The data stage of a control write: when the device expects a packet, how long the packet
must be, and how much of the data is in. -/
namespace Swindle
open Machine

namespace State

/-- The device expects a packet of the data stage. -/
def Expecting (s : State) : Prop :=
  s.usbFsmState = .dataOut ∨ s.usbFsmState = .lastDataOut

instance (s : State) : Decidable s.Expecting := inferInstanceAs (Decidable (_ ∨ _))

theorem packetsize_toNat (s : State) (h : s.datasize.toNat ≤ s.usbReq.wLength.toNat) :
    s.packetsize.toNat = min 64 (s.usbReq.wLength.toNat - s.datasize.toNat) := by
  have hint : (min bMaxPacketSize0 (s.usbReq.wLength.toNat - s.datasize.toNat : ℤ) : ℤ) =
      (min 64 (s.usbReq.wLength.toNat - s.datasize.toNat) : ℕ) := by
    have h64 : (bMaxPacketSize0 : ℤ) = 64 := rfl
    rw [h64]
    omega
  rw [packetsize, hint, BitVec.ofInt_natCast, BitVec.toNat_ofNat]
  omega

/-- Where a data stage stands: its data fits the buffer, is not complete, and the FSM knows
whether one packet will complete it. -/
structure Staged (s : State) : Prop where
  small : s.usbReq.wLength.toNat ≤ dfuTransferSize
  size : s.datasize.toNat < s.usbReq.wLength.toNat
  more : s.usbFsmState = .dataOut → s.datasize.toNat + 64 < s.usbReq.wLength.toNat
  last : s.usbFsmState = .lastDataOut → s.usbReq.wLength.toNat ≤ s.datasize.toNat + 64

variable {s : State}

theorem Staged.packetsize (h : s.Staged) :
    s.packetsize.toNat = min 64 (s.usbReq.wLength.toNat - s.datasize.toNat) :=
  s.packetsize_toNat (Nat.le_of_lt h.size)

theorem Staged.sum (h : s.Staged) :
    (s.datasize + s.packetsize).toNat = s.datasize.toNat + s.packetsize.toNat := by
  have hp := h.packetsize
  have hs := h.size
  have hw := s.usbReq.wLength.isLt
  rw [BitVec.toNat_add]
  omega

end State

section Steps

variable (c : Device) (s : State)

theorem setup_expecting (d : List Byte) (h : (step c s (.setup d)).Expecting) :
    step c s (.setup d) = State.mapUsb (State.acknowledge (usbIstrCtr ||| usbIstrDir))
        { s.tookSetup d (s.usb.readSetup d) with
          usb := (s.usb.readSetup d).usbdEpNakSet 0#8 false
          datasize := 0#16
          usbFsmState :=
            if BitVec.ofNat 16 bMaxPacketSize0 < (s.requestOf (.setup d)).wLength then .dataOut
            else .lastDataOut } ∧
      (s.requestOf (.setup d)).wLength ≠ 0#16 ∧
      (s.requestOf (.setup d)).wLength.toNat ≤ dfuTransferSize := by
  rw [step_setup_eq] at h ⊢
  split at h
  · rcases h with h | h <;> cases h
  rename_i hlen
  rw [if_neg hlen]
  split at h
  · by_cases htaken : ((s.tookSetup d (s.usb.readSetup d)).readDispatch c).1 = .notsupp
    · rw [State.setupRead_of_refused c htaken] at h
      rcases h with h | h <;> cases h
    · obtain ⟨-, -, -, hans⟩ := State.setupRead_of_taken c htaken
      exfalso
      rcases h with h | h <;> rcases hans with ha | ha | ha <;> cases h.symm.trans ha
  rename_i hread
  rw [if_neg hread]
  unfold State.usbControlSetupWrite at h ⊢
  split at h
  · rcases h with h | h <;> cases h
  rename_i hfit
  rw [if_neg hfit]
  refine ⟨rfl, (not_or.mp hread).1, ?_⟩
  rw [BitVec.lt_def] at hfit
  exact Nat.not_lt.mp hfit

theorem out_expecting (d : List Byte) (h : (step c s (.out d)).Expecting) :
    s.usbFsmState = .dataOut ∧ s.packetsize.toNat ≤ d.length % 1024 ∧
      step c s (.out d) = State.mapUsb (State.acknowledge (usbIstrCtr ||| usbIstrDir))
        { s.tookData d (s.usb.readData d s.packetsize) with
          datasize := s.datasize + s.packetsize
          usbFsmState :=
            if (s.usbReq.wLength.toNat - (s.datasize + s.packetsize).toNat : ℤ) ≤
              bMaxPacketSize0 then .lastDataOut else .dataOut } := by
  have hd : s.usbFsmState = .dataOut := by
    rcases step_out_fsm c s d with hf | ⟨hf, -⟩ | ⟨-, hf⟩
    · rcases h with h | h <;> cases hf.symm.trans h
    · exact hf
    · rcases h with h | h <;> cases hf.symm.trans h
  have hstep := step_out_dataOut_eq c s d hd
  rw [hstep] at h
  split at h
  · rename_i hfit
    rw [if_pos hfit] at hstep
    exact ⟨hd, hfit, hstep⟩
  · rcases h with h | h <;> cases h

theorem step_out_short (d : List Byte) (h : s.Expecting)
    (hd : ¬s.packetsize.toNat ≤ d.length % 1024) :
    step c s (.out d) = State.mapUsb (State.acknowledge (usbIstrCtr ||| usbIstrDir))
      (s.tookData d (s.usb.readData d s.packetsize)).stallTransaction := by
  rcases h with hf | hf
  · rw [step_out_dataOut_eq c s d hf, if_neg hd]
  · rw [step_out_lastDataOut_eq c s d hf, if_neg hd]

theorem in_not_expecting : ¬(step c s .inComplete).Expecting := by
  intro h
  rcases step_in_fsm c s with hf | ⟨-, hf | hf⟩ | ⟨-, hf⟩ <;>
    rcases h with h | h <;> cases hf.symm.trans h

theorem staged_setup (d : List Byte) (h : (step c s (.setup d)).Expecting) :
    (step c s (.setup d)).Staged := by
  obtain ⟨hstep, hne, hsmall⟩ := setup_expecting c s d h
  have hpos : 0 < (s.requestOf (.setup d)).wLength.toNat :=
    Nat.pos_of_ne_zero fun h0 => hne (BitVec.eq_of_toNat_eq h0)
  have h64 : BitVec.ofNat 16 bMaxPacketSize0 < (s.requestOf (.setup d)).wLength ↔
      64 < (s.requestOf (.setup d)).wLength.toNat := BitVec.lt_def
  have hz : (0#16).toNat = 0 := rfl
  rw [hstep]
  refine ⟨hsmall, ?_, ?_, ?_⟩
  · change (0#16).toNat < (s.requestOf (.setup d)).wLength.toNat
    omega
  · intro hf
    change (if _ then UsbFsmState.dataOut else .lastDataOut) = .dataOut at hf
    change (0#16).toNat + 64 < (s.requestOf (.setup d)).wLength.toNat
    split at hf
    · rename_i hlt
      have hlt' := h64.mp hlt
      omega
    · cases hf
  · intro hf
    change (if _ then UsbFsmState.dataOut else .lastDataOut) = .lastDataOut at hf
    change (s.requestOf (.setup d)).wLength.toNat ≤ (0#16).toNat + 64
    split at hf
    · cases hf
    · rename_i hle
      have hle' := mt h64.mpr hle
      omega

theorem staged_out (d : List Byte) (hs : s.Expecting → s.Staged)
    (h : (step c s (.out d)).Expecting) : (step c s (.out d)).Staged := by
  obtain ⟨hd, -, hstep⟩ := out_expecting c s d h
  have hst := hs (.inl hd)
  have hp := hst.packetsize
  have hsum := hst.sum
  have hmore := hst.more hd
  have h64 : (bMaxPacketSize0 : ℤ) = 64 := rfl
  rw [hstep]
  refine ⟨hst.small, ?_, ?_, ?_⟩
  · change (s.datasize + s.packetsize).toNat < s.usbReq.wLength.toNat
    omega
  · intro hf
    change (if _ then UsbFsmState.lastDataOut else .dataOut) = .dataOut at hf
    change (s.datasize + s.packetsize).toNat + 64 < s.usbReq.wLength.toNat
    split at hf
    · cases hf
    · omega
  · intro hf
    change (if _ then UsbFsmState.lastDataOut else .dataOut) = .lastDataOut at hf
    change s.usbReq.wLength.toNat ≤ (s.datasize + s.packetsize).toNat + 64
    split at hf
    · omega
    · cases hf

theorem staged_step (e : Event) (hs : s.Expecting → s.Staged)
    (h : (step c s e).Expecting) : (step c s e).Staged := by
  cases e with
  | reset =>
    rw [step_reset] at h ⊢
    have hst := hs h
    exact ⟨hst.small, hst.size, hst.more, hst.last⟩
  | setup d => exact staged_setup c s d h
  | out d => exact staged_out c s d hs h
  | inComplete => exact absurd h (in_not_expecting c s)

end Steps

end Swindle
