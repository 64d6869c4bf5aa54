import Swindle.Usb.Effect

/-! Which registers the endpoint layer writes, and what becomes of the transmit side of endpoint
0 while a request is handled. -/
namespace Swindle
open Machine

namespace Usb

variable (u : Usb) {i : ℕ}

theorem resetEndpoints_reg (h : i = 0 ∨ 8 ≤ i) : (State.resetEndpoints u).reg i = u.reg i := by
  have hne : ∀ j ∈ List.range' 1 7, i ≠ j := fun j hj => by
    have := List.mem_range'_1.mp hj
    omega
  unfold State.resetEndpoints
  generalize List.range' 1 7 = js at hne
  induction js generalizing u with
  | nil => rfl
  | cons j js ih =>
    have hj := hne j (by simp)
    rw [List.foldl_cons, ih _ fun k hk => hne k (by simp [hk])]
    exact (setReg_reg_of_ne _ hj _).trans (setReg_reg_of_ne _ hj _)

theorem configure_reg (h : i = 0 ∨ 8 ≤ i) : u.configure.reg i = u.reg i := by
  dsimp only [configure]
  exact resetEndpoints_reg u h

/-- The register that a stall request with the address `addr` writes. -/
def stallReg (addr : Byte) : ℕ := (addr &&& 0x7F#8).toNat

theorem stallReg_eq {addr : Byte} (h : addr &&& 0x80#8 = 0#8) : addr.toNat = stallReg addr := by
  have hbit : addr &&& 0x7F#8 = addr := by
    have hsplit : addr = (addr &&& 0x80#8) ||| (addr &&& 0x7F#8) := by
      rw [← BitVec.and_or_distrib_left, show 0x80#8 ||| 0x7F#8 = BitVec.allOnes 8 by decide,
        BitVec.and_allOnes]
    rw [h] at hsplit
    simpa using hsplit.symm
  rw [stallReg, hbit]

/-! The three forms of a stall request: endpoint 0, a transmit side, a receive side. -/

theorem epStallSet_zero (stall : Bool) :
    u.epStallSet 0#8 stall =
      if stall then (u.setEpTxStat 0 usbEpTxStatStall).setEpRxStat 0 usbEpRxStatStall
      else ((u.setEpTxStat 0 usbEpTxStatNak).clrEpRxDtog 0).setEpRxStat 0 usbEpRxStatValid := by
  cases stall <;> rfl

theorem epStallSet_tx {addr : Byte} (h : addr &&& 0x80#8 ≠ 0#8) (stall : Bool) :
    u.epStallSet addr stall =
      if stall then u.setEpTxStat (stallReg addr) usbEpTxStatStall
      else (u.setEpTxStat (stallReg addr) usbEpTxStatNak).clrEpTxDtog (stallReg addr) := by
  have h0 : addr ≠ 0#8 := fun h0 => h (by rw [h0]; decide)
  rw [epStallSet, if_neg h0, if_pos h]
  cases stall <;> rfl

theorem epStallSet_rx {addr : Byte} (h : addr &&& 0x80#8 = 0#8) (h0 : addr ≠ 0#8) (stall : Bool) :
    u.epStallSet addr stall =
      if stall then u.setEpRxStat (stallReg addr) usbEpRxStatStall
      else (u.clrEpRxDtog (stallReg addr)).setEpRxStat (stallReg addr) usbEpRxStatValid := by
  rw [epStallSet, if_neg h0, if_neg (not_not.mpr h), stallReg_eq h]
  cases stall <;> rfl

theorem epStallSet_reg_of_ne (addr : Byte) (stall : Bool) (h : i ≠ stallReg addr) :
    (u.epStallSet addr stall).reg i = u.reg i := by
  by_cases h0 : addr = 0#8
  · subst h0
    have hi : i ≠ 0 := h
    rw [epStallSet_zero]
    cases stall with
    | true => exact (setReg_reg_of_ne _ hi _).trans (setReg_reg_of_ne _ hi _)
    | false =>
      exact (setReg_reg_of_ne _ hi _).trans ((setReg_reg_of_ne _ hi _).trans
        (setReg_reg_of_ne _ hi _))
  by_cases hdir : addr &&& 0x80#8 = 0#8
  · rw [epStallSet_rx u hdir h0]
    cases stall with
    | true => exact setReg_reg_of_ne _ h _
    | false => exact (setReg_reg_of_ne _ h _).trans (setReg_reg_of_ne _ h _)
  · rw [epStallSet_tx u hdir]
    cases stall with
    | true => exact setReg_reg_of_ne _ h _
    | false => exact (setReg_reg_of_ne _ h _).trans (setReg_reg_of_ne _ h _)

/-! Endpoint 0 stays free to send while a request is handled. -/

theorem ready_iff : u.txBusy 0#8 = false ↔ u.reg 0 &&& usbEpTxStat ≠ usbEpTxStatValid := by
  simp [txBusy]

theorem ready_of_eq {v : Usb} (hv : v.reg 0 &&& usbEpTxStat = u.reg 0 &&& usbEpTxStat)
    (h : u.txBusy 0#8 = false) : v.txBusy 0#8 = false := by
  rw [ready_iff] at h ⊢
  rwa [hv]

theorem epStallSet_ready (h : u.txBusy 0#8 = false) (addr : Byte) (stall : Bool) :
    (u.epStallSet addr stall).txBusy 0#8 = false := by
  have h8 : 0 < 8 := by decide
  by_cases hr : stallReg addr = 0
  swap
  · exact u.ready_of_eq (by rw [u.epStallSet_reg_of_ne addr stall fun h0 => hr h0.symm]) h
  have hnak : (u.setEpTxStat 0 usbEpTxStatNak).reg 0 &&& usbEpTxStat = usbEpTxStatNak :=
    u.setEpTxStat_txStat h8 (by decide)
  have hstall : (u.setEpTxStat 0 usbEpTxStatStall).reg 0 &&& usbEpTxStat = usbEpTxStatStall :=
    u.setEpTxStat_txStat h8 (by decide)
  apply txBusy_eq_false
  by_cases h0 : addr = 0#8
  · rw [h0, epStallSet_zero]
    cases stall with
    | true =>
      rw [if_pos rfl, setEpRxStat_txStat _ h8 (by decide), hstall]
      decide
    | false =>
      rw [if_neg (by decide), setEpRxStat_txStat _ h8 (by decide), clrEpRxDtog_stat _ h8 (.inr rfl),
        hnak]
      decide
  by_cases hdir : addr &&& 0x80#8 = 0#8
  · refine absurd (BitVec.eq_of_toNat_eq ?_) h0
    rw [stallReg_eq hdir, hr]
    rfl
  · rw [epStallSet_tx u hdir, hr]
    cases stall with
    | true =>
      rw [if_pos rfl, hstall]
      decide
    | false =>
      rw [if_neg (by decide), clrEpTxDtog_stat _ h8 (.inr rfl), hnak]
      decide

end Usb

theorem dispatch_ready (c : Device) (s : State) (h : s.usb.txBusy 0#8 = false) :
    (s.usbControlRequestDispatch c).2.usb.txBusy 0#8 = false := by
  by_cases hd : s.usbReq.isDfu
  · rw [State.dispatch_of_dfu c hd]
    exact h
  · rw [State.dispatch_of_not_dfu c hd]
    obtain ⟨x, hx⟩ := decides_standard c s.usbReq
    rw [hx.eq s rfl]
    change (x.usb s.usb).txBusy 0#8 = false
    rcases hx.regs with hu | hu | ⟨set, -, hu⟩
    · rwa [hu]
    · rw [hu]
      exact s.usb.ready_of_eq (by rw [s.usb.configure_reg (.inl rfl)]) h
    · rw [hu]
      exact s.usb.epStallSet_ready h _ _

end Swindle
