import Swindle.Dfu.Deferred
import Swindle.Flash.Program

/-! The deferred operation: what it does to the flash when its target passes the address check
and when it does not. -/
namespace Swindle
open Machine

section Wipe

variable (c : Device) {f : Flash}

/-- The flash as an operation finds it: safe-write builds wipe it before the first one. -/
def wiped (f : Flash) : Addr → Byte :=
  if c.enableSafewrite && !f.erased then Nor.erase (Touched c startAddr (endAddr c)) f.mem
  else f.mem

theorem wiped_of_disabled (h : c.enableSafewrite = false) (f : Flash) : wiped c f = f.mem := by
  rw [wiped, h]
  rfl

theorem wiped_of_erased (h : c.enableSafewrite → f.erased) : wiped c f = f.mem := by
  unfold wiped
  cases hs : c.enableSafewrite with
  | false => rfl
  | true => rw [h hs]; rfl

theorem startAddr_aligned : startAddr.toNat % c.getFlashPageSize = 0 := by
  rcases c.pageSize_cases with hp | hp <;> rw [hp, startAddr_toNat]

theorem safewrite_mem (h : f.Idle false) : (safewrite c f).mem = wiped c f := by
  unfold safewrite wiped checkDoErase
  cases hs : c.enableSafewrite with
  | false => rfl
  | true =>
    cases he : f.erased with
    | true => rfl
    | false =>
      refine erasePages_mem c (endAddr_lt c) h (startAddr_aligned c) ?_
      rw [endAddr_toNat, startAddr_toNat]
      rcases c.pageSize_cases with hp | hp <;> rw [hp] <;> omega

theorem safewrite_cr (h : f.Idle false) : (safewrite c f).cr = f.cr := by
  unfold safewrite checkDoErase
  split
  · split
    · rfl
    · exact (erasePages_cr c _ _ _ h).1
  · rfl

theorem safewrite_idle (h : f.Idle false) : (safewrite c f).Idle false := (safewrite_cr c h).trans h

theorem safewrite_erased (hs : c.enableSafewrite) : (safewrite c f).erased := by
  unfold safewrite checkDoErase
  rw [if_pos hs]
  split
  · assumption
  · rfl

end Wipe

section Operation

variable (c : Device) (p : Prog) {f : Flash}

def Prog.base : Addr := blockAddress p.addr p.blocknum

def Prog.length : Addr := p.len.setWidth 32

theorem Prog.length_eq (p : Prog) : p.length = BitVec.ofNat 32 p.len.toNat := by
  apply BitVec.eq_of_toNat_eq
  simp [Prog.length]

def Prog.refused : Bool :=
  if p.blocknum = 0#16 then
    p.buf 0 = cmdErase && !addressCheck c (readU32 p.buf 1) (BitVec.ofNat 32 dfuTransferSize)
  else !addressCheck c p.base p.length

/-- The flash as the programming routine finds it. -/
def Prog.erased (c : Device) (p : Prog) (f : Flash) : Flash :=
  erasePages c (p.base + p.length) p.len.toNat p.base (safewrite c f)

theorem executeBlock_eq (c : Device) (p : Prog) (f : Flash)
    (hc : addressCheck c p.base p.length) :
    executeBlock c p f =
      if c.isGd32 then flashProgramBufferGd32 c p.base p.buf p.len.toNat (p.erased c f)
      else flashProgramBuffer c p.base p.buf p.len.toNat (p.erased c f) := if_pos hc

theorem Prog.erased_cr (h : f.Idle false) : (p.erased c f).cr = f.cr :=
  (erasePages_cr c _ _ _ (safewrite_idle c h)).1.trans (safewrite_cr c h)

theorem executeBlock_programmed (h : f.Idle false) (hc : addressCheck c p.base p.length) :
    Programmed p.base p.buf p.len.toNat (p.erased c f) (executeBlock c p f) := by
  have hidle : (p.erased c f).Idle false := (p.erased_cr c h).trans h
  have hlen : p.len.toNat ≤ 65535 := by
    have := p.len.isLt
    omega
  rw [executeBlock_eq c p f hc]
  split
  · exact programBufferGd32_programmed c hidle p.base p.buf hlen
  · exact programBuffer_programmed c hidle p.base p.buf hlen

theorem executeBlock_refused (hc : addressCheck c p.base p.length = false) :
    executeBlock c p f = safewrite c f := if_neg (by rw [← Bool.not_eq_true] at hc; exact hc)

theorem flashAfter_cr (h : f.Idle false) : (p.flashAfter c f).cr = f.cr := by
  have hs := safewrite_idle c h
  unfold Prog.flashAfter
  split
  · split
    · unfold executeErase
      dsimp only
      split
      · split
        · exact safewrite_cr c h
        · rw [Flash.erasePage_eq hs]
          exact safewrite_cr c h
      · exact safewrite_cr c h
    · rfl
  · by_cases hc : addressCheck c p.base p.length
    · exact (executeBlock_programmed c p h hc).cr.trans (p.erased_cr c h)
    · rw [executeBlock_refused c p (by simpa using hc)]
      exact safewrite_cr c h

theorem flashAfter_of_refused (h : p.refused c) : p.flashAfter c f = safewrite c f := by
  unfold Prog.refused at h
  unfold Prog.flashAfter
  split at h
  · rename_i hb
    rw [Bool.and_eq_true, decide_eq_true_eq, Bool.not_eq_true'] at h
    rw [if_pos hb, if_pos h.1]
    exact if_neg (by rw [h.2]; exact Bool.false_ne_true)
  · rename_i hb
    rw [Bool.not_eq_true'] at h
    rw [if_neg hb, executeBlock_refused c p h]

theorem addrAfter_of_refused (h : p.refused c) : p.addrAfter = p.addr := by
  unfold Prog.refused at h
  unfold Prog.addrAfter
  split at h
  · rw [Bool.and_eq_true, decide_eq_true_eq] at h
    have hne : ¬(p.blocknum = 0#16 ∧ p.buf 0 = cmdSetaddr) := by
      rintro ⟨-, hs⟩
      rw [h.1] at hs
      exact absurd hs (by decide)
    exact if_neg hne
  · rename_i hb
    exact if_neg fun hs => hb hs.1

end Operation

/-! Which polls execute the pending operation. -/

section Execution

variable (c : Device) {s : State} {e : Event}

/-- The event ends a status stage that executes what is pending. -/
def State.Executes (s : State) (e : Event) : Prop :=
  StatusStage s e ∧ s.usbCompleteCb.isSome ∧ s.dfu.usbdfuState = .dfuDnbusy

instance (s : State) : DecidablePred s.Executes := fun _ => inferInstanceAs (Decidable (_ ∧ _ ∧ _))

theorem step_of_executes (h : s.Executes e) :
    (step c s e).dfu = usbdfuGetstatusComplete c s.dfu.newPoll := by
  obtain ⟨hstage, hcb, -⟩ := h
  cases e with
  | out d => exact (step_out_callback c s d hstage hcb).2
  | inComplete =>
    have hf : ((s.raise .inComplete).mapUsb (Usb.clrEpTxCtr 0)).usbFsmState = .statusIn := hstage
    have hc : ((s.raise .inComplete).mapUsb (Usb.clrEpTxCtr 0)).usbCompleteCb.isSome := hcb
    rw [step_inComplete, State.usbdControlIn, hf]
    exact (State.latchAddress_fields _).1.trans (State.complete_dfu c hc)
  | setup d => exact hstage.elim
  | reset => exact hstage.elim

/-- The flash after the execution, locked again. -/
theorem flash_of_executes (hl : s.dfu.flash.Idle true) (h : s.Executes e) :
    (step c s e).dfu.flash = { s.dfu.prog.flashAfter c (flashUnlock s.dfu.newPoll.flash) with
      cr := ⟨true, false, false, false⟩ } := by
  have hidle : (flashUnlock s.dfu.newPoll.flash).Idle false := Flash.idle_unlock hl
  have hafter := (flashAfter_cr c s.dfu.prog hidle).trans hidle
  rw [step_of_executes c h, getstatusComplete_of_busy c (d := s.dfu.newPoll) h.2.2]
  exact Flash.lock_eq hafter

theorem flash_of_not_executes (h : ¬s.Executes e) :
    (step c s e).dfu.flash = s.dfu.newPoll.flash := by
  rcases dfu_cases c s e with hq | ⟨r, hr, -⟩ | ⟨hc, hb⟩
  · rw [hq]
  · rw [hr.dfu, controlRequest_flash, hr.before]
  · exact absurd ⟨hc.stage, hc.registered, hb⟩ h

end Execution

/-! Between polls the flash is locked and no operation is selected. -/

theorem locked_step (c : Device) (s : State) (e : Event) (h : s.dfu.flash.Idle true) :
    (step c s e).dfu.flash.Idle true := by
  rcases dfu_cases c s e with hq | ⟨r, hr, hdis⟩ | ⟨hc, hb⟩
  · rw [hq]
    exact h
  · rw [hr.dfu, controlRequest_flash, hr.before]
    exact h
  · have hidle : (flashUnlock s.dfu.newPoll.flash).Idle false := Flash.idle_unlock h
    have hafter : (s.dfu.prog.flashAfter c (flashUnlock s.dfu.newPoll.flash)).Idle false :=
      (flashAfter_cr c s.dfu.prog hidle).trans hidle
    rw [hc.of_busy hb]
    dsimp only
    rw [Flash.lock_eq hafter]
    rfl

def Reachable (c : Device) (s : State) : Prop :=
  ∃ mem ram es, s = run (step c) (State.start mem ram) es

theorem Reachable.locked {c : Device} {s : State} (h : Reachable c s) :
    s.dfu.flash.Idle true := by
  obtain ⟨mem, ram, es, rfl⟩ := h
  have hstart : (State.start mem ram).dfu.flash.Idle true := rfl
  exact run_invariant (fun s e => locked_step c s e) hstart es

end Swindle
