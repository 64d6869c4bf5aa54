import Swindle.Dfu.Execute

/-! Which bytes the device erases, programs and copies out. The address check keeps them in the
application area unless its 32-bit sum wraps or the last page runs past the end of flash. -/
namespace Swindle
open Machine

def InApp (c : Device) (x : Addr) : Prop :=
  startAddr.toNat ≤ x.toNat ∧ x.toNat < (endAddr c).toNat

def FlashOp.Within (c : Device) : FlashOp → Prop
  | .erase ar => ∀ x, SamePage c ar x → InApp c x
  | .program a n => ∀ x, InSpan a n x → InApp c x

def DfuAct.Within (c : Device) : DfuAct → Prop
  | .upload base => ∀ x, InSpan base dfuTransferSize x → InApp c x
  | _ => True

/-- Everything the poll erased, programmed or copied out lies in the application area. -/
structure Dfu.Within (c : Device) (d : Dfu) : Prop where
  ops : ∀ op ∈ d.flash.ops, op.Within c
  log : ∀ a ∈ d.log, a.Within c

/-! The condition. -/

/-- The sum in the address check does not wrap. -/
def NoWrap (base : Addr) (n : ℕ) : Prop := base.toNat + n < 2 ^ 32

instance (base : Addr) (n : ℕ) : Decidable (NoWrap base n) := Nat.decLt _ _

/-- The last address at which a loop over the `n` bytes from `a` on tests a page. -/
def lastPage (c : Device) (a : Addr) (n : ℕ) : Addr :=
  a + BitVec.ofNat 32 (c.getFlashPageSize * ((n - 1) / c.getFlashPageSize))

/-- The page of `a` ends before the flash does, or is blank already. -/
def PageFits (c : Device) (mem : Addr → Byte) (a : Addr) : Prop :=
  (a.toNat / c.getFlashPageSize + 1) * c.getFlashPageSize ≤ (endAddr c).toNat ∨
    flashPageIsErased c mem a

instance (c : Device) (mem : Addr → Byte) (a : Addr) : Decidable (PageFits c mem a) :=
  inferInstanceAs (Decidable (_ ∨ _))

/-- The wipe of safe-write builds covers whole pages of the flash. -/
def WipeFits (c : Device) (f : Flash) : Prop :=
  c.enableSafewrite → f.erased = false → startAddr < endAddr c →
    PageFits c f.mem (lastPage c startAddr ((endAddr c).toNat - startAddr.toNat))

instance (c : Device) (f : Flash) : Decidable (WipeFits c f) :=
  inferInstanceAs (Decidable (_ → _ → _ → _))

/-- The pending operation, if it passes the address check, passes it without a wrap, and the
last page it may erase fits. -/
def OpFits (c : Device) (p : Prog) (f : Flash) : Prop :=
  let mem := wiped c f
  let target := readU32 p.buf 1
  (p.blocknum = 0#16 → p.buf 0 = cmdErase → WipeFits c f ∧
    (addressCheck c target (BitVec.ofNat 32 dfuTransferSize) →
      NoWrap target dfuTransferSize ∨ flashPageIsErased c mem target)) ∧
  (p.blocknum ≠ 0#16 → WipeFits c f ∧
    (addressCheck c p.base p.length →
      (2 ≤ p.len.toNat → NoWrap p.base p.len.toNat) ∧
      (NoWrap p.base p.len.toNat → PageFits c mem (lastPage c p.base p.len.toNat))))

instance (c : Device) (p : Prog) (f : Flash) : Decidable (OpFits c p f) := by
  unfold OpFits
  infer_instance

/-- The condition on a state and the event it meets. -/
def RangeFits (c : Device) (s : State) (e : Event) : Prop :=
  (StatusStage s e → s.usbCompleteCb.isSome → s.dfu.usbdfuState = .dfuDnbusy →
    OpFits c s.dfu.prog (flashUnlock s.dfu.newPoll.flash)) ∧
  (s.Dispatches e → (s.requestOf e).Asks .upload → c.enableDfuUpload →
    (s.requestOf e).wValue ≠ 0#16 →
    addressCheck c (blockAddress s.dfu.prog.addr (s.requestOf e).wValue)
      (BitVec.ofNat 32 dfuTransferSize) →
    NoWrap (blockAddress s.dfu.prog.addr (s.requestOf e).wValue) dfuTransferSize)

instance (c : Device) (s : State) (e : Event) : Decidable (RangeFits c s e) := by
  unfold RangeFits
  infer_instance

/-! What the check means without a wrap. -/

section Check

variable {c : Device} {base : Addr} {n : ℕ}

theorem toNat_add_ofNat (hw : NoWrap base n) :
    (base + BitVec.ofNat 32 n).toNat = base.toNat + n := by
  have hw' : base.toNat + n < 2 ^ 32 := hw
  rw [BitVec.toNat_add, BitVec.toNat_ofNat]
  omega

/-- Without a wrap the address check says what it seems to say. -/
theorem addressCheck_iff (hw : NoWrap base n) : addressCheck c base (BitVec.ofNat 32 n) ↔
    startAddr.toNat ≤ base.toNat ∧ base.toNat + n ≤ (endAddr c).toNat := by
  rw [addressCheck, Bool.and_eq_true, decide_eq_true_eq, decide_eq_true_eq, BitVec.le_def,
    BitVec.le_def, toNat_add_ofNat hw]

theorem check_noWrap (h : addressCheck c base (BitVec.ofNat 32 n)) (hw : NoWrap base n) :
    startAddr.toNat ≤ base.toNat ∧ base.toNat + n ≤ (endAddr c).toNat ∧
      (base + BitVec.ofNat 32 n).toNat = base.toNat + n := by
  obtain ⟨hlo, hhi⟩ := (addressCheck_iff hw).mp h
  exact ⟨hlo, hhi, toNat_add_ofNat hw⟩

theorem check_le {m : Addr} (h : addressCheck c base m) :
    (base + m).toNat ≤ (endAddr c).toNat := by
  rw [addressCheck, Bool.and_eq_true, decide_eq_true_eq, decide_eq_true_eq] at h
  exact BitVec.le_def.mp h.2

theorem span_within (hlo : startAddr.toNat ≤ base.toNat)
    (hhi : base.toNat + n ≤ (endAddr c).toNat) {x : Addr} (hx : InSpan base n x) : InApp c x := by
  have hend := (endAddr c).isLt
  obtain ⟨h₁, h₂⟩ := (inSpan_iff (by omega)).mp hx
  exact ⟨by omega, by omega⟩

theorem erase_within {q : Addr} (hlo : startAddr.toNat ≤ q.toNat)
    (hhi : (q.toNat / c.getFlashPageSize + 1) * c.getFlashPageSize ≤ (endAddr c).toNat) :
    (FlashOp.erase q).Within c := by
  intro x hx
  have hx' : x.toNat / c.getFlashPageSize = q.toNat / c.getFlashPageSize := hx
  rw [startAddr_toNat] at hlo
  unfold InApp
  rw [startAddr_toNat]
  rcases c.pageSize_cases with hp | hp <;> rw [hp] at hx' hhi <;> omega

/-- A visited page ends in the range, or it is the last one. -/
theorem visits_cases {limit q : Addr} (hlim : limit.toNat = base.toNat + n)
    (hv : Visits c base limit q) :
    (q.toNat / c.getFlashPageSize + 1) * c.getFlashPageSize ≤ base.toNat + n ∨
      q = lastPage c base n := by
  obtain ⟨j, hj, hlt⟩ := hv
  have hq := q.isLt
  have hl := limit.isLt
  rw [BitVec.lt_def, hlim] at hlt
  by_cases hjn : j = (n - 1) / c.getFlashPageSize
  · right
    apply BitVec.eq_of_toNat_eq
    rw [lastPage, BitVec.toNat_add, BitVec.toNat_ofNat, ← hjn]
    omega
  · left
    rcases c.pageSize_cases with hp | hp <;> rw [hp] at hj hjn ⊢ <;> omega

theorem visits_within {mem : Addr → Byte} {limit q : Addr}
    (hlim : limit.toNat = base.toNat + n) (hlo : startAddr.toNat ≤ base.toNat)
    (hhi : base.toNat + n ≤ (endAddr c).toNat) (hfit : PageFits c mem (lastPage c base n))
    (hv : Visits c base limit q) (hb : flashPageIsErased c mem q = false) :
    (FlashOp.erase q).Within c := by
  have hq : startAddr.toNat ≤ q.toNat := by
    obtain ⟨j, hj, -⟩ := hv
    rw [hj]
    exact Nat.le_add_right_of_le hlo
  rcases visits_cases hlim hv with hend | rfl
  · exact erase_within hq (hend.trans hhi)
  · rcases hfit with hend | hblank
    · exact erase_within hq hend
    · rw [hblank] at hb
      cases hb

end Check

/-! The operation. -/

section Operation

variable {c : Device} {p : Prog} {f : Flash}

theorem safewrite_within (h : f.Idle false) (hops : f.ops = []) (hfit : WipeFits c f) :
    ∀ op ∈ (safewrite c f).ops, op.Within c := by
  unfold safewrite checkDoErase
  intro op hop
  split at hop
  · rename_i hen
    split at hop
    · rw [hops] at hop
      cases hop
    · rename_i her
      obtain ⟨l, hl, hall⟩ := erasePages_ops c c.flashSize startAddr h (endAddr_lt c)
      have hop' : op ∈ (erasePages c (endAddr c) c.flashSize startAddr f).ops := hop
      rw [hl, hops, List.append_nil] at hop'
      obtain ⟨q, rfl, hv, hb⟩ := hall op hop'
      have hlt : startAddr < endAddr c := by
        obtain ⟨j, hj, hq⟩ := hv
        rw [BitVec.lt_def] at hq ⊢
        omega
      have hlt' := BitVec.lt_def.mp hlt
      have hlim : (endAddr c).toNat =
          startAddr.toNat + ((endAddr c).toNat - startAddr.toNat) := by omega
      exact visits_within hlim (Nat.le_refl _) (by omega) (hfit hen (by simpa using her) hlt) hv hb
  · rw [hops] at hop
    cases hop

theorem executeErase_within (h : f.Idle false) (hops : f.ops = []) (hfit : WipeFits c f)
    (htarget : addressCheck c (readU32 p.buf 1) (BitVec.ofNat 32 dfuTransferSize) →
      NoWrap (readU32 p.buf 1) dfuTransferSize ∨
        flashPageIsErased c (wiped c f) (readU32 p.buf 1)) :
    ∀ op ∈ (executeErase c p f).ops, op.Within c := by
  have hsafe := safewrite_within h hops hfit
  rw [← safewrite_mem c h] at htarget
  unfold executeErase
  dsimp only
  split
  · rename_i hcheck
    split
    · exact hsafe
    · rename_i hblank
      rcases htarget hcheck with hw | hb
      · obtain ⟨hlo, hhi, -⟩ := check_noWrap hcheck hw
        rw [Flash.erasePage_eq (safewrite_idle c h)]
        intro op hop
        rcases List.mem_cons.mp hop with rfl | hop
        · apply erase_within hlo
          unfold dfuTransferSize at hhi
          rcases c.pageSize_cases with hp | hp <;> rw [hp] <;> omega
        · exact hsafe op hop
      · exact absurd hb hblank
  · exact hsafe

theorem executeBlock_within (h : f.Idle false) (hops : f.ops = []) (hfit : WipeFits c f)
    (hblock : addressCheck c p.base p.length →
      (2 ≤ p.len.toNat → NoWrap p.base p.len.toNat) ∧
      (NoWrap p.base p.len.toNat →
        PageFits c (wiped c f) (lastPage c p.base p.len.toNat))) :
    ∀ op ∈ (executeBlock c p f).ops, op.Within c := by
  have hsafe := safewrite_within h hops hfit
  rw [← safewrite_mem c h] at hblock
  by_cases hcheck : addressCheck c p.base p.length
  · obtain ⟨l, hl, hall⟩ := (executeBlock_programmed c p h hcheck).ops
    obtain ⟨hwrap, hpage⟩ := hblock hcheck
    have hlimit : (p.base + p.length).toNat ≤ 2 ^ 31 := (check_le hcheck).trans (endAddr_lt c)
    obtain ⟨l', hl', hall'⟩ :=
      erasePages_ops c p.len.toNat p.base (safewrite_idle c h) hlimit
    intro op hop
    rw [hl, Prog.erased, hl', List.mem_append, List.mem_append] at hop
    by_cases hw : NoWrap p.base p.len.toNat
    · rw [Prog.length_eq] at hcheck
      obtain ⟨hlo, hhi, hsum⟩ := check_noWrap hcheck hw
      rcases hop with hop | hop | hop
      · obtain ⟨m, n, rfl, -, hmn⟩ := hall op hop
        intro x hx
        have hlen := p.len.isLt
        obtain ⟨-, hhi'⟩ := (inSpan_add (by omega)).mp hx
        exact span_within hlo hhi (show InSpan p.base p.len.toNat x by unfold InSpan; omega)
      · obtain ⟨q, rfl, hv, hb⟩ := hall' op hop
        rw [Prog.length_eq] at hv
        exact visits_within hsum hlo hhi (hpage hw) hv hb
      · exact hsafe op hop
    · rcases hop with hop | hop | hop
      · obtain ⟨m, n, -, h2, hmn⟩ := hall op hop
        exact absurd (hwrap (by omega)) hw
      · obtain ⟨q, -, ⟨j, hj, hlt⟩, -⟩ := hall' op hop
        have hlen := p.len.isLt
        have hbase := p.base.isLt
        have hw' : ¬p.base.toNat + p.len.toNat < 2 ^ 32 := hw
        rw [BitVec.lt_def, Prog.length_eq, BitVec.toNat_add, BitVec.toNat_ofNat] at hlt
        omega
      · exact hsafe op hop
  · rw [executeBlock_refused c p (by simpa using hcheck)]
    exact hsafe

theorem flashAfter_within (h : f.Idle false) (hops : f.ops = []) (hfit : OpFits c p f) :
    ∀ op ∈ (p.flashAfter c f).ops, op.Within c := by
  unfold Prog.flashAfter
  split
  · rename_i hb
    split
    · rename_i he
      obtain ⟨hwipe, htarget⟩ := hfit.1 hb he
      exact executeErase_within h hops hwipe htarget
    · rw [hops]
      simp
  · rename_i hb
    obtain ⟨hwipe, hblock⟩ := hfit.2 hb
    exact executeBlock_within h hops hwipe hblock

end Operation

theorem within_step {c : Device} {s : State} {e : Event} (hlock : s.dfu.flash.Idle true)
    (hfit : RangeFits c s e) : (step c s e).dfu.Within c := by
  rcases dfu_cases c s e with hq | ⟨r, hr, hdis⟩ | ⟨hc, hb⟩
  · rw [hq]
    exact ⟨by simp, by simp⟩
  · have hreq := step_usbReq c s e
    constructor
    · rw [hr.dfu, controlRequest_flash]
      simp [State.ioOf]
    · have hl := controlRequest_log c (s.ioOf e) hr.code
      rw [← hr.dfu] at hl
      rcases hl with hl | ⟨rfl, hv, hup, hcheck, hl⟩
      · rw [hl]
        intro a ha
        rcases List.mem_cons.mp ha with rfl | ha
        · trivial
        · cases ha
      · rw [hl]
        rw [hreq] at hv hcheck
        have hasks : (s.requestOf e).Asks .upload := by
          rw [← hreq]
          exact ⟨hr.isDfu, hr.code⟩
        have hw := hfit.2 hdis hasks hup hv hcheck
        obtain ⟨hlo, hhi, -⟩ := check_noWrap hcheck hw
        intro a ha
        rcases List.mem_cons.mp ha with rfl | ha
        · intro x hx
          rw [hreq] at hx
          exact span_within hlo hhi hx
        · rcases List.mem_cons.mp ha with rfl | ha
          · trivial
          · cases ha
  · have hidle : (flashUnlock s.dfu.newPoll.flash).Idle false := Flash.idle_unlock hlock
    have hafter : (s.dfu.prog.flashAfter c (flashUnlock s.dfu.newPoll.flash)).Idle false :=
      (flashAfter_cr c s.dfu.prog hidle).trans hidle
    rw [hc.of_busy hb]
    refine ⟨?_, by simp [DfuAct.Within]⟩
    rw [Flash.lock_eq hafter]
    exact flashAfter_within hidle rfl (hfit.1 hc.stage hc.registered hb)

/-- Along every run from start-up whose operations fit, nothing outside the application area is
erased, programmed or copied out. -/
theorem range_safe {c : Device} {mem : Addr → Byte} {ram : ℕ → Byte} {es : List Event}
    (h : Along (step c) (RangeFits c) (State.start mem ram) es) :
    Along (step c) (fun s e => (step c s e).dfu.Within c) (State.start mem ram) es := by
  have hstart : (State.start mem ram).dfu.flash.Idle true := rfl
  have hstep : ∀ s e, s.dfu.flash.Idle true → RangeFits c s e →
      (step c s e).dfu.Within c ∧ (step c s e).dfu.flash.Idle true :=
    fun s e hlock hfit => ⟨within_step hlock hfit, locked_step c s e hlock⟩
  exact along_of_invariant hstep hstart h

theorem range_safe_block :
    let c := Device.stm64k
    let es := dnload 0#16 [0x21#8, 0x00#8, 0x20#8, 0x00#8, 0x08#8] ++ getstatus ++
      dnload 2#16 [0xAA#8, 0xBB#8] ++ getstatus
    Along (step c) (RangeFits c) (State.start (fun _ => 0#8) fun _ => 0#8) es ∧
      Along (step c) (fun s e => (step c s e).dfu.Within c)
        (State.start (fun _ => 0#8) fun _ => 0#8) es := by
  have hfit : Along (step Device.stm64k) (RangeFits Device.stm64k)
      (State.start (fun _ => 0#8) fun _ => 0#8)
      (dnload 0#16 [0x21#8, 0x00#8, 0x20#8, 0x00#8, 0x08#8] ++ getstatus ++
        dnload 2#16 [0xAA#8, 0xBB#8] ++ getstatus) := by decide +kernel
  exact ⟨hfit, range_safe hfit⟩

/-- CMD_ERASE of 0xFFFFF000: base plus length is 0 modulo 2^32, so the check passes and a page
far outside the flash is erased. -/
theorem erase_at_wrap_outside :
    ¬Along (step Device.stm64k) (fun s e => (step Device.stm64k s e).dfu.Within Device.stm64k)
      (State.start (fun _ => 0#8) fun _ => 0#8)
      (dnload 0#16 [0x41#8, 0x00#8, 0xF0#8, 0xFF#8, 0xFF#8] ++ getstatus) := by
  rintro ⟨-, -, -, -, -, h, -⟩
  have hop := h.ops (.erase 0xFFFFF000#32) (by decide +kernel) 0xFFFFF000#32 rfl
  exact absurd hop.2 (by decide)

end Swindle
