import Swindle.Dfu.Range

/-! One operation as a host performs it: a DNLOAD and the GET_STATUS that executes it. -/
namespace Swindle
open Machine

theorem executeBlock_mem (c : Device) (p : Prog) {f : Flash} (h : f.Idle false)
    (ha : p.base.toNat % c.getFlashPageSize = 0) (hlo : startAddr.toNat ≤ p.base.toNat)
    (hhi : p.base.toNat + p.len.toNat ≤ (endAddr c).toNat) (heven : p.len.toNat % 2 = 0) :
    (executeBlock c p f).mem =
        Nor.overwrite (Touched c p.base (p.base + p.length))
          (fun x => if InSpan p.base p.len.toNat x then p.buf (x - p.base).toNat
            else BitVec.allOnes 8) (wiped c f) ∧
      (c.enableSafewrite → (executeBlock c p f).erased) := by
  have hend := endAddr_lt c
  have hnext : (p.base + p.length).toNat = p.base.toNat + p.len.toNat := by
    rw [p.length_eq, toNat_add_ofNat (show p.base.toNat + p.len.toNat < 2 ^ 32 by omega)]
  have hc : addressCheck c p.base p.length := by
    rw [p.length_eq]
    exact (addressCheck_iff (show p.base.toNat + p.len.toNat < 2 ^ 32 by omega)).mpr ⟨hlo, hhi⟩
  have hidle := safewrite_idle c h
  have hp := executeBlock_programmed c p h hc
  have hpages := erasePages_cr c (p.base + p.length) p.len.toNat p.base hidle
  have hspan : ∀ x, InSpan p.base p.len.toNat x → Touched c p.base (p.base + p.length) x := by
    intro x hx
    obtain ⟨h₁, h₂⟩ := (inSpan_iff (by omega)).mp hx
    refine ⟨Nat.div_le_div_right h₁, ?_⟩
    have hdiv := Nat.div_mul_le_self x.toNat c.getFlashPageSize
    omega
  constructor
  · have hfuel : (p.base + p.length).toNat ≤
        p.base.toNat + c.getFlashPageSize * p.len.toNat := by
      rcases c.pageSize_cases with hps | hps <;> rw [hps] <;> omega
    have hlen : 2 * (p.len.toNat / 2) = p.len.toNat := by omega
    rw [hp.mem, Prog.erased, erasePages_mem c (by omega) hidle ha hfuel, safewrite_mem c h, hlen]
    exact Nor.program_erase hspan
  · intro hs
    rw [hp.erased, Prog.erased, hpages.2]
    exact safewrite_erased c hs

def Prog.download (p : Prog) (blocknum : BitVec 16) (data : List Byte) : Prog :=
  { p with
    buf := blit 0 data p.buf
    len := BitVec.ofNat 16 data.length
    blocknum := blocknum }

theorem Prog.download_buf (p : Prog) (blocknum : BitVec 16) {data : List Byte} {i : ℕ}
    (hi : i < data.length) : (p.download blocknum data).buf i = data[i] := by
  have hbuf : (p.download blocknum data).buf = blit 0 data p.buf := rfl
  rw [hbuf, blit_zero, List.getD_eq_getElem _ _ hi]

/-- A DNLOAD with data and the GET_STATUS after it, each to the end of its status stage. -/
def operation (blocknum : BitVec 16) (data : List Byte) : List Event :=
  dnload blocknum data ++ getstatus

section Operation

variable (c : Device) {s : State} {data : List Byte}

theorem run_operation (s : State) (blocknum : BitVec 16) (h0 : 0 < data.length)
    (h4 : data.length ≤ dfuTransferSize) :
    (run (step c) s (operation blocknum data)).dfu =
      { usbdfuState := .dfuDnloadIdle
        prog := { s.dfu.prog.download blocknum data with
          addr := (s.dfu.prog.download blocknum data).addrAfter }
        flash := flashLock c ((s.dfu.prog.download blocknum data).flashAfter c
          (flashUnlock s.dfu.newPoll.flash))
        log := [.execute] } := by
  obtain ⟨-, hd⟩ := run_dnload c s blocknum h0 h4
  obtain ⟨-, hg⟩ := run_getstatus c (run (step c) s (dnload blocknum data))
  rw [operation, run_append, hg, hd]
  exact getstatusComplete_of_busy c rfl

theorem run_operation_mem (h : s.dfu.flash.Idle true) (blocknum : BitVec 16)
    (h0 : 0 < data.length) (h4 : data.length ≤ dfuTransferSize) :
    (run (step c) s (operation blocknum data)).dfu.flash.mem =
      ((s.dfu.prog.download blocknum data).flashAfter c
        (flashUnlock s.dfu.newPoll.flash)).mem := by
  have hidle : (flashUnlock s.dfu.newPoll.flash).Idle false := Flash.idle_unlock h
  have hafter := (flashAfter_cr c (s.dfu.prog.download blocknum data) hidle).trans hidle
  rw [run_operation c s blocknum h0 h4]
  dsimp only
  rw [Flash.lock_eq hafter]

def setAddr (a : Addr) : List Event :=
  operation 0#16 [cmdSetaddr, leByte a 0, leByte a 1, leByte a 2, leByte a 3]

theorem leBytes_append (a : BitVec 32) :
    leByte a 3 ++ (leByte a 2 ++ (leByte a 1 ++ leByte a 0)) = a := by
  have h : ∀ j < 4, leByte (load32 (fun i => leByte a i) 0) j = leByte a j := fun j hj => by
    rw [leByte_load32 _ _ hj, Nat.zero_add]
  apply BitVec.eq_of_getLsbD_eq
  intro i hi
  have hbit := congrArg (fun v : Byte => v.getLsbD (i % 8)) (h (i / 8) (by omega))
  have hi8 : i % 8 < 8 := Nat.mod_lt _ (by decide)
  simp only [leByte, BitVec.getLsbD_extractLsb', hi8, decide_true, Bool.true_and,
    Nat.div_add_mod] at hbit
  exact hbit

theorem readU32_blit (cmd : Byte) (a : Addr) (b : ℕ → Byte) :
    readU32 (blit 0 [cmd, leByte a 0, leByte a 1, leByte a 2, leByte a 3] b) 1 = a :=
  leBytes_append a

theorem run_setAddr (h : s.dfu.flash.Idle true) (a : Addr) :
    (run (step c) s (setAddr a)).dfu.prog.addr = a ∧
      (run (step c) s (setAddr a)).dfu.flash.mem = s.dfu.flash.mem ∧
      (run (step c) s (setAddr a)).dfu.flash.erased = s.dfu.flash.erased := by
  let p : Prog := s.dfu.prog.download 0#16
    [cmdSetaddr, leByte a 0, leByte a 1, leByte a 2, leByte a 3]
  have hrun : (run (step c) s (setAddr a)).dfu = _ :=
    run_operation c s 0#16 (by simp) (show 5 ≤ 4096 by decide)
  have haddr : p.addrAfter = a := (if_pos ⟨rfl, rfl⟩).trans (readU32_blit _ a s.dfu.prog.buf)
  have hcmd : p.buf 0 ≠ cmdErase := show cmdSetaddr ≠ cmdErase by decide
  have hflash : p.flashAfter c (flashUnlock s.dfu.newPoll.flash) =
      flashUnlock s.dfu.newPoll.flash := (if_pos rfl).trans (if_neg hcmd)
  have hidle : (flashUnlock s.dfu.newPoll.flash).Idle false := Flash.idle_unlock h
  rw [hrun]
  dsimp only
  rw [hflash, Flash.lock_eq hidle]
  exact ⟨haddr, rfl, rfl⟩

/-- A data block of even length, at an aligned address inside the application area, overwrites
the pages it touches. -/
theorem run_block (h : s.dfu.flash.Idle true) {blocknum : BitVec 16} (hb : blocknum ≠ 0#16)
    (h0 : 0 < data.length) (h4 : data.length ≤ dfuTransferSize) (heven : data.length % 2 = 0)
    {base : Addr} (hbase : blockAddress s.dfu.prog.addr blocknum = base)
    (ha : base.toNat % c.getFlashPageSize = 0) (hlo : startAddr.toNat ≤ base.toNat)
    (hhi : base.toNat + data.length ≤ (endAddr c).toNat) :
    (run (step c) s (operation blocknum data)).dfu.flash.mem =
        Nor.overwrite (Touched c base (base + BitVec.ofNat 32 data.length))
          (fun x => data.getD (x - base).toNat (BitVec.allOnes 8)) (wiped c s.dfu.flash) ∧
      wiped c (run (step c) s (operation blocknum data)).dfu.flash =
        (run (step c) s (operation blocknum data)).dfu.flash.mem := by
  let p : Prog := s.dfu.prog.download blocknum data
  have hlen : p.len.toNat = data.length := toNat_length h4
  have hpbase : p.base = base := hbase
  have hidle : (flashUnlock s.dfu.newPoll.flash).Idle false := Flash.idle_unlock h
  have hafter : p.flashAfter c (flashUnlock s.dfu.newPoll.flash) =
      executeBlock c p (flashUnlock s.dfu.newPoll.flash) := if_neg hb
  have hidle' : (executeBlock c p (flashUnlock s.dfu.newPoll.flash)).Idle false := by
    rw [← hafter]
    exact (flashAfter_cr c p hidle).trans hidle
  obtain ⟨hmem, herased⟩ := executeBlock_mem c p hidle (by rwa [hpbase]) (by rwa [hpbase])
    (by rwa [hpbase, hlen]) (by rwa [hlen])
  have hwiped : wiped c (flashUnlock s.dfu.newPoll.flash) = wiped c s.dfu.flash := rfl
  rw [run_operation c s blocknum h0 h4]
  dsimp only
  rw [show s.dfu.prog.download blocknum data = p from rfl, hafter, Flash.lock_eq hidle']
  refine ⟨?_, wiped_of_erased c herased⟩
  dsimp only
  rw [hmem, hpbase, p.length_eq, hlen, hwiped]
  refine Nor.overwrite_congr (fun _ => Iff.rfl) fun x _ => ?_
  by_cases hx : InSpan base data.length x
  · have hx' : (x - base).toNat < data.length := hx
    rw [if_pos hx, Prog.download_buf _ _ hx', List.getD_eq_getElem _ _ hx']
  · have hx' : data.length ≤ (x - base).toNat := Nat.not_lt.mp hx
    rw [if_neg hx, List.getD_eq_default _ _ hx']

theorem touched_block {base : Addr} {n i : ℕ} (hw : base.toNat + n < 2 ^ 32) (hi : i < n) :
    Touched c base (base + BitVec.ofNat 32 n) (base + BitVec.ofNat 32 i) ∧
      (base + BitVec.ofNat 32 i - base).toNat = i := by
  have hx : (base + BitVec.ofNat 32 i).toNat = base.toNat + i :=
    toNat_add_ofNat (show base.toNat + i < 2 ^ 32 by omega)
  have hdiv := Nat.div_mul_le_self (base.toNat + i) c.getFlashPageSize
  refine ⟨⟨?_, ?_⟩, ?_⟩
  · rw [hx]
    exact Nat.div_le_div_right (Nat.le_add_right _ _)
  · rw [hx, toNat_add_ofNat hw]
    omega
  · rw [BitVec.toNat_sub, hx]
    omega

theorem run_block_data (h : s.dfu.flash.Idle true) {blocknum : BitVec 16} (hb : blocknum ≠ 0#16)
    (h0 : 0 < data.length) (h4 : data.length ≤ dfuTransferSize) (heven : data.length % 2 = 0)
    {base : Addr} (hbase : blockAddress s.dfu.prog.addr blocknum = base)
    (ha : base.toNat % c.getFlashPageSize = 0) (hlo : startAddr.toNat ≤ base.toNat)
    (hhi : base.toNat + data.length ≤ (endAddr c).toNat) (i : ℕ) (hi : i < data.length) :
    (run (step c) s (operation blocknum data)).dfu.flash.mem (base + BitVec.ofNat 32 i) =
      data[i] := by
  have hend := endAddr_lt c
  obtain ⟨hmem, -⟩ := run_block c h hb h0 h4 heven hbase ha hlo hhi
  obtain ⟨hin, hoff⟩ := touched_block c (show base.toNat + data.length < 2 ^ 32 by omega) hi
  rw [hmem, Nor.overwrite_of_mem hin, hoff, List.getD_eq_getElem _ _ hi]

end Operation

end Swindle
