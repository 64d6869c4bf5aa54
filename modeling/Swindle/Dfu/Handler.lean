import Swindle.Dfu.Request

/-! What one request and one completed GET_STATUS do to the DFU state. -/
namespace Swindle
open Machine

section Request

variable (c : Device) {req : UsbSetupData} (io : DfuIo)

theorem controlRequest_of_none (h : DfuReq.ofByte req.bRequest = none) :
    usbdfuControlRequest c req io = (.nextCallback, io) := by
  rw [usbdfuControlRequest, h]

theorem controlRequest_fst (req : UsbSetupData) :
    (usbdfuControlRequest c req io).1 =
      if (DfuReq.ofByte req.bRequest).isSome then .handled else .nextCallback := by
  cases h : DfuReq.ofByte req.bRequest with
  | none =>
    rw [controlRequest_of_none c io h]
    rfl
  | some r =>
    rw [if_pos (show (some r).isSome from rfl), usbdfuControlRequest, h]
    cases r <;> dsimp only <;> repeat' split
    all_goals rfl

private theorem controlRequest_flash_addr :
    (usbdfuControlRequest c req io).2.dfu.flash = io.dfu.flash ∧
      (usbdfuControlRequest c req io).2.dfu.prog.addr = io.dfu.prog.addr := by
  cases h : DfuReq.ofByte req.bRequest with
  | none =>
    rw [controlRequest_of_none c io h]
    exact ⟨rfl, rfl⟩
  | some r =>
    rw [usbdfuControlRequest, h]
    cases r <;> dsimp only <;> repeat' split
    all_goals exact ⟨rfl, rfl⟩

theorem controlRequest_flash :
    (usbdfuControlRequest c req io).2.dfu.flash = io.dfu.flash :=
  (controlRequest_flash_addr c io).1

theorem controlRequest_addr :
    (usbdfuControlRequest c req io).2.dfu.prog.addr = io.dfu.prog.addr :=
  (controlRequest_flash_addr c io).2

variable {r : DfuReq} (h : DfuReq.ofByte req.bRequest = some r)
include h

/-- The record of a request. An upload that copies flash out has passed the address check. -/
theorem controlRequest_log :
    (usbdfuControlRequest c req io).2.dfu.log = .request r io.len :: io.dfu.log ∨
      r = .upload ∧ req.wValue ≠ 0#16 ∧ c.enableDfuUpload ∧
        addressCheck c (blockAddress io.dfu.prog.addr req.wValue)
          (BitVec.ofNat 32 dfuTransferSize) ∧
        (usbdfuControlRequest c req io).2.dfu.log =
          .upload (blockAddress io.dfu.prog.addr req.wValue) :: .request r io.len ::
            io.dfu.log := by
  rw [usbdfuControlRequest, h]
  cases r with
  | upload =>
    dsimp only
    split
    · exact .inl rfl
    · rename_i hv
      split
      · rename_i hc
        exact .inr ⟨rfl, hv, hc.1, hc.2, rfl⟩
      · exact .inl rfl
  | dnload =>
    dsimp only
    split <;> exact .inl rfl
  | _ =>
    dsimp only
    exact .inl rfl

theorem controlRequest_prog (hn : ¬(r = .dnload ∧ io.len ≠ 0#16)) :
    (usbdfuControlRequest c req io).2.dfu.prog = io.dfu.prog := by
  rw [usbdfuControlRequest, h]
  cases r with
  | dnload =>
    have hl : io.len = 0#16 := by
      by_contra hl
      exact hn ⟨rfl, hl⟩
    dsimp only
    rw [if_pos hl]
  | upload =>
    dsimp only
    repeat' split
    all_goals rfl
  | _ => rfl

theorem controlRequest_complete :
    (usbdfuControlRequest c req io).2.complete =
      if r = .getstatus then some .usbdfuGetstatusComplete else io.complete := by
  rw [usbdfuControlRequest, h]
  cases r with
  | dnload =>
    dsimp only
    split <;> rfl
  | upload =>
    dsimp only
    split
    · rfl
    · split <;> rfl
  | _ => rfl

/-- The three requests that report without deciding: the state stays, or moves on by
`usbdfu_getstatus`, or leaves dfuERROR. -/
theorem controlRequest_state_of_query (hr : r = .getstatus ∨ r = .getstate ∨ r = .clrstatus) :
    (usbdfuControlRequest c req io).2.dfu.usbdfuState = io.dfu.usbdfuState ∨
      r = .getstatus ∧ (usbdfuControlRequest c req io).2.dfu.usbdfuState =
        (usbdfuGetstatus io.dfu.usbdfuState).1 ∨
      r = .clrstatus ∧ io.dfu.usbdfuState = .dfuError ∧
        (usbdfuControlRequest c req io).2.dfu.usbdfuState = .dfuIdle := by
  rw [usbdfuControlRequest, h]
  obtain rfl | rfl | rfl := hr
  · exact .inr (.inl ⟨rfl, rfl⟩)
  · exact .inl rfl
  · dsimp only
    split
    · rename_i he
      exact .inr (.inr ⟨rfl, he, rfl⟩)
    · exact .inl rfl

theorem controlRequest_dnload (hr : r = .dnload) (h0 : io.len ≠ 0#16)
    (h4 : io.len.toNat ≤ dfuTransferSize) :
    usbdfuControlRequest c req io = (.handled, { io with dfu := { io.dfu with
      usbdfuState := .dfuDnloadSync
      prog := { io.dfu.prog with
        buf := blit 0 (slice io.buf 0 io.len.toNat) io.dfu.prog.buf
        len := io.len
        blocknum := req.wValue }
      log := .request .dnload io.len :: io.dfu.log } }) := by
  subst hr
  have hfit : ¬BitVec.ofNat 16 dfuTransferSize < io.len := by
    rw [BitVec.lt_def]
    exact Nat.not_lt.mpr h4
  rw [usbdfuControlRequest, h]
  dsimp only
  rw [if_neg h0, if_neg hfit]

theorem controlRequest_state_of_dnload (hr : r = .dnload) :
    (usbdfuControlRequest c req io).2.dfu.usbdfuState =
      if io.len = 0#16 then .dfuManifestSync else .dfuDnloadSync := by
  subst hr
  rw [usbdfuControlRequest, h]
  dsimp only
  split <;> rfl

theorem controlRequest_state_of_upload (hr : r = .upload) :
    (usbdfuControlRequest c req io).2.dfu.usbdfuState = .dfuUploadIdle ∨
      (usbdfuControlRequest c req io).2.dfu.usbdfuState = .dfuError := by
  subst hr
  rw [usbdfuControlRequest, h]
  dsimp only
  split
  · exact .inl rfl
  · split
    · exact .inl rfl
    · exact .inr rfl

theorem controlRequest_state {t : DfuState}
    (ht : t = .dfuDnbusy ∨ t = .dfuDnloadIdle)
    (hs : (usbdfuControlRequest c req io).2.dfu.usbdfuState = t) :
    io.dfu.usbdfuState = t ∨
      r = .getstatus ∧ (usbdfuGetstatus io.dfu.usbdfuState).1 = t := by
  cases r with
  | dnload =>
    rw [controlRequest_state_of_dnload c io h rfl] at hs
    rcases ht with rfl | rfl <;> split at hs <;> cases hs
  | upload =>
    rcases controlRequest_state_of_upload c io h rfl with hu | hu <;>
      rw [hs] at hu <;> rcases ht with rfl | rfl <;> cases hu
  | abort =>
    rw [usbdfuControlRequest, h] at hs
    rcases ht with rfl | rfl <;> cases hs
  | detach =>
    rw [usbdfuControlRequest, h] at hs
    rcases ht with rfl | rfl <;> cases hs
  | getstatus =>
    rw [usbdfuControlRequest, h] at hs
    exact .inr ⟨rfl, hs⟩
  | getstate =>
    rw [usbdfuControlRequest, h] at hs
    exact .inl hs
  | clrstatus =>
    rcases controlRequest_state_of_query c io h (by simp) with
      hq | ⟨hq, _⟩ | ⟨_, _, hq⟩
    · exact .inl (hq.symm.trans hs)
    · cases hq
    · rw [hs] at hq
      rcases ht with rfl | rfl <;> cases hq

theorem controlRequest_busy
    (hs : (usbdfuControlRequest c req io).2.dfu.usbdfuState = .dfuDnbusy) :
    io.dfu.usbdfuState = .dfuDnbusy ∨ io.dfu.usbdfuState = .dfuDnloadSync := by
  rcases controlRequest_state c io h (.inl rfl) hs with hq | ⟨_, hq⟩
  · exact .inl hq
  · cases hd : io.dfu.usbdfuState with
    | dfuDnbusy => exact .inl rfl
    | dfuDnloadSync => exact .inr rfl
    | _ =>
      rw [hd] at hq
      cases hq

theorem controlRequest_dnloadSync
    (hs : (usbdfuControlRequest c req io).2.dfu.usbdfuState = .dfuDnloadSync) :
    r = .dnload ∧ io.len ≠ 0#16 ∨ io.dfu.usbdfuState = .dfuDnloadSync := by
  cases r with
  | dnload =>
    rw [controlRequest_state_of_dnload c io h rfl] at hs
    split at hs
    · cases hs
    · rename_i hl
      exact .inl ⟨rfl, hl⟩
  | upload =>
    rcases controlRequest_state_of_upload c io h rfl with hu | hu <;> rw [hs] at hu <;> cases hu
  | abort =>
    rw [usbdfuControlRequest, h] at hs
    cases hs
  | detach =>
    rw [usbdfuControlRequest, h] at hs
    cases hs
  | getstate =>
    rw [usbdfuControlRequest, h] at hs
    exact .inr hs
  | getstatus =>
    rw [usbdfuControlRequest, h] at hs
    have hq : (usbdfuGetstatus io.dfu.usbdfuState).1 = .dfuDnloadSync := hs
    cases hd : io.dfu.usbdfuState <;> rw [hd] at hq <;> cases hq
  | clrstatus =>
    rcases controlRequest_state_of_query c io h (by simp) with hq | ⟨hq, _⟩ | ⟨_, _, hq⟩
    · exact .inr (hq.symm.trans hs)
    · cases hq
    · rw [hs] at hq
      cases hq

theorem controlRequest_dnloadIdle
    (hs : (usbdfuControlRequest c req io).2.dfu.usbdfuState = .dfuDnloadIdle) :
    io.dfu.usbdfuState = .dfuDnloadIdle := by
  rcases controlRequest_state c io h (.inr rfl) hs with hq | ⟨_, hq⟩
  · exact hq
  · cases hd : io.dfu.usbdfuState <;> rw [hd] at hq <;> first | rfl | cases hq

end Request

section Complete

variable (c : Device)

def Prog.addrAfter (p : Prog) : Addr :=
  if p.blocknum = 0#16 ∧ p.buf 0 = cmdSetaddr then readU32 p.buf 1 else p.addr

/-- The flash after the operation, between unlock and lock. -/
def Prog.flashAfter (p : Prog) (f : Flash) : Flash :=
  if p.blocknum = 0#16 then
    if p.buf 0 = cmdErase then executeErase c p f else f
  else executeBlock c p f

theorem getstatusComplete_of_busy {d : Dfu} (h : d.usbdfuState = .dfuDnbusy) :
    usbdfuGetstatusComplete c d =
      { usbdfuState := .dfuDnloadIdle
        prog := { d.prog with addr := d.prog.addrAfter }
        flash := flashLock c (d.prog.flashAfter c (flashUnlock d.flash))
        log := .execute :: d.log } := by
  obtain ⟨state, ⟨buf, len, addr, blocknum⟩, f, log⟩ := d
  subst h
  by_cases hb : blocknum = 0#16
  · have hes : cmdErase ≠ cmdSetaddr := by decide
    by_cases he : buf 0 = cmdErase
    · simp [usbdfuGetstatusComplete, Prog.addrAfter, Prog.flashAfter, hb, he, hes]
    · by_cases hs : buf 0 = cmdSetaddr
      · simp [usbdfuGetstatusComplete, Prog.addrAfter, Prog.flashAfter, hb, hs, hes.symm]
      · simp [usbdfuGetstatusComplete, Prog.addrAfter, Prog.flashAfter, hb, he, hs]
  · simp [usbdfuGetstatusComplete, Prog.addrAfter, Prog.flashAfter, hb]

theorem getstatusComplete_of_not_busy {d : Dfu} (h : d.usbdfuState ≠ .dfuDnbusy) :
    usbdfuGetstatusComplete c d = d := by
  unfold usbdfuGetstatusComplete
  split
  · contradiction
  · rfl

end Complete

end Swindle
