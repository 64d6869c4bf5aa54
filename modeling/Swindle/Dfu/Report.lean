import Swindle.Dfu.Execute

/-! What the host is told about a refused operation, and what it is not told before a reset. -/
namespace Swindle
open Machine

/-- A complete GET_STATUS on a refused operation that waits: nothing is written outside the
wipe of safe-write builds, the address pointer stays, and dfuDNLOAD-IDLE follows. -/
theorem run_getstatus_refused (c : Device) {s : State} (hlock : s.dfu.flash.Idle true)
    (hst : s.dfu.usbdfuState = .dfuDnloadSync ∨ s.dfu.usbdfuState = .dfuDnbusy)
    (hr : s.dfu.prog.refused c) :
    let t := run (step c) s getstatus
    t.dfu.flash.mem = (safewrite c (flashUnlock s.dfu.newPoll.flash)).mem ∧
      t.dfu.prog.addr = s.dfu.prog.addr ∧ t.dfu.usbdfuState = .dfuDnloadIdle := by
  have hbusy : (usbdfuGetstatus s.dfu.usbdfuState).1 = .dfuDnbusy := by
    rcases hst with h | h <;> rw [h] <;> rfl
  have hidle : (flashUnlock s.dfu.newPoll.flash).Idle false := Flash.idle_unlock hlock
  have hdfu := (run_getstatus c s).2
  have hrun : (run (step c) s getstatus).dfu =
      { usbdfuState := .dfuDnloadIdle
        prog := { s.dfu.prog with addr := s.dfu.prog.addr }
        flash := flashLock c (safewrite c (flashUnlock s.dfu.newPoll.flash))
        log := [.execute] } := by
    rw [hdfu, hbusy, getstatusComplete_of_busy c rfl]
    dsimp only
    rw [Dfu.newPoll_prog, addrAfter_of_refused c _ hr, flashAfter_of_refused c _ hr]
    rfl
  intro t
  rw [hrun]
  refine ⟨?_, rfl, rfl⟩
  dsimp only
  rw [Flash.lock_eq (safewrite_idle c hidle)]

/-- The refused operation that waits in `s` is reported: completing GET_STATUS changes nothing,
and the next answer has an error status and dfuERROR. -/
def RefusalReported (c : Device) (s : State) : Prop :=
  let t := run (step c) s getstatus
  t.dfu.flash.mem = s.dfu.flash.mem ∧ t.dfu.prog.addr = s.dfu.prog.addr ∧
    ∀ data, .tx data ∈ (step c t (.setup (setupPacket 0xA1#8 3#8 0#16 0#16 6#16))).out →
      data[0]? ≠ some DfuStatus.ok.toByte ∧ data[4]? = some DfuState.dfuError.toByte

/-- No refused operation is ever reported: the flash and the address pointer are left alone,
but the next GET_STATUS answers OK and dfuDNLOAD-IDLE. -/
theorem refusal_never_reported {c : Device} {s : State} (hs : Reachable c s)
    (hst : s.dfu.usbdfuState = .dfuDnloadSync ∨ s.dfu.usbdfuState = .dfuDnbusy)
    (hr : s.dfu.prog.refused c) :
    let t := run (step c) s getstatus
    (c.enableSafewrite = false → t.dfu.flash.mem = s.dfu.flash.mem) ∧
      t.dfu.prog.addr = s.dfu.prog.addr ∧
      .tx (statusBytes .ok 0#32 .dfuDnloadIdle) ∈
        (step c t (.setup (setupPacket 0xA1#8 3#8 0#16 0#16 6#16))).out ∧
      ¬RefusalReported c s := by
  obtain ⟨hmem, haddr, hidle⟩ := run_getstatus_refused c hs.locked hst hr
  intro t
  have htx : .tx (statusBytes .ok 0#32 .dfuDnloadIdle) ∈
      (step c t (.setup (setupPacket 0xA1#8 3#8 0#16 0#16 6#16))).out := by
    have hstep := (step_getstatus c t).1
    rw [hidle] at hstep
    exact hstep
  refine ⟨?_, haddr, htx, ?_⟩
  · intro hw
    rw [hmem, safewrite, hw]
    rfl
  · rintro ⟨-, -, hreport⟩
    exact (hreport _ htx).1 rfl

theorem refusal_never_reported_block :
    let s := run (step Device.stm64k) (State.start (fun _ => 0xFF#8) fun _ => 0#8)
      (dnload 2#16 [0xAA#8, 0xBB#8])
    let t := run (step Device.stm64k) s getstatus
    (Device.stm64k.enableSafewrite = false → t.dfu.flash.mem = s.dfu.flash.mem) ∧
      t.dfu.prog.addr = s.dfu.prog.addr ∧
      .tx (statusBytes .ok 0#32 .dfuDnloadIdle) ∈
        (step Device.stm64k t (.setup (setupPacket 0xA1#8 3#8 0#16 0#16 6#16))).out ∧
      ¬RefusalReported Device.stm64k s :=
  refusal_never_reported ⟨_, _, _, rfl⟩ (.inl (by decide)) (by decide)

/-- A block for address 0, which is not in the application area: refused, not written, and
reported as done. -/
theorem block_at_zero_reported_ok :
    let s := run (step Device.stm64k) (State.start (fun _ => 0xFF#8) fun _ => 0#8)
      (dnload 2#16 [0xAA#8, 0xBB#8])
    s.dfu.prog.refused Device.stm64k ∧ ¬RefusalReported Device.stm64k s := by
  refine ⟨by decide, ?_⟩
  rintro ⟨-, -, hreport⟩
  exact (hreport [0#8, 0#8, 0#8, 0#8, 5#8, 0#8] (by decide +kernel)).1 rfl

/-! The reset. -/

/-- dfuMANIFEST is entered by a request that has not been answered yet. -/
theorem manifest_step {c : Device} {s : State} {e : Event}
    (hs : s.dfu.usbdfuState ≠ .dfuManifest)
    (ht : (step c s e).dfu.usbdfuState = .dfuManifest) : (step c s e).Answering := by
  rcases dfu_cases c s e with hq | ⟨r, hr, hdis⟩ | ⟨hc, hb⟩
  · rw [hq] at ht
    exact absurd ht hs
  · exact hr.answering
  · rw [hc.of_busy hb] at ht
    cases ht

theorem runDfu_answering (c : Device) {s s' : State} (hs : s.dfu.usbdfuState ≠ .dfuManifest)
    {es : List Event} (h : runDfu c s es = .fullSystemReset s') : s'.Answering := by
  induction es generalizing s with
  | nil => cases h
  | cons e es ih =>
    rw [runDfu] at h
    split at h
    · rename_i ht
      obtain rfl := Loop.fullSystemReset.inj h
      exact manifest_step hs ht
    · rename_i ht
      exact ih ht h

/-- Every reset of stage 2 cuts off the control transfer that asked for it. -/
theorem reset_never_idle {c : Device} {mem : Addr → Byte} {ram : ℕ → Byte} {es : List Event}
    {s' : State} (h : runDfu c (State.start mem ram) es = .fullSystemReset s') :
    s'.Answering ∧ s'.usbFsmState ≠ .idle := by
  have hans := runDfu_answering c DfuState.noConfusion h
  refine ⟨hans, ?_⟩
  rcases hans with hf | hf | hf <;> rw [hf] <;> exact UsbFsmState.noConfusion

theorem reset_never_idle_detach :
    ∃ s', runDfu Device.stm64k (State.start (fun _ => 0xFF#8) fun _ => 0#8)
        [.setup (setupPacket 0x21#8 0#8 0#16 0#16 0#16)] = .fullSystemReset s' ∧
      s'.Answering ∧ s'.usbFsmState ≠ .idle := by
  have hrun : runDfu Device.stm64k (State.start (fun _ => 0xFF#8) fun _ => 0#8)
      [.setup (setupPacket 0x21#8 0#8 0#16 0#16 0#16)] = .fullSystemReset
        (step Device.stm64k (State.start (fun _ => 0xFF#8) fun _ => 0#8)
          (.setup (setupPacket 0x21#8 0#8 0#16 0#16 0#16))) := rfl
  exact ⟨_, hrun, reset_never_idle hrun⟩

/-- DFU_DETACH: the device resets in the poll that handles the request, its status stage still
to come. -/
theorem detach_resets_in_statusIn :
    ∃ s', runDfu Device.stm64k (State.start (fun _ => 0xFF#8) fun _ => 0#8)
        [.setup (setupPacket 0x21#8 0#8 0#16 0#16 0#16)] = .fullSystemReset s' ∧
      s'.usbFsmState = .statusIn :=
  ⟨_, rfl, rfl⟩

end Swindle
