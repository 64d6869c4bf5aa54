import Swindle.Host

/-! Deferred execution: an accepted download waits, untouched, until one completed GET_STATUS
executes it. -/
namespace Swindle
open Machine

namespace Dfu

def accepted (d : Dfu) : Bool :=
  d.log.any fun
    | .request .dnload n => n ≠ 0#16
    | _ => false

def downloads (d : Dfu) : Bool :=
  d.log.any fun
    | .request .dnload _ => true
    | _ => false

/-- The poll executed the pending download, or took one of the requests `rs`. -/
def settles (rs : List DfuReq) (d : Dfu) : Bool :=
  d.log.any fun
    | .execute => true
    | .request r _ => r ∈ rs
    | .upload _ => false

def executions (d : Dfu) : ℕ := d.log.count .execute

structure Pending (p : Prog) (d : Dfu) : Prop where
  state : d.usbdfuState = .dfuDnloadSync ∨ d.usbdfuState = .dfuDnbusy
  buf : d.prog.buf = p.buf
  len : d.prog.len = p.len
  blocknum : d.prog.blocknum = p.blocknum

end Dfu

section Steps

variable {c : Device} {s t : State} {e : Event} {r : DfuReq} {io : DfuIo}

theorem Quiet.log (h : Quiet s t) : t.dfu.log = [] := by rw [h.dfu, Dfu.newPoll_log]

theorem Requested.log (h : Requested c s t r io) :
    t.dfu.log = [.request r io.len] ∨
      r = .upload ∧ ∃ base, t.dfu.log = [.upload base, .request r io.len] := by
  have hl := controlRequest_log c io h.code
  rw [← h.dfu, h.before, Dfu.newPoll_log] at hl
  rcases hl with hl | ⟨hr, -, -, -, hl⟩
  · exact .inl hl
  · exact .inr ⟨hr, _, hl⟩

theorem Requested.executions (h : Requested c s t r io) : t.dfu.executions = 0 := by
  rcases h.log with hl | ⟨-, base, hl⟩ <;> rw [Dfu.executions, hl] <;> rfl

theorem Requested.accepted (h : Requested c s t r io) :
    t.dfu.accepted ↔ r = .dnload ∧ io.len ≠ 0#16 := by
  rcases h.log with hl | ⟨rfl, base, hl⟩
  · rw [Dfu.accepted, hl]
    cases r <;> simp
  · rw [Dfu.accepted, hl]
    simp

theorem Requested.downloads (h : Requested c s t r io) : t.dfu.downloads ↔ r = .dnload := by
  rcases h.log with hl | ⟨rfl, base, hl⟩
  · rw [Dfu.downloads, hl]
    cases r <;> simp
  · rw [Dfu.downloads, hl]
    simp

theorem Requested.settles (h : Requested c s t r io) {rs : List DfuReq} (hr : r ∈ rs) :
    t.dfu.settles rs := by
  rcases h.log with hl | ⟨-, base, hl⟩ <;> rw [Dfu.settles, hl] <;> simp [hr]

theorem Completed.of_busy (h : Completed c s e t) (hb : s.dfu.usbdfuState = .dfuDnbusy) :
    t.dfu =
      { usbdfuState := .dfuDnloadIdle
        prog := { s.dfu.prog with addr := s.dfu.prog.addrAfter }
        flash := flashLock c (s.dfu.prog.flashAfter c (flashUnlock s.dfu.newPoll.flash))
        log := [.execute] } := by
  have hb' : s.dfu.newPoll.usbdfuState = .dfuDnbusy := hb
  rw [h.dfu, getstatusComplete_of_busy c hb']
  rfl

theorem Completed.of_not_busy (h : Completed c s e t) (hb : s.dfu.usbdfuState ≠ .dfuDnbusy) :
    t.dfu = s.dfu.newPoll := by
  have hb' : s.dfu.newPoll.usbdfuState ≠ .dfuDnbusy := hb
  rw [h.dfu, getstatusComplete_of_not_busy c hb']

end Steps

/-- The callback that is registered belongs to the GET_STATUS transfer under way. -/
def CallbackOk (s : State) : Prop := s.usbCompleteCb.isSome → s.usbReq.Asks .getstatus

section Runs

variable (c : Device) (s : State) (e : Event)

/-- A poll leaves the DFU layer alone, hands it a request, or executes the download. -/
theorem dfu_cases :
    (step c s e).dfu = s.dfu.newPoll ∨
      (∃ r, Requested c s (step c s e) r (s.ioOf e) ∧ s.Dispatches e) ∨
      Completed c s e (step c s e) ∧ s.dfu.usbdfuState = .dfuDnbusy := by
  rcases poll_cases c s e with h | h | h
  · exact .inl h.dfu
  · exact .inr (.inl h)
  · by_cases hb : s.dfu.usbdfuState = .dfuDnbusy
    · exact .inr (.inr ⟨h, hb⟩)
    · exact .inl (h.of_not_busy hb)

theorem callbackOk_step (h : CallbackOk s) : CallbackOk (step c s e) := by
  have hkeep : ((step c s e).usbCompleteCb = none ∨
      (step c s e).usbCompleteCb = s.usbCompleteCb ∧ (step c s e).usbReq = s.usbReq) →
      CallbackOk (step c s e) := by
    rintro (hn | ⟨hc, hr⟩) hsome
    · rw [hn] at hsome
      cases hsome
    · rw [hr]
      exact h (by rwa [hc] at hsome)
  rcases poll_cases c s e with hq | ⟨r, hr, hdis⟩ | hc
  · exact hkeep hq.cb
  · by_cases hg : r = .getstatus
    · exact fun _ => ⟨hr.isDfu, hg ▸ hr.code⟩
    · have hcb := hr.cb
      rw [controlRequest_complete c _ hr.code, if_neg hg] at hcb
      rcases hr.kept with hn | ⟨hk, hreq⟩
      · exact hkeep (.inl (hcb.trans hn))
      · exact hkeep (.inr ⟨hcb.trans hk, hreq⟩)
  · exact hkeep hc.cb

theorem flash_step (h : CallbackOk s) :
    StatusStage s e ∧ s.usbReq.Asks .getstatus ∧ s.dfu.usbdfuState = .dfuDnbusy ∨
      (step c s e).dfu.flash.mem = s.dfu.flash.mem ∧ (step c s e).dfu.flash.ops = [] ∧
        (step c s e).dfu.prog.addr = s.dfu.prog.addr := by
  rcases dfu_cases c s e with hq | ⟨r, hr, hdis⟩ | ⟨hc, hb⟩
  · rw [hq]
    exact .inr ⟨rfl, rfl, rfl⟩
  · right
    rw [hr.dfu, controlRequest_flash, controlRequest_addr, hr.before]
    exact ⟨rfl, rfl, rfl⟩
  · exact .inl ⟨hc.stage, h hc.registered, hb⟩

/-- Only the acceptance of another download changes the one that waits. -/
theorem prog_step (h : (step c s e).dfu.accepted = false) :
    (step c s e).dfu.prog.buf = s.dfu.prog.buf ∧ (step c s e).dfu.prog.len = s.dfu.prog.len ∧
      (step c s e).dfu.prog.blocknum = s.dfu.prog.blocknum := by
  rcases dfu_cases c s e with hq | ⟨r, hr, hdis⟩ | ⟨hc, hb⟩
  · rw [hq]
    exact ⟨rfl, rfl, rfl⟩
  · have hn : ¬(r = .dnload ∧ (s.ioOf e).len ≠ 0#16) := fun hn => by
      rw [hr.accepted.mpr hn] at h
      cases h
    rw [hr.dfu, controlRequest_prog c _ hr.code hn, hr.before]
    exact ⟨rfl, rfl, rfl⟩
  · rw [hc.of_busy hb]
    exact ⟨rfl, rfl, rfl⟩

end Runs

/-! The history of a run: how often the last accepted download has been executed, and whether
the last DNLOAD is still waiting. -/

structure History where
  executions : ℕ
  pending : Bool

def note (c : Device) (s : State) (e : Event) (h : History) : History :=
  let d := (step c s e).dfu
  { executions := if d.accepted then 0 else h.executions + d.executions
    pending := if d.downloads then true else if d.executions ≠ 0 then false else h.pending }

/-- What ties the DFU state to the history. -/
structure Deferred (s : State) (h : History) : Prop where
  callback : CallbackOk s
  getstatusSent : ¬(s.usbFsmState = .dataIn ∧ s.usbReq.Asks .getstatus)
  getstateSent : ¬(s.usbFsmState = .dataIn ∧ s.usbReq.Asks .getstate)
  waiting : s.dfu.usbdfuState = .dfuDnloadSync ∨ s.dfu.usbdfuState = .dfuDnbusy →
    h.executions = 0
  once : h.executions ≤ 1
  idle : s.dfu.usbdfuState = .dfuDnloadIdle → h.pending = false

theorem deferred_start (mem : Addr → Byte) (ram : ℕ → Byte) :
    Deferred (State.start mem ram) ⟨0, false⟩ where
  callback := by rintro ⟨⟩
  getstatusSent := by rintro ⟨⟨⟩, -⟩
  getstateSent := by rintro ⟨⟨⟩, -⟩
  waiting := fun _ => rfl
  once := Nat.zero_le 1
  idle := fun _ => rfl

theorem note_of_log {c : Device} {s : State} {e : Event} (h : History)
    (hl : (step c s e).dfu.log = []) : note c s e h = h := by
  simp [note, Dfu.accepted, Dfu.downloads, Dfu.executions, hl]

theorem note_of_executed {c : Device} {s : State} {e : Event} (h : History)
    (hl : (step c s e).dfu.log = [.execute]) : note c s e h = ⟨h.executions + 1, false⟩ := by
  simp [note, Dfu.accepted, Dfu.downloads, Dfu.executions, hl]

theorem note_of_requested {c : Device} {s : State} {e : Event} (h : History) {r : DfuReq}
    {io : DfuIo} (hr : Requested c s (step c s e) r io) :
    note c s e h =
      { executions := if r = .dnload ∧ io.len ≠ 0#16 then 0 else h.executions
        pending := if r = .dnload then true else h.pending } := by
  have ha := hr.accepted
  have hd := hr.downloads
  simp only [note, hr.executions, ha, hd, Nat.add_zero, ne_eq, not_true_eq_false, if_false]

theorem deferred_step (c : Device) {s : State} {h : History} (hd : Deferred s h) (e : Event) :
    Deferred (step c s e) (note c s e h) := by
  refine ⟨callbackOk_step c s e hd.callback, report_sent c s (.inl rfl) hd.getstatusSent,
    report_sent c s (.inr rfl) hd.getstateSent, ?_, ?_, ?_⟩
  all_goals rcases dfu_cases c s e with hq | ⟨r, hr, hdis⟩ | ⟨hc, hb⟩
  -- the downloads that wait have not been executed
  · rw [note_of_log h (by rw [hq]; rfl), hq]
    exact hd.waiting
  · rw [note_of_requested h hr, hr.dfu]
    intro hs
    have hbefore : (s.ioOf e).dfu.usbdfuState = s.dfu.usbdfuState := by
      rw [hr.before]
      rfl
    by_cases ha : r = .dnload ∧ (s.ioOf e).len ≠ 0#16
    · exact if_pos ha
    · refine (if_neg ha).trans (hd.waiting ?_)
      rw [← hbefore]
      rcases hs with hs | hs
      · exact .inl ((controlRequest_dnloadSync c _ hr.code hs).resolve_left ha)
      · exact (controlRequest_busy c _ hr.code hs).symm
  · rw [hc.of_busy hb]
    rintro (hs | hs) <;> cases hs
  -- none is executed twice
  · rw [note_of_log h (by rw [hq]; rfl)]
    exact hd.once
  · rw [note_of_requested h hr]
    dsimp only
    split
    · exact Nat.zero_le 1
    · exact hd.once
  · rw [note_of_executed h (by rw [hc.of_busy hb])]
    have h0 := hd.waiting (.inr hb)
    dsimp only
    omega
  -- dfuDNLOAD-IDLE comes after an execution
  · rw [note_of_log h (by rw [hq]; rfl), hq]
    exact hd.idle
  · rw [note_of_requested h hr, hr.dfu]
    intro hs
    have hn : r ≠ .dnload := by
      rintro rfl
      rw [controlRequest_state_of_dnload c _ hr.code rfl] at hs
      split at hs <;> cases hs
    refine (if_neg hn).trans (hd.idle ?_)
    have hi := controlRequest_dnloadIdle c _ hr.code hs
    rwa [hr.before] at hi
  · rw [note_of_executed h (by rw [hc.of_busy hb])]
    exact fun _ => rfl

def historyOf (c : Device) (mem : Addr → Byte) (ram : ℕ → Byte) (es : List Event) : History :=
  (run (watch (step c) (note c)) (State.start mem ram, ⟨0, false⟩) es).2

theorem deferred_run (c : Device) (mem : Addr → Byte) (ram : ℕ → Byte) (es : List Event) :
    Deferred (run (step c) (State.start mem ram) es) (historyOf c mem ram es) := by
  have hstep : ∀ (p : State × History) (e : Event), Deferred p.1 p.2 →
      Deferred (watch (step c) (note c) p e).1 (watch (step c) (note c) p e).2 :=
    fun p e hp => deferred_step c hp e
  have hstart : (fun p : State × History => Deferred p.1 p.2)
      (State.start mem ram, ⟨0, false⟩) := deferred_start mem ram
  have hrun := run_invariant hstep hstart es
  rwa [run_watch_fst] at hrun

theorem historyOf_append (c : Device) (mem : Addr → Byte) (ram : ℕ → Byte) (es : List Event)
    (e : Event) :
    historyOf c mem ram (es ++ [e]) =
      note c (run (step c) (State.start mem ram) es) e (historyOf c mem ram es) := by
  have hfst : (run (watch (step c) (note c)) (State.start mem ram, ⟨0, false⟩) es).1 =
      run (step c) (State.start mem ram) es := run_watch_fst _ _ _
  rw [historyOf, run_append, ← hfst]
  rfl

/-- At every point of a run from start-up: flash and address pointer change only when a
GET_STATUS transfer ends in dfuDNBUSY, no accepted download has been executed twice, the one
that waits keeps its data, and no report says dfuDNLOAD-IDLE while one waits. -/
theorem deferred_execution_exact (c : Device) (mem : Addr → Byte) (ram : ℕ → Byte)
    (es : List Event) (e : Event) :
    let s := run (step c) (State.start mem ram) es
    let t := step c s e
    let h := historyOf c mem ram (es ++ [e])
    (StatusStage s e ∧ s.usbReq.Asks .getstatus ∧ s.dfu.usbdfuState = .dfuDnbusy ∨
      t.dfu.flash.mem = s.dfu.flash.mem ∧ t.dfu.flash.ops = [] ∧
        t.dfu.prog.addr = s.dfu.prog.addr) ∧
    h.executions ≤ 1 ∧
    (t.dfu.accepted = false → t.dfu.prog.buf = s.dfu.prog.buf ∧
      t.dfu.prog.len = s.dfu.prog.len ∧ t.dfu.prog.blocknum = s.dfu.prog.blocknum) ∧
    ∀ data, .tx data ∈ t.out →
      (t.usbReq.Asks .getstatus ∧ data[4]? = some DfuState.dfuDnloadIdle.toByte ∨
        t.usbReq.Asks .getstate ∧ data[0]? = some DfuState.dfuDnloadIdle.toByte) →
      h.pending = false := by
  intro s t h
  have hs : Deferred s (historyOf c mem ram es) := deferred_run c mem ram es
  have ht : Deferred t h := by
    have hh : h = note c s e (historyOf c mem ram es) := historyOf_append c mem ram es e
    rw [hh]
    exact deferred_step c hs e
  refine ⟨flash_step c s e hs.callback, ht.once, prog_step c s e, ?_⟩
  intro data htx hreport
  apply ht.idle
  rcases hreport with ⟨hr, hb⟩ | ⟨hr, hb⟩
  · exact DfuState.toByte_injective
      (report_state c s htx hs.getstatusSent hr (.inl rfl) hb).symm
  · exact DfuState.toByte_injective
      (report_state c s htx hs.getstateSent hr (.inr rfl) hb).symm

/-! No accepted download is lost, short of a request that replaces or drops it. -/

/-- The requests that cancel a download, and those that take its place. -/
def cancelling : List DfuReq := [.abort, .detach]
def superseding : List DfuReq := [.abort, .detach, .dnload, .upload]

theorem pending_of_accepted {c : Device} {s : State} {e : Event}
    (h : (step c s e).dfu.accepted) : (step c s e).dfu.Pending (step c s e).dfu.prog := by
  refine ⟨?_, rfl, rfl, rfl⟩
  rcases dfu_cases c s e with hq | ⟨r, hr, hdis⟩ | ⟨hc, hb⟩
  · rw [hq] at h
    cases h
  · obtain ⟨rfl, hl⟩ := hr.accepted.mp h
    rw [hr.dfu, controlRequest_state_of_dnload c _ hr.code rfl, if_neg hl]
    exact .inl rfl
  · rw [hc.of_busy hb] at h
    cases h

theorem pending_step (c : Device) (p : Prog) (s : State) (e : Event) (h : s.dfu.Pending p) :
    (step c s e).dfu.settles superseding ∨ (step c s e).dfu.Pending p := by
  rcases dfu_cases c s e with hq | ⟨r, hr, hdis⟩ | ⟨hc, hb⟩
  · right
    rw [hq]
    exact ⟨h.state, h.buf, h.len, h.blocknum⟩
  · by_cases hsup : r ∈ superseding
    · exact .inl (hr.settles hsup)
    · right
      have hquery : r = .getstatus ∨ r = .getstate ∨ r = .clrstatus := by
        cases r <;> simp [superseding] at hsup ⊢
      have hn : ¬(r = .dnload ∧ (s.ioOf e).len ≠ 0#16) := by
        rintro ⟨rfl, -⟩
        simp [superseding] at hsup
      have hprog : (step c s e).dfu.prog = s.dfu.prog := by
        rw [hr.dfu, controlRequest_prog c _ hr.code hn, hr.before]
        rfl
      refine ⟨?_, hprog ▸ h.buf, hprog ▸ h.len, hprog ▸ h.blocknum⟩
      have hbefore : (s.ioOf e).dfu.usbdfuState = s.dfu.usbdfuState := by
        rw [hr.before]
        rfl
      rcases controlRequest_state_of_query c _ hr.code hquery with hs | ⟨-, hs⟩ | ⟨-, he, -⟩
      · rw [hr.dfu, hs, hbefore]
        exact h.state
      · rw [hr.dfu, hs, hbefore]
        rcases h.state with hst | hst <;> rw [hst]
        · exact .inr rfl
        · exact .inr rfl
      · rw [hbefore] at he
        rcases h.state with hst | hst <;> rw [hst] at he <;> cases he
  · left
    rw [Dfu.settles, hc.of_busy hb]
    rfl

/-- An accepted download is executed, or superseded by a request of the host, or still
waiting with its data. -/
theorem accepted_download_kept (c : Device) (s : State) (e : Event)
    (h : (step c s e).dfu.accepted) (es : List Event) :
    Meets (step c) (fun s e => (step c s e).dfu.settles superseding) (step c s e) es ∨
      (run (step c) (step c s e) es).dfu.Pending (step c s e).dfu.prog :=
  meets_or_run (pending_step c (step c s e).dfu.prog) (pending_of_accepted h) es

theorem accepted_download_kept_one :
    let c := Device.stm64k
    let s := step c (State.start (fun _ => 0xFF#8) fun _ => 0#8)
      (.setup (setupPacket 0x21#8 1#8 2#16 0#16 1#16))
    let e := Event.out [0xAA#8]
    (step c s e).dfu.accepted ∧
      (Meets (step c) (fun s e => (step c s e).dfu.settles superseding) (step c s e)
          [.inComplete] ∨
        (run (step c) (step c s e) [.inComplete]).dfu.Pending (step c s e).dfu.prog) :=
  ⟨by decide, accepted_download_kept _ _ _ (by decide) _⟩

/-- The cancelling requests alone do not cover it: a second download replaces one that has
been accepted, answered and not yet executed. -/
theorem download_replaced :
    let c := Device.stm64k
    let s := step c (State.start (fun _ => 0xFF#8) fun _ => 0#8)
      (.setup (setupPacket 0x21#8 1#8 2#16 0#16 1#16))
    let t := step c s (.out [0xAA#8])
    let es := .inComplete :: dnload 3#16 [0xBB#8]
    t.dfu.accepted ∧
      ¬(Meets (step c) (fun s e => (step c s e).dfu.settles cancelling) t es ∨
        (run (step c) t es).dfu.Pending t.dfu.prog) := by
  intro c s t es
  have hacc : t.dfu.accepted := by decide +kernel
  have hmeets : ¬Meets (step c) (fun s e => (step c s e).dfu.settles cancelling) t es := by
    decide +kernel
  have hblock : (run (step c) t es).dfu.prog.blocknum ≠ t.dfu.prog.blocknum := by decide +kernel
  refine ⟨hacc, ?_⟩
  rintro (h | h)
  · exact hmeets h
  · exact hblock h.blocknum

end Swindle
