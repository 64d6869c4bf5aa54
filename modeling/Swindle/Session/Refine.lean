import Swindle.Dfu.Server
import Swindle.Session.Loop

/-! A DFU session: the host's requests against the loop of stage 2 and against the server, with
other traffic on endpoint 0 in between. -/
namespace Swindle
open Machine

def Request.perform (c : Device) (l : Loop) : Request → Reply Byte × Loop
  | dnload cmd => (Loop.port c).write (setupPacket 0x21#8 1#8 cmd.blocknum 0#16
      (BitVec.ofNat 16 cmd.payload.length)) (blocks bMaxPacketSize0 cmd.payload) l
  | leave => (Loop.port c).write (setupPacket 0x21#8 1#8 0#16 0#16 0#16) [] l
  | upload b n =>
    (Loop.port c).read bMaxPacketSize0 n (setupPacket 0xA1#8 2#8 b 0#16 (BitVec.ofNat 16 n)) l
  | getstatus => (Loop.port c).read bMaxPacketSize0 6 (setupPacket 0xA1#8 3#8 0#16 0#16 6#16) l
  | clrstatus => (Loop.port c).write (setupPacket 0x21#8 4#8 0#16 0#16 0#16) [] l
  | getstate => (Loop.port c).read bMaxPacketSize0 1 (setupPacket 0xA1#8 5#8 0#16 0#16 1#16) l
  | abort => (Loop.port c).write (setupPacket 0x21#8 6#8 0#16 0#16 0#16) [] l
  | detach => (Loop.port c).write (setupPacket 0x21#8 0#8 0#16 0#16 0#16) [] l

section Setup

variable {c : Device} {s : State} {a b : Byte} {v i l : BitVec 16}

@[simp] theorem requestOf_setupPacket :
    s.requestOf (.setup (setupPacket a b v i l)) = ⟨a, b, v, i, l⟩ := by
  change s.usbReq.patch (setupBytes (setupPacket a b v i l)) = _
  rw [setupBytes_setupPacket, patch_setupPacket]

@[simp] theorem length_setupPacket : (setupBytes (setupPacket a b v i l)).length = 8 := by
  rw [setupBytes_setupPacket]
  rfl

theorem clearsToggle_of_dfu {req : UsbSetupData} (h : req.isDfu) : req.clearsToggle = 0#16 :=
  if_neg fun hh => haltFeature_not_dfu hh.1 h

theorem answered_dfu {d : List Byte} {r : DfuReq} (h : (s.requestOf (.setup d)).Asks r) :
    let q := usbdfuControlRequest c (s.requestOf (.setup d)) (s.ioOf (.setup d))
    (s.answered c d).1 = .handled ∧ (s.answered c d).2.datasize = q.2.len ∧
      (s.answered c d).2.usbdControlBuffer = q.2.buf := by
  intro q
  let t := s.tookSetup d (s.usb.readSetup d)
  have hq : s.answered c d = _ := State.readDispatch_of_dfu c (s := t) h.1
  have hcode : DfuReq.ofByte t.usbReq.bRequest = some r := h.2
  rw [hq, hcode]
  exact ⟨rfl, rfl, rfl⟩

theorem setup_dfu {d : List Byte} {r : DfuReq} (hd : s.Dispatches (.setup d))
    (h : (s.requestOf (.setup d)).Asks r) :
    let q := usbdfuControlRequest c (s.requestOf (.setup d)) (s.ioOf (.setup d))
    (step c s (.setup d)).dfu = q.2.dfu ∧ (step c s (.setup d)).usbCompleteCb = q.2.complete := by
  intro q
  have htakes : s.Takes r (.setup d) := ⟨hd, h⟩
  refine ⟨step_of_takes htakes, ?_⟩
  rcases poll_cases c s (.setup d) with hq | ⟨r', hr, -⟩ | hc
  · -- the handler is asked, so the poll is recorded
    have hlog := congrArg Dfu.log ((step_of_takes (c := c) htakes).symm.trans hq.dfu)
    have hnil : s.dfu.newPoll.log = [] := rfl
    rcases controlRequest_log c (s.ioOf (.setup d)) h.2 with hl | ⟨-, -, -, -, hl⟩
    · rw [hl, hnil] at hlog
      cases hlog
    · rw [hl, hnil] at hlog
      cases hlog
  · have hreq : (step c s (.setup d)).usbReq = s.requestOf (.setup d) := step_usbReq c s (.setup d)
    rw [hr.cb, hreq]
  · exact hc.stage.elim

end Setup

/-! After its SETUP a transfer without a callback leaves the DFU layer alone. -/

section Rest

variable {c : Device} {s : State}

/-- No data stage of a DFU request is open. -/
def Clear (s : State) : Prop := s.Expecting → ¬s.usbReq.isDfu

theorem rest_step {e : Event} (hcb : s.usbCompleteCb = none) (hd : ¬s.Dispatches e) :
    (step c s e).dfu = s.dfu.newPoll ∧ (step c s e).usbCompleteCb = none := by
  rcases poll_cases c s e with hq | ⟨r, -, hd'⟩ | hc
  · refine ⟨hq.dfu, ?_⟩
    rcases hq.cb with h | ⟨h, -⟩
    · exact h
    · exact h.trans hcb
  · exact absurd hd' hd
  · have hsome := hc.registered
    rw [hcb] at hsome
    cases hsome

theorem rest_ins (hcb : s.usbCompleteCb = none) (n : ℕ) :
    (run (step c) s (List.replicate n .inComplete)).dfu.newPoll = s.dfu.newPoll ∧
      (run (step c) s (List.replicate n .inComplete)).usbCompleteCb = none := by
  induction n generalizing s with
  | zero => exact ⟨rfl, hcb⟩
  | succ n ih =>
    have hno : ¬s.Dispatches .inComplete := id
    obtain ⟨hdfu, hcb'⟩ := rest_step (c := c) hcb hno
    obtain ⟨hend, hcb''⟩ := ih hcb'
    refine ⟨hend.trans ?_, hcb''⟩
    rw [hdfu]
    rfl

theorem read_rest {d : List Byte} (hcb : (step c s (.setup d)).usbCompleteCb = none) (n : ℕ) :
    (run (step c) s (readEvents d (n + 1) ++ [.out []])).dfu.newPoll =
        (step c s (.setup d)).dfu.newPoll ∧
      Clear (run (step c) s (readEvents d (n + 1) ++ [.out []])) := by
  obtain ⟨hdfu, hcb'⟩ := rest_ins (c := c) hcb (n + 1)
  let t := run (step c) s (readEvents d (n + 1))
  have hlast : ¬t.Expecting := by
    have hsplit : t = step c (run (step c) s (readEvents d n)) .inComplete := by
      change run (step c) s (readEvents d (n + 1)) = _
      rw [readEvents_succ, run_append]
      rfl
    rw [hsplit]
    exact in_not_expecting c _
  have hno : ¬t.Dispatches (.out []) := fun h => hlast (.inr h.1)
  obtain ⟨hend, -⟩ := rest_step (c := c) (s := t) hcb' hno
  rw [run_append]
  constructor
  · change (step c t (.out [])).dfu.newPoll = _
    rw [hend]
    exact hdfu
  · intro hexp
    exact absurd (.inl (out_expecting c t [] hexp).1) hlast

theorem nil_rest {d : List Byte} (hcb : (step c s (.setup d)).usbCompleteCb = none) :
    (run (step c) s [.setup d, .inComplete]).dfu.newPoll = (step c s (.setup d)).dfu.newPoll ∧
      Clear (run (step c) s [.setup d, .inComplete]) := by
  have hno : ¬(step c s (.setup d)).Dispatches .inComplete := id
  obtain ⟨hend, -⟩ := rest_step (c := c) hcb hno
  constructor
  · change (step c (step c s (.setup d)) .inComplete).dfu.newPoll = _
    rw [hend]
    rfl
  · intro hexp
    exact absurd hexp (in_not_expecting c _)

end Rest

/-! The transfers of the requests. -/

section Transfers

variable {c : Device} {s : State} {b : Byte} {v : BitVec 16} {r : DfuReq}

/-- What stage 2 hands its DFU layer with a request that has no data stage from the host. -/
def State.dfuAsked (s : State) (req : UsbSetupData) : DfuIo :=
  { len := req.wLength
    complete := none
    buf := s.usbdControlBuffer
    dfu := s.dfu.newPoll }

theorem ioOf_setupPacket {a : Byte} {l : BitVec 16} :
    s.ioOf (.setup (setupPacket a b v 0#16 l)) = s.dfuAsked ⟨a, b, v, 0#16, l⟩ := by
  rw [State.ioOf, requestOf_setupPacket]
  rfl

theorem read_transfer (hs : s.dfu.usbdfuState ≠ .dfuManifest)
    (hcode : DfuReq.ofByte b = some r) (hr : r ≠ .detach ∧ r ≠ .getstatus) {n : ℕ} (h0 : 0 < n)
    (h16 : n < 2 ^ 16) :
    let req : UsbSetupData := ⟨0xA1#8, b, v, 0#16, BitVec.ofNat 16 n⟩
    let q := (usbdfuControlRequest c req (s.dfuAsked req)).2
    ∃ t, (Loop.port c).read bMaxPacketSize0 n
        (setupPacket 0xA1#8 b v 0#16 (BitVec.ofNat 16 n)) (.polling s) =
          (.data (slice q.buf 0 (min q.len.toNat n)), .polling t) ∧
      t.dfu.newPoll = q.dfu.newPoll ∧ Clear t := by
  intro req q
  let d := setupPacket 0xA1#8 b v 0#16 (BitVec.ofNat 16 n)
  have hreq : s.requestOf (.setup d) = req := requestOf_setupPacket
  have hio : s.ioOf (.setup d) = s.dfuAsked req := ioOf_setupPacket
  have hasks : (s.requestOf (.setup d)).Asks r := by
    rw [hreq]
    exact ⟨decide_eq_true (show 0xA1#8 &&& 0x7F#8 = 0x21#8 by decide), hcode⟩
  have hn : (s.requestOf (.setup d)).wLength.toNat = n := by
    rw [hreq, BitVec.toNat_ofNat]
    exact Nat.mod_eq_of_lt h16
  have hw : (s.requestOf (.setup d)).wLength ≠ 0#16 := fun hz => by
    rw [hz] at hn
    exact absurd hn (Nat.ne_of_lt h0)
  have hin : (s.requestOf (.setup d)).bmRequestType &&& 0x80#8 ≠ 0#8 := by
    rw [hreq]
    exact show 0xA1#8 &&& 0x80#8 ≠ 0#8 by decide
  have hdis : s.Dispatches (.setup d) := ⟨length_setupPacket, .inr hin⟩
  have honly : ∀ r', (s.requestOf (.setup d)).Asks r' → r' = r := fun r' h' =>
    Option.some.inj (h'.2.symm.trans hasks.2)
  have hcalm : Calm (step c s (.setup d)) := calm_setup hs (fun h' => hr.1 (honly _ h').symm)
    fun h' => absurd (honly _ h').symm hr.2
  obtain ⟨hans, hsize, hbuf⟩ := answered_dfu (c := c) hasks
  obtain ⟨hdfu, hcb⟩ := setup_dfu (c := c) hdis hasks
  have hcb' : (step c s (.setup d)).usbCompleteCb = none := by
    rw [hcb, controlRequest_complete c _ hasks.2, if_neg hr.2]
    rfl
  have htaken : (s.answered c d).1 ≠ .notsupp := by
    rw [hans]
    decide
  have hread := read_answered (c := c) length_setupPacket hin hw htaken
    (clearsToggle_of_dfu hasks.1)
  have hlift := (port_embeds c).read (k := 64) (w := n) hcalm (Loop.poll_of_staying hcalm.polling)
  dsimp only at hread
  rw [hn, hsize, hbuf, hio, hreq] at hread
  rw [hread] at hlift
  obtain ⟨hend, hclear⟩ := read_rest (c := c) hcb' (lastPacket 64 (min q.len.toNat n) n)
  refine ⟨_, hlift, ?_, hclear⟩
  rw [hend, hdfu, hio, hreq]

theorem nil_transfer (hs : s.dfu.usbdfuState ≠ .dfuManifest)
    (hcode : DfuReq.ofByte b = some r) (hr : r ≠ .detach ∧ r ≠ .getstatus) :
    let req : UsbSetupData := ⟨0x21#8, b, v, 0#16, 0#16⟩
    let q := (usbdfuControlRequest c req (s.dfuAsked req)).2
    ∃ t, (Loop.port c).write (setupPacket 0x21#8 b v 0#16 0#16) [] (.polling s) =
        (.data [], .polling t) ∧ t.dfu.newPoll = q.dfu.newPoll ∧ Clear t := by
  intro req q
  let d := setupPacket 0x21#8 b v 0#16 0#16
  have hreq : s.requestOf (.setup d) = req := requestOf_setupPacket
  have hio : s.ioOf (.setup d) = s.dfuAsked req := ioOf_setupPacket
  have hasks : (s.requestOf (.setup d)).Asks r := by
    rw [hreq]
    exact ⟨decide_eq_true (show 0x21#8 &&& 0x7F#8 = 0x21#8 by decide), hcode⟩
  have hw : (s.requestOf (.setup d)).wLength = 0#16 := by rw [hreq]
  have hdis : s.Dispatches (.setup d) := ⟨length_setupPacket, .inl hw⟩
  have honly : ∀ r', (s.requestOf (.setup d)).Asks r' → r' = r := fun r' h' =>
    Option.some.inj (h'.2.symm.trans hasks.2)
  have hcalm : Calm (step c s (.setup d)) := calm_setup hs (fun h' => hr.1 (honly _ h').symm)
    fun h' => absurd (honly _ h').symm hr.2
  obtain ⟨hans, -, -⟩ := answered_dfu (c := c) hasks
  obtain ⟨hdfu, hcb⟩ := setup_dfu (c := c) hdis hasks
  have hcb' : (step c s (.setup d)).usbCompleteCb = none := by
    rw [hcb, controlRequest_complete c _ hasks.2, if_neg hr.2]
    rfl
  have htaken : (s.answered c d).1 ≠ .notsupp := by
    rw [hans]
    decide
  have hwrite := write_nil_answered (c := c) length_setupPacket hw htaken
    (clearsToggle_of_dfu hasks.1)
  have hlift := (port_embeds c).write hcalm (Loop.poll_of_staying hcalm.polling) []
  rw [hwrite] at hlift
  obtain ⟨hend, hclear⟩ := nil_rest (c := c) hcb'
  refine ⟨_, hlift, ?_, hclear⟩
  rw [hend, hdfu, hio, hreq]

theorem status_transfer (hs : s.dfu.usbdfuState ≠ .dfuManifest)
    (hsync : s.dfu.usbdfuState ≠ .dfuManifestSync) :
    let answer := usbdfuGetstatus s.dfu.usbdfuState
    ∃ t, Request.getstatus.perform c (.polling s) =
        (.data (statusBytes answer.2.1 answer.2.2 answer.1), .polling t) ∧
      t.dfu = usbdfuGetstatusComplete c { s.dfu.newPoll with usbdfuState := answer.1 } ∧
      Clear t := by
  intro answer
  let d := setupPacket 0xA1#8 3#8 0#16 0#16 6#16
  have hreq : s.requestOf (.setup d) = ⟨0xA1#8, 3#8, 0#16, 0#16, 6#16⟩ := requestOf_setupPacket
  have hasks : (s.requestOf (.setup d)).Asks .getstatus := by
    rw [hreq]
    decide
  have hw : (s.requestOf (.setup d)).wLength ≠ 0#16 := by
    rw [hreq]
    decide
  have hin : (s.requestOf (.setup d)).bmRequestType &&& 0x80#8 ≠ 0#8 := by
    rw [hreq]
    exact show 0xA1#8 &&& 0x80#8 ≠ 0#8 by decide
  have hdet : ¬(s.requestOf (.setup d)).Asks .detach := fun h' =>
    absurd (h'.2.symm.trans hasks.2) (by decide)
  have hcalm : Calm (step c s (.setup d)) :=
    calm_setup hs hdet fun _ => ⟨hsync, fun hwr => hin hwr.out⟩
  obtain ⟨hans, hsize, hbuf⟩ := answered_dfu (c := c) hasks
  have htaken : (s.answered c d).1 ≠ .notsupp := by
    rw [hans]
    decide
  have hread := read_answered (c := c) length_setupPacket hin hw htaken
    (clearsToggle_of_dfu hasks.1)
  have hlift := (port_embeds c).read (k := 64) (w := 6) hcalm (Loop.poll_of_staying hcalm.polling)
  have hlen : (s.answered c d).2.datasize = 6#16 := by
    rw [hsize, usbdfuControlRequest, hasks.2]
  have hw6 : (s.requestOf (.setup d)).wLength.toNat = 6 := by rw [hreq]; rfl
  have hdata : slice (s.answered c d).2.usbdControlBuffer 0 6 =
      statusBytes answer.2.1 answer.2.2 answer.1 := by
    rw [hbuf, usbdfuControlRequest, hasks.2]
    exact slice_blit 0 _ _
  dsimp only at hread
  rw [hw6, hlen, show min (6#16).toNat 6 = 6 from rfl, hdata] at hread
  rw [hread] at hlift
  obtain ⟨hidle, hdfu⟩ := run_getstatus c s
  refine ⟨_, hlift, hdfu, fun hexp => ?_⟩
  have hidle' : (run (step c) s getstatus).usbFsmState = .idle := hidle
  rcases hexp with hf | hf <;> cases hidle'.symm.trans hf

theorem detach_transfer (hs : s.dfu.usbdfuState ≠ .dfuManifest) :
    ∃ t, Request.detach.perform c (.polling s) = (.noAnswer, .fullSystemReset t) ∧
      t.dfu.flash.mem = s.dfu.flash.mem := by
  let d := setupPacket 0x21#8 0#8 0#16 0#16 0#16
  have hreq : s.requestOf (.setup d) = ⟨0x21#8, 0#8, 0#16, 0#16, 0#16⟩ := requestOf_setupPacket
  have htakes : s.Takes .detach (.setup d) := by
    refine ⟨⟨length_setupPacket, .inl ?_⟩, ?_⟩
    · exact congrArg UsbSetupData.wLength hreq
    · rw [hreq]
      decide
  have hm := (manifest_step_iff (c := c) hs).mpr (.inl htakes)
  have hpoll : (Loop.polling s).poll c (.setup d) = .fullSystemReset _ := if_pos hm
  refine ⟨_, Loop.write_of_reset hpoll [], ?_⟩
  rw [step_of_takes htakes, controlRequest_flash]
  rfl

theorem manifest_transfer (hs : s.dfu.usbdfuState = .dfuManifestSync) :
    ∃ t, Request.getstatus.perform c (.polling s) = (.noAnswer, .fullSystemReset t) ∧
      t.dfu.flash.mem = s.dfu.flash.mem := by
  let d := setupPacket 0xA1#8 3#8 0#16 0#16 6#16
  have hreq : s.requestOf (.setup d) = ⟨0xA1#8, 3#8, 0#16, 0#16, 6#16⟩ := requestOf_setupPacket
  have hin : (s.requestOf (.setup d)).bmRequestType &&& 0x80#8 ≠ 0#8 := by
    rw [hreq]
    exact show 0xA1#8 &&& 0x80#8 ≠ 0#8 by decide
  have htakes : s.Takes .getstatus (.setup d) := by
    refine ⟨⟨length_setupPacket, .inr hin⟩, ?_⟩
    rw [hreq]
    decide
  have hne : s.dfu.usbdfuState ≠ .dfuManifest := by
    rw [hs]
    decide
  have hm := (manifest_step_iff (c := c) hne).mpr (.inr ⟨htakes, hs⟩)
  have hpoll : (Loop.polling s).poll c (.setup d) = .fullSystemReset _ := if_pos hm
  refine ⟨_, Loop.read_of_reset hpoll _ _, ?_⟩
  rw [step_of_takes htakes, controlRequest_flash]
  rfl

theorem dnload_transfer (hs : s.dfu.usbdfuState ≠ .dfuManifest) {data : List Byte}
    (h0 : 0 < data.length) (h4 : data.length ≤ dfuTransferSize) :
    ∃ t, (Loop.port c).write (setupPacket 0x21#8 1#8 v 0#16 (BitVec.ofNat 16 data.length))
        (blocks bMaxPacketSize0 data) (.polling s) = (.data [], .polling t) ∧
      t.dfu = { s.dfu.newPoll with
        usbdfuState := .dfuDnloadSync
        prog := s.dfu.prog.download v data } ∧ Clear t := by
  let d := setupPacket 0x21#8 1#8 v 0#16 (BitVec.ofNat 16 data.length)
  have hreq : s.requestOf (.setup d) = dnloadReq v data := requestOf_setupPacket
  have hwrites : (s.requestOf (.setup d)).Writes := by
    rw [hreq]
    exact ⟨show 0x21#8 &&& 0x80#8 = 0#8 by decide, length_ne_zero h0 h4⟩
  have hasks : (s.requestOf (.setup d)).Asks .dnload := by
    rw [hreq]
    exact ⟨decide_eq_true (show 0x21#8 &&& 0x7F#8 = 0x21#8 by decide), rfl⟩
  have hlen : (s.requestOf (.setup d)).wLength.toNat = data.length := by
    rw [hreq]
    exact toNat_length h4
  have honly : ∀ r', (s.requestOf (.setup d)).Asks r' → r' = .dnload := fun r' h' =>
    Option.some.inj (h'.2.symm.trans hasks.2)
  have hcalm : Calm (step c s (.setup d)) :=
    calm_setup hs (fun h' => absurd (honly _ h') (by decide)) fun h' =>
      absurd (honly _ h') (by decide)
  obtain ⟨q, hq, hwrite⟩ := write_answered (c := c) length_setupPacket hwrites
    (clearsToggle_of_dfu hasks.1) hlen h4
  have htaken : (q.usbControlRequestDispatch c).1 ≠ .notsupp := by
    have hdfu : q.usbReq.isDfu := by
      rw [hq.usbReq]
      exact hasks.1
    have hcode : DfuReq.ofByte q.usbReq.bRequest = some .dnload := by
      rw [hq.usbReq]
      exact hasks.2
    rw [State.dispatch_of_dfu c hdfu, hcode]
    simp
  have hlift := (port_embeds c).write hcalm (Loop.poll_of_staying hcalm.polling)
    (blocks 64 data)
  rw [if_neg htaken] at hwrite
  rw [hwrite] at hlift
  obtain ⟨hidle, hdfu⟩ := run_dnload c s v h0 h4
  refine ⟨_, hlift, hdfu, fun hexp => ?_⟩
  have hidle' : (run (step c) s (dnload v data)).usbFsmState = .idle := hidle
  rcases hexp with hf | hf <;> cases hidle'.symm.trans hf

end Transfers

/-! One request. -/

/-- What the device and the server share between two requests. -/
def Follows (c : Device) : Loop → Service → Prop
  | .polling s, .serving v => Serves c v s.dfu ∧ Clear s
  | .fullSystemReset t, .gone store => t.dfu.flash.mem = store
  | _, _ => False

theorem Follows.reset_of_gone {c : Device} {l : Loop} {store : Addr → Byte}
    (h : Follows c l (.gone store)) :
    ∃ t, l = .fullSystemReset t ∧ t.dfu.flash.mem = store := by
  cases l with
  | polling t => exact h.elim
  | fullSystemReset t => exact ⟨t, rfl, h⟩

section Request

variable {c : Device} {v : Server} {s t : State}

theorem slice_blit_take {n : ℕ} (d : List Byte) {b : ℕ → Byte} (h : n ≤ d.length) :
    slice (blit 0 d b) 0 n = d.take n := by
  rw [← slice_getD d b h]
  exact slice_congr fun i _ => blit_zero d b (0 + i)

theorem Serves.of_newPoll {d d' : Dfu} (h : Serves c v d) (heq : d'.newPoll = d.newPoll) :
    Serves c v d' := by
  have hstate := congrArg Dfu.usbdfuState heq
  have hprog := congrArg Dfu.prog heq
  have hflash := congrArg Dfu.flash heq
  rw [Dfu.newPoll_prog, Dfu.newPoll_prog] at hprog
  have hmem := congrArg Flash.mem hflash
  have herased := congrArg Flash.erased hflash
  have hcr := congrArg Flash.cr hflash
  constructor
  · exact hstate.trans h.state
  · rw [hprog]
    exact h.pends
  · rw [hprog]
    exact h.pointer
  · exact hmem.trans h.store
  · exact fun hs => herased.trans (h.fresh hs)
  · exact hcr.trans h.locked

theorem Serves.moved {p : Phase} (h : Serves c v s.dfu) (hp : ∀ cmd, p = .sync cmd → v.phase = p)
    {d : Dfu} (hd : d.newPoll = { s.dfu.newPoll with usbdfuState := p.state }) :
    Serves c { v with phase := p } d := by
  have hmoved : Serves c { v with phase := p } { s.dfu.newPoll with usbdfuState := p.state } :=
    ⟨rfl, fun cmd hcmd => h.pends cmd ((hp cmd hcmd).trans hcmd), h.pointer, h.store, h.fresh,
      h.locked⟩
  exact hmoved.of_newPoll hd

theorem phase_polling (p : Phase) : p.state ≠ .dfuManifest := by
  cases p <;> simp [Phase.state]

theorem Serves.polling (h : Serves c v s.dfu) : s.dfu.usbdfuState ≠ .dfuManifest := by
  rw [h.state]
  exact phase_polling v.phase

theorem nil_follows {b : Byte} {r : DfuReq} {p : Phase} (h : Serves c v s.dfu)
    (hcode : DfuReq.ofByte b = some r) (hr : r ≠ .detach ∧ r ≠ .getstatus)
    (hp : ∀ cmd, p = .sync cmd → v.phase = p)
    (hq : ∀ req io, io.len = 0#16 → io.dfu = s.dfu.newPoll → DfuReq.ofByte req.bRequest = some r →
      (usbdfuControlRequest c req io).2.dfu.newPoll =
        { s.dfu.newPoll with usbdfuState := p.state }) :
    ∃ t, (Loop.port c).write (setupPacket 0x21#8 b 0#16 0#16 0#16) [] (.polling s) =
        (.data [], .polling t) ∧ Serves c { v with phase := p } t.dfu ∧ Clear t := by
  obtain ⟨t, hwrite, hdfu, hclear⟩ := nil_transfer (c := c) (v := 0#16) h.polling hcode hr
  exact ⟨t, hwrite, h.moved hp (hdfu.trans (hq _ _ rfl rfl hcode)), hclear⟩

theorem upload_follows {b : BitVec 16} {n : ℕ} (h : Serves c v s.dfu)
    (ha : v.Admits c (.upload b n)) :
    ∃ t w, (Request.upload b n).perform c (.polling s) =
        ((v.serve c (.upload b n)).1, .polling t) ∧
      (v.serve c (.upload b n)).2 = .serving w ∧ Serves c w t.dfu ∧ Clear t := by
  obtain ⟨h0, h16, hwrap⟩ := ha
  have hcode : DfuReq.ofByte 2#8 = some .upload := rfl
  obtain ⟨t, hread, hdfu, hclear⟩ := read_transfer (c := c) (v := b) h.polling hcode
    ⟨by decide, by decide⟩ h0 h16
  have hno : ∀ p : Phase, (p = .uploadIdle ∨ p = .error) → ∀ cmd, p = .sync cmd → v.phase = p := by
    rintro p (rfl | rfl) cmd hcmd <;> cases hcmd
  have hbase : (s.dfuAsked ⟨0xA1#8, 2#8, b, 0#16, BitVec.ofNat 16 n⟩).dfu.prog.addr = v.pointer :=
    h.pointer
  have hperform : (Request.upload b n).perform c (.polling s) = _ := hread
  rw [hperform]
  rw [usbdfuControlRequest, hcode] at hdfu ⊢
  dsimp only at hdfu ⊢
  by_cases hb : b = 0#16
  · rw [if_pos hb] at hdfu ⊢
    refine ⟨t, { v with phase := .uploadIdle }, ?_, ?_, ?_, hclear⟩
    · rw [Server.serve, if_pos hb]
      refine congrArg (fun x => (Reply.data x, Loop.polling t)) ?_
      have hlen : min (3#16).toNat n ≤ [0x00#8, cmdSetaddr, cmdErase].length := Nat.min_le_left _ _
      rw [slice_blit_take _ hlen, List.take_eq_take_iff]
      change min (min 3 n) 3 = min n 3
      omega
    · rw [Server.serve, if_pos hb]
    · exact h.moved (hno _ (.inl rfl)) hdfu
  · have hcheck := inside_iff (c := c) (hwrap hb)
    have hstore : s.dfu.newPoll.flash.mem = v.store := h.store
    rw [if_neg hb] at hdfu ⊢
    rw [hbase] at hdfu ⊢
    rw [Server.serve, if_neg hb]
    by_cases hin : c.enableDfuUpload ∧ Inside c (blockAddress v.pointer b) dfuTransferSize
    · have hin' : c.enableDfuUpload ∧ addressCheck c (blockAddress v.pointer b)
          (BitVec.ofNat 32 dfuTransferSize) := ⟨hin.1, hcheck.mpr hin.2⟩
      rw [if_pos hin'] at hdfu ⊢
      rw [if_pos hin]
      refine ⟨t, { v with phase := .uploadIdle }, ?_, rfl, ?_, hclear⟩
      · refine congrArg (fun x => (Reply.data x, Loop.polling t)) ?_
        refine List.map_congr_left fun i hi => ?_
        have hlt : 0 + i < dfuTransferSize := by
          rw [Nat.zero_add]
          exact Nat.lt_of_lt_of_le (List.mem_range.mp hi) (Nat.min_le_left _ _)
        rw [← hstore]
        dsimp only
        rw [if_pos hlt, Nat.zero_add]
        rfl
      · exact h.moved (hno _ (.inl rfl)) hdfu
    · have hin' : ¬(c.enableDfuUpload ∧ addressCheck c (blockAddress v.pointer b)
          (BitVec.ofNat 32 dfuTransferSize)) := fun h' => hin ⟨h'.1, hcheck.mp h'.2⟩
      rw [if_neg hin'] at hdfu ⊢
      rw [if_neg hin]
      refine ⟨t, { v with phase := .error }, ?_, rfl, ?_, hclear⟩
      · have hzero : min (0#16).toNat n = 0 := Nat.zero_min n
        rw [hzero]
        rfl
      · exact h.moved (hno _ (.inr rfl)) hdfu

theorem getstatus_follows (h : Serves c v s.dfu) (ha : v.Admits c .getstatus) :
    (Request.getstatus.perform c (.polling s)).1 = (v.serve c .getstatus).1 ∧
      Follows c (Request.getstatus.perform c (.polling s)).2 (v.serve c .getstatus).2 := by
  have hstate := h.state
  have hserves : Serves c v s.dfu.newPoll := h.of_newPoll rfl
  cases hp : v.phase with
  | manifestSync =>
    rw [hp] at hstate
    obtain ⟨t, hperform, hmem⟩ := manifest_transfer (c := c) hstate
    rw [hperform, Server.serve, hp]
    exact ⟨rfl, hmem.trans h.store⟩
  | sync cmd =>
    rw [hp] at hstate
    have hne : s.dfu.usbdfuState ≠ .dfuManifestSync := by simp [hstate, Phase.state]
    obtain ⟨t, hperform, hdfu, hclear⟩ := status_transfer (c := c) h.polling hne
    have hfit : v.Fits c cmd := by
      rw [Server.Admits, hp] at ha
      exact ha
    have hdone := hserves.execute hp hfit
    rw [hperform, Server.serve, hp, hstate]
    rw [hstate] at hdfu
    refine ⟨rfl, ?_, hclear⟩
    rw [hdfu]
    exact hdone
  | _ =>
    rw [hp] at hstate
    have hne : s.dfu.usbdfuState ≠ .dfuManifestSync := by simp [hstate, Phase.state]
    obtain ⟨t, hperform, hdfu, hclear⟩ := status_transfer (c := c) h.polling hne
    rw [hperform, Server.serve, hp, hstate]
    rw [hstate] at hdfu
    refine ⟨rfl, ?_, hclear⟩
    rw [hdfu]
    rw [getstatusComplete_of_not_busy c (by simp [usbdfuGetstatus, Phase.state])]
    refine Serves.of_newPoll h ?_
    simp [usbdfuGetstatus, Phase.state, Dfu.newPoll, hstate]

theorem perform_follows {r : Request} (h : Serves c v s.dfu) (ha : v.Admits c r) :
    (r.perform c (.polling s)).1 = (v.serve c r).1 ∧
      Follows c (r.perform c (.polling s)).2 (v.serve c r).2 := by
  have hplain : ∀ p : Phase, (∀ cmd, p ≠ .sync cmd) → ∀ cmd, p = .sync cmd → v.phase = p :=
    fun p hp cmd hcmd => absurd hcmd (hp cmd)
  cases r with
  | dnload cmd =>
    have hlen := Command.WellFormed.length ha
    obtain ⟨t, hperform, hdfu, hclear⟩ := dnload_transfer (c := c) (v := cmd.blocknum) h.polling
      hlen.1 hlen.2
    have hp : (Request.dnload cmd).perform c (.polling s) = _ := hperform
    rw [hp]
    refine ⟨rfl, ?_, hclear⟩
    rw [hdfu]
    refine ⟨rfl, ?_, h.pointer, h.store, h.fresh, h.locked⟩
    intro cmd' hcmd
    cases hcmd
    exact pends_download ha s.dfu.prog
  | leave =>
    obtain ⟨t, hwrite, hserves, hclear⟩ := nil_follows (c := c) (b := 1#8) (p := .manifestSync) h
      rfl ⟨by decide, by decide⟩ (hplain _ (by simp)) (by
        intro req io hlen hio hcode
        rw [usbdfuControlRequest, hcode]
        simp [hlen, hio, Dfu.newPoll, Phase.state])
    have hp : Request.leave.perform c (.polling s) = _ := hwrite
    rw [hp]
    exact ⟨rfl, hserves, hclear⟩
  | abort =>
    obtain ⟨t, hwrite, hserves, hclear⟩ := nil_follows (c := c) (b := 6#8) (p := .idle) h rfl
      ⟨by decide, by decide⟩ (hplain _ (by simp)) (by
        intro req io hlen hio hcode
        rw [usbdfuControlRequest, hcode]
        simp [hio, Dfu.newPoll, Phase.state])
    have hp : Request.abort.perform c (.polling s) = _ := hwrite
    rw [hp]
    exact ⟨rfl, hserves, hclear⟩
  | clrstatus =>
    have hmoves : ∀ cmd, (if v.phase = .error then Phase.idle else v.phase) = .sync cmd →
        v.phase = if v.phase = .error then Phase.idle else v.phase := by
      intro cmd hcmd
      split at hcmd
      · cases hcmd
      · rename_i hne
        rw [if_neg hne]
    obtain ⟨t, hwrite, hserves, hclear⟩ := nil_follows (c := c) (b := 4#8)
      (p := if v.phase = .error then .idle else v.phase) h rfl ⟨by decide, by decide⟩ hmoves (by
        intro req io hlen hio hcode
        have hstate : s.dfu.newPoll.usbdfuState = v.phase.state := h.state
        rw [usbdfuControlRequest, hcode]
        dsimp only
        rw [hio, hstate]
        cases hphase : v.phase <;> simp [Dfu.newPoll, Phase.state])
    have hp : Request.clrstatus.perform c (.polling s) = _ := hwrite
    rw [hp]
    exact ⟨rfl, hserves, hclear⟩
  | getstate =>
    have hcode : DfuReq.ofByte 5#8 = some .getstate := rfl
    obtain ⟨t, hread, hdfu, hclear⟩ := read_transfer (c := c) (v := 0#16) (n := 1) h.polling hcode
      ⟨by decide, by decide⟩ (by decide) (by decide)
    have hp : Request.getstate.perform c (.polling s) = _ := hread
    rw [hp]
    rw [usbdfuControlRequest, hcode] at hdfu ⊢
    refine ⟨?_, h.of_newPoll hdfu, hclear⟩
    refine congrArg Reply.data ?_
    have hstate : s.dfu.newPoll.usbdfuState = v.phase.state := h.state
    rw [← hstate]
    exact slice_blit_take [_] (Nat.le_refl 1)
  | upload b n =>
    obtain ⟨t, w, hperform, hw, hserves, hclear⟩ := upload_follows h ha
    rw [hperform, hw]
    exact ⟨rfl, hserves, hclear⟩
  | getstatus => exact getstatus_follows h ha
  | detach =>
    obtain ⟨t, hperform, hmem⟩ := detach_transfer (c := c) h.polling
    rw [hperform]
    exact ⟨rfl, hmem.trans h.store⟩

theorem perform_of_reset (c : Device) (t : State) (r : Request) :
    r.perform c (.fullSystemReset t) = (.noAnswer, .fullSystemReset t) := by
  cases r with
  | dnload cmd => exact Loop.write_of_reset rfl _
  | upload b n => exact Loop.read_of_reset rfl _ _
  | getstatus => exact Loop.read_of_reset rfl _ _
  | getstate => exact Loop.read_of_reset rfl _ _
  | _ => exact Loop.write_of_reset rfl []

end Request

/-! Other traffic. -/

/-- Not the SETUP packet of a DFU request; that is known from its first byte. -/
def Event.Foreign : Event → Prop
  | .setup d => ∀ a ∈ d.head?, a &&& 0x7F#8 ≠ 0x21#8
  | _ => True

instance : DecidablePred Event.Foreign
  | .setup d => inferInstanceAs (Decidable (∀ a ∈ d.head?, a &&& 0x7F#8 ≠ 0x21#8))
  | .out _ => isTrue trivial
  | .inComplete => isTrue trivial
  | .reset => isTrue trivial

section Foreign

variable {c : Device} {v : Server} {s : State} {e : Event}

theorem Event.Foreign.not_dfu {d : List Byte} (h : (Event.setup d).Foreign)
    (hlen : (setupBytes d).length = 8) : ¬(s.requestOf (.setup d)).isDfu := by
  have htake := hlen
  rw [setupBytes, List.length_take] at htake
  cases d with
  | nil => cases hlen
  | cons a d =>
    have hfirst : (s.requestOf (.setup (a :: d))).bmRequestType = a := by
      obtain ⟨n, hn⟩ : ∃ n, min ((a :: d).length % 1024) 8 = n + 1 :=
        Nat.exists_eq_succ_of_ne_zero (by omega)
      change (setupBytes (a :: d)).getD 0 s.usbReq.bmRequestType = a
      rw [setupBytes, hn]
      rfl
    rw [UsbSetupData.isDfu, hfirst]
    exact fun hdfu => h a rfl (of_decide_eq_true hdfu)

theorem Clear.step (h : Clear s) (he : e.Foreign) :
    (∀ r, ¬s.Takes r e) ∧ Clear (Swindle.step c s e) := by
  have hreq : (Swindle.step c s e).usbReq = s.requestOf e := step_usbReq c s e
  cases e with
  | setup d =>
    constructor
    · rintro r ⟨hd, hasks⟩
      exact he.not_dfu hd.1 hasks.1
    · intro hexp
      have hlen : (setupBytes d).length = 8 := by
        by_contra hlen
        rw [step_setup_eq, if_pos hlen] at hexp
        rcases hexp with hf | hf <;> cases hf
      rw [hreq]
      exact he.not_dfu hlen
  | out d =>
    constructor
    · rintro r ⟨hd, hasks⟩
      exact h (.inr hd.1) hasks.1
    · intro hexp
      rw [hreq]
      exact h (.inl (out_expecting c s d hexp).1)
  | inComplete => exact ⟨fun r hr => hr.1.elim, fun hexp => absurd hexp (in_not_expecting c s)⟩
  | reset =>
    refine ⟨fun r hr => hr.1.elim, fun hexp => ?_⟩
    rw [hreq]
    rw [step_reset] at hexp
    exact h hexp

theorem Serves.foreign (h : Serves c v s.dfu) (hclear : Clear s) (he : e.Foreign) :
    Serves c v (step c s e).dfu ∧ Clear (step c s e) := by
  obtain ⟨hno, hclear'⟩ := hclear.step (c := c) he
  refine ⟨?_, hclear'⟩
  rcases dfu_cases c s e with hq | ⟨r, hr, hd⟩ | ⟨-, hb⟩
  · rw [hq]
    exact h.of_newPoll rfl
  · have hreq : (step c s e).usbReq = s.requestOf e := step_usbReq c s e
    exact absurd ⟨hd, hreq ▸ hr.isDfu, hreq ▸ hr.code⟩ (hno r)
  · have hstate := h.state
    rw [hb] at hstate
    cases hp : v.phase <;> rw [hp] at hstate <;> cases hstate

theorem foreign_run (h : Serves c v s.dfu) (hclear : Clear s) {es : List Event}
    (he : ∀ e ∈ es, e.Foreign) :
    Follows c (run (Loop.poll c) (.polling s) es) (.serving v) := by
  induction es generalizing s with
  | nil => exact ⟨h, hclear⟩
  | cons e es ih =>
    obtain ⟨hhead, htail⟩ := List.forall_mem_cons.mp he
    obtain ⟨hserves, hclear'⟩ := h.foreign hclear hhead
    have hpoll : (Loop.polling s).poll c e = .polling (step c s e) :=
      Loop.poll_of_staying hserves.polling
    rw [run_cons, hpoll]
    exact ih hserves hclear' htail

end Foreign

/-! Sessions. -/

/-- One act of a session: a request, or packets that have nothing to do with DFU. -/
inductive Act
  | dfu (r : Request)
  | other (es : List Event)

namespace Act

/-- The device under an act, with the last reply. -/
def perform (c : Device) (p : Reply Byte × Loop) : Act → Reply Byte × Loop
  | dfu r => r.perform c p.2
  | other es => (.data [], run (Loop.poll c) p.2 es)

/-- The server under the same act. -/
def serve (c : Device) (p : Reply Byte × Service) : Act → Reply Byte × Service
  | dfu r =>
    match p.2 with
    | .serving v => v.serve c r
    | .gone store => (.noAnswer, .gone store)
  | other _ => (.data [], p.2)

def Admitted (c : Device) (p : Reply Byte × Service) : Act → Prop
  | dfu r =>
    match p.2 with
    | .serving v => v.Admits c r
    | .gone _ => True
  | other es => ∀ e ∈ es, e.Foreign

instance (c : Device) (p : Reply Byte × Service) : DecidablePred (Admitted c p)
  | dfu r => by
    unfold Admitted
    cases p.2 <;> infer_instance
  | other es => inferInstanceAs (Decidable (∀ e ∈ es, e.Foreign))

end Act

theorem act_follows {c : Device} {p : Reply Byte × Loop} {q : Reply Byte × Service} {a : Act}
    (h : Follows c p.2 q.2) (ha : a.Admitted c q) :
    Follows c (a.perform c p).2 (a.serve c q).2 ∧ (a.perform c p).1 = (a.serve c q).1 := by
  obtain ⟨rp, l⟩ := p
  obtain ⟨rq, o⟩ := q
  cases l with
  | polling s =>
    cases o with
    | gone store => exact h.elim
    | serving v =>
      cases a with
      | dfu r => exact (perform_follows h.1 ha).symm
      | other es => exact ⟨foreign_run h.1 h.2 ha, rfl⟩
  | fullSystemReset t =>
    cases o with
    | serving v => exact h.elim
    | gone store =>
      cases a with
      | dfu r =>
        have hperform : (Act.dfu r).perform c (rp, .fullSystemReset t) = _ := perform_of_reset c t r
        rw [hperform]
        exact ⟨h, rfl⟩
      | other es =>
        have hrun : run (Loop.poll c) (.fullSystemReset t) es = .fullSystemReset t :=
          Loop.run_poll_reset c t es
        refine ⟨?_, rfl⟩
        change Follows c (run (Loop.poll c) (.fullSystemReset t) es) (.gone store)
        rw [hrun]
        exact h

/-- The server that a device without a waiting download is. -/
def State.server (s : State) (p : Phase) : Server :=
  { phase := p
    pointer := s.dfu.prog.addr
    store := s.dfu.flash.mem
    fresh := s.dfu.flash.erased }

theorem State.serves_server {c : Device} {s : State} (hs : Reachable c s) {p : Phase}
    (hstate : s.dfu.usbdfuState = p.state) (hp : ∀ cmd, p ≠ .sync cmd) :
    Serves c (s.server p) s.dfu :=
  ⟨hstate, fun cmd hcmd => absurd hcmd (hp cmd), rfl, rfl, fun _ => rfl, hs.locked⟩

theorem acts_follow {c : Device} {p : Reply Byte × Loop} {q : Reply Byte × Service} {as : List Act}
    (h : Follows c p.2 q.2) (ha : Along (Act.serve c) (Act.Admitted c) q as) :
    trace (Act.perform c) Prod.fst p as = trace (Act.serve c) Prod.fst q as ∧
      Follows c (run (Act.perform c) p as).2 (run (Act.serve c) q as).2 := by
  let R : Reply Byte × Loop → Reply Byte × Service → Prop := fun p q => Follows c p.2 q.2
  have hstart : R p q := h
  have hstep : ∀ p q (a : Act), R p q → a.Admitted c q →
      R (a.perform c p) (a.serve c q) ∧ (a.perform c p).1 = (a.serve c q).1 :=
    fun _ _ _ h ha => act_follows h ha
  exact trace_eq_of_refines hstep hstart ha

end Swindle
