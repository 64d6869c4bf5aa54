import Swindle.Download.Image
import Swindle.Session.Refine

/-! An update as a DfuSe host runs it, against the server: the image is in the flash when stage 2
resets, whatever else has been on the bus in between. -/
namespace Swindle
open Machine

/-- The DFU requests among the acts. -/
def requests (as : List Act) : List Request :=
  as.filterMap fun
    | .dfu r => some r
    | .other _ => none

theorem requests_dfu (rs : List Request) : requests (rs.map .dfu) = rs := by
  simp [requests, List.filterMap_map]

/-- Other traffic in between leaves the requests as they are. -/
theorem requests_interrupted (rs : List Request) (n : ℕ) (es : List Event) :
    requests ((rs.take n).map .dfu ++ .other es :: (rs.drop n).map .dfu) = rs := by
  have hother : requests (.other es :: (rs.drop n).map .dfu) = rs.drop n := requests_dfu _
  have htake := requests_dfu (rs.take n)
  rw [requests] at hother htake ⊢
  rw [List.filterMap_append, htake, hother, List.take_append_drop]

theorem other_mem_interrupted {rs : List Request} {n : ℕ} {es es' : List Event}
    (h : .other es' ∈ (rs.take n).map Act.dfu ++ .other es :: (rs.drop n).map .dfu) :
    es' = es := by
  rcases List.mem_append.mp h with h | h
  · obtain ⟨_, _, hr⟩ := List.mem_map.mp h
    cases hr
  · rcases List.mem_cons.mp h with h | h
    · exact Act.other.inj h
    · obtain ⟨_, _, hr⟩ := List.mem_map.mp h
      cases hr

/-- The replies to them. -/
def answers (as : List Act) (rs : List (Reply Byte)) : List (Reply Byte) :=
  (as.zip rs).filterMap fun
    | (.dfu _, r) => some r
    | (.other _, _) => none

/-- Block `i` of the image at `a`: the pointer is set, then the block is sent, and both are run by a
GET_STATUS. -/
def putRequests (a : Addr) (img : List Byte) (w : Addressing × ℕ) : List Request :=
  [.dnload (.setAddress (w.1.pointer a w.2)), .getstatus,
    .dnload (.write (w.1.blocknum w.2) (block dfuTransferSize img w.2)), .getstatus]

/-- All blocks, in the host's order, and the DNLOAD without data that ends DFU mode. -/
def update (a : Addr) (img : List Byte) (ws : List (Addressing × ℕ)) : List Request :=
  ws.flatMap (putRequests a img) ++ [.leave, .getstatus]

def putReplies (ws : List (Addressing × ℕ)) : List (Reply Byte) :=
  ws.flatMap fun _ => [.data [], .data (statusBytes .ok 100#32 .dfuDnbusy), .data [],
    .data (statusBytes .ok 100#32 .dfuDnbusy)]

def updateReplies (ws : List (Addressing × ℕ)) : List (Reply Byte) :=
  putReplies ws ++ [.data [], .noAnswer]

/-! Other traffic is nothing to the server. -/

section Requests

variable {c : Device} {p : Reply Byte × Service} {as : List Act}

def serveRequest (c : Device) (p : Reply Byte × Service) (r : Request) : Reply Byte × Service :=
  (Act.dfu r).serve c p

theorem serveRequest_fst (p : Reply Byte × Service) (rp : Reply Byte) (r : Request) :
    serveRequest c (rp, p.2) r = serveRequest c p r := rfl

theorem run_requests (c : Device) (as : List Act) (p q : Reply Byte × Service) (h : p.2 = q.2) :
    (run (Act.serve c) p as).2 = (run (serveRequest c) q (requests as)).2 ∧
      answers as (trace (Act.serve c) Prod.fst p as) =
        trace (serveRequest c) Prod.fst q (requests as) := by
  induction as generalizing p q with
  | nil => exact ⟨h, rfl⟩
  | cons a as ih =>
    cases a with
    | dfu r =>
      have hsame : (Act.dfu r).serve c p = serveRequest c q r := by
        rw [← serveRequest_fst q p.1, ← h]
        rfl
      obtain ⟨hrun, htrace⟩ := ih ((Act.dfu r).serve c p) (serveRequest c q r)
        (congrArg Prod.snd hsame)
      exact ⟨hrun, congrArg₂ List.cons (congrArg Prod.fst hsame) htrace⟩
    | other es => exact ih ((Act.other es).serve c p) q h

theorem along_requests (p q : Reply Byte × Service) (h : p.2 = q.2)
    (hreq : Along (serveRequest c) (fun p r => (Act.dfu r).Admitted c p) q (requests as))
    (hother : ∀ es, .other es ∈ as → ∀ e ∈ es, e.Foreign) :
    Along (Act.serve c) (Act.Admitted c) p as := by
  induction as generalizing p q with
  | nil => trivial
  | cons a as ih =>
    have htail : ∀ es, .other es ∈ as → ∀ e ∈ es, e.Foreign := fun es hes =>
      hother es (List.mem_cons_of_mem _ hes)
    cases a with
    | dfu r =>
      have hsame : (Act.dfu r).serve c p = serveRequest c q r := by
        rw [← serveRequest_fst q p.1, ← h]
        rfl
      have hhead : (Act.dfu r).Admitted c q := hreq.1
      refine ⟨?_, ih _ (serveRequest c q r) (congrArg Prod.snd hsame) hreq.2 htail⟩
      unfold Act.Admitted at hhead ⊢
      rwa [h]
    | other es =>
      exact ⟨hother es List.mem_cons_self, ih _ q h hreq htail⟩

end Requests

/-! The update against the server. -/

section Server

variable {c : Device} {v : Server} {img : List Byte} {a : Addr}

theorem prepare_prepare_store (h : c.enableSafewrite → v.fresh) :
    (v.prepare c).store = v.store := by
  unfold Server.prepare
  split
  · rename_i hs
    rw [h hs]
    rfl
  · rfl

def Server.pending (v : Server) (a : Addr) (img : List Byte) (w : Addressing × ℕ) : Server :=
  { v with
    pointer := w.1.pointer a w.2
    phase := .sync (.write (w.1.blocknum w.2) (block dfuTransferSize img w.2)) }

def Server.put (c : Device) (v : Server) (a : Addr) (img : List Byte) (w : Addressing × ℕ) :
    Server :=
  { (v.pending a img w).execute c
      (.write (w.1.blocknum w.2) (block dfuTransferSize img w.2)) with phase := .dnloadIdle }

theorem placed_inside (h : Placed c a img) {i : ℕ} (hi : i < blockCount dfuTransferSize img) :
    NoWrap (blockBase a i) (block dfuTransferSize img i).length ∧
      Inside c (blockBase a i) (block dfuTransferSize img i).length ∧
      (blockBase a i).toNat % c.getFlashPageSize = 0 ∧
      (block dfuTransferSize img i).length % 2 = 0 ∧
      0 < (block dfuTransferSize img i).length ∧
      (block dfuTransferSize img i).length ≤ dfuTransferSize := by
  obtain ⟨hlt, hbase, hlen, -⟩ := h.block hi
  have h4 : dfuTransferSize = 4096 := rfl
  have hend := endAddr_lt c
  have hfits := h.fits
  have hstart := h.start
  have heven := h.even
  have hal := h.aligned
  unfold NoWrap Inside
  refine ⟨by omega, ⟨by omega, by omega⟩, ?_, by omega, by omega, by omega⟩
  rw [hbase]
  rcases c.pageSize_cases with hp | hp <;> rw [hp] at hal ⊢ <;> omega

theorem put_store (h : Placed c a img) {w : Addressing × ℕ}
    (hw : w.2 < blockCount dfuTransferSize img) :
    (v.put c a img w).store =
        Nor.overwrite (BlockPages c a img w.2) (imageByte a img) (v.prepare c).store ∧
      (c.enableSafewrite → (v.put c a img w).fresh) := by
  obtain ⟨-, hin, -⟩ := placed_inside h hw
  obtain ⟨hadr, -⟩ := h.blockAddress hw w.1
  have hpointer : blockAddress ((v.pending a img w).prepare c).pointer (w.1.blocknum w.2) =
      blockBase a w.2 := by
    rw [prepare_pointer]
    exact hadr
  have hstore : ((v.pending a img w).prepare c).store = (v.prepare c).store := by
    unfold Server.prepare
    split <;> rfl
  rw [Server.put, Server.execute, hpointer, if_pos hin, hstore]
  refine ⟨?_, fun hs => prepare_fresh hs⟩
  exact Nor.overwrite_congr (fun _ => Iff.rfl) fun x hx => h.blockByte hw hx

theorem serve_put (h : Placed c a img) {w : Addressing × ℕ}
    (hw : w.2 < blockCount dfuTransferSize img) (rp : Reply Byte) :
    let busy : Reply Byte := .data (statusBytes .ok 100#32 .dfuDnbusy)
    Along (serveRequest c) (fun p r => (Act.dfu r).Admitted c p) (rp, .serving v)
        (putRequests a img w) ∧
      trace (serveRequest c) Prod.fst (rp, .serving v) (putRequests a img w) =
        [.data [], busy, .data [], busy] ∧
      run (serveRequest c) (rp, .serving v) (putRequests a img w) =
        (busy, .serving (v.put c a img w)) := by
  obtain ⟨hwrap, -, halign, heven, h0, h4⟩ := placed_inside h hw
  obtain ⟨hadr, hne⟩ := h.blockAddress hw w.1
  have hfit : (v.pending a img w).Fits c
      (.write (w.1.blocknum w.2) (block dfuTransferSize img w.2)) := by
    change NoWrap (blockAddress (w.1.pointer a w.2) _) _ ∧ (Inside c (blockAddress _ _) _ →
      (blockAddress (w.1.pointer a w.2) _).toNat % _ = 0 ∧ _)
    rw [hadr]
    exact ⟨hwrap, fun _ => ⟨halign, heven⟩⟩
  exact ⟨⟨trivial, trivial, ⟨hne, h0, h4⟩, hfit, trivial⟩, rfl, rfl⟩

theorem serve_puts (h : Placed c a img) {ws : List (Addressing × ℕ)}
    (hws : ∀ w ∈ ws, w.2 < blockCount dfuTransferSize img) (rp : Reply Byte) :
    ∃ rq u, Along (serveRequest c) (fun p r => (Act.dfu r).Admitted c p) (rp, .serving v)
        (ws.flatMap (putRequests a img)) ∧
      trace (serveRequest c) Prod.fst (rp, .serving v) (ws.flatMap (putRequests a img)) =
        putReplies ws ∧
      run (serveRequest c) (rp, .serving v) (ws.flatMap (putRequests a img)) = (rq, .serving u) ∧
      (u.prepare c).store = Nor.overwrite (fun x => ∃ w ∈ ws, BlockPages c a img w.2 x)
        (imageByte a img) (v.prepare c).store ∧
      (ws ≠ [] → (u.prepare c).store = u.store) := by
  rw [← Nor.foldl_overwrite (fun w : Addressing × ℕ => BlockPages c a img w.2)]
  induction ws generalizing v rp with
  | nil => exact ⟨rp, v, trivial, rfl, rfl, rfl, fun hne => absurd rfl hne⟩
  | cons w ws ih =>
    obtain ⟨hw, hrest⟩ := List.forall_mem_cons.mp hws
    obtain ⟨hadm, htrace, hrun⟩ := serve_put (v := v) h hw rp
    obtain ⟨hstore, hfresh⟩ := put_store (v := v) h hw
    obtain ⟨rq, u, hadm', htrace', hrun', hend, hlast⟩ := ih (v := v.put c a img w) hrest
      (.data (statusBytes .ok 100#32 .dfuDnbusy))
    have hprep := prepare_prepare_store hfresh
    refine ⟨rq, u, ?_, ?_, ?_, ?_, ?_⟩
    · rw [List.flatMap_cons, along_append, hrun]
      exact ⟨hadm, hadm'⟩
    · rw [List.flatMap_cons, trace_append, hrun, htrace, htrace', putReplies, putReplies,
        List.flatMap_cons]
    · rw [List.flatMap_cons, run_append, hrun, hrun']
    · rw [hend, hprep, hstore]
      rfl
    · intro _
      cases ws with
      | nil =>
        cases hrun'
        exact hprep
      | cons w' ws => exact hlast (List.cons_ne_nil w' ws)

theorem serve_image {s : State} (hs : Reachable c s) (p : Phase) (h : Placed c a img)
    (ws : Schedule img) (rp : Reply Byte) :
    ∃ rq u, Along (serveRequest c) (fun p r => (Act.dfu r).Admitted c p)
        (rp, .serving (s.server p)) (ws.writes.flatMap (putRequests a img)) ∧
      trace (serveRequest c) Prod.fst (rp, .serving (s.server p))
          (ws.writes.flatMap (putRequests a img)) = putReplies ws.writes ∧
      run (serveRequest c) (rp, .serving (s.server p)) (ws.writes.flatMap (putRequests a img)) =
        (rq, .serving u) ∧
      Holds c a img (wiped c s.dfu.flash) u.store := by
  let v := s.server p
  obtain ⟨rq, u, hadm, htrace, hrun, hstore, hlast⟩ := serve_puts (v := v) h ws.isBlock rp
  refine ⟨rq, u, hadm, htrace, hrun, ?_⟩
  have hne := ws.ne_nil h.nonempty
  -- the flash is the one that the blocks leave without other traffic
  obtain ⟨hplain, hkept⟩ := run_putBlocks c h hs.locked ws.isBlock
  have hwiped : (v.prepare c).store = wiped c s.dfu.flash := by
    unfold Server.prepare wiped
    cases c.enableSafewrite with
    | false => rfl
    | true =>
      change (if s.dfu.flash.erased then _ else _) = if _ then _ else _
      cases s.dfu.flash.erased <;> rfl
  have hmem : u.store = (run (step c) s (download a img ws.writes)).dfu.flash.mem := by
    rw [← hlast hne, hstore, ← hkept hne, hplain, hwiped]
  rw [hmem]
  exact stored_image hs h ws

end Server

/-- An update from any state without a waiting download, with any other traffic between its
requests: every block is taken and run, and the image is in the flash when stage 2 resets. -/
theorem update_stores {c : Device} {s : State} (hs : Reachable c s) (hclear : Clear s) {p : Phase}
    (hstate : s.dfu.usbdfuState = p.state) (hp : ∀ cmd, p ≠ .sync cmd) {a : Addr}
    {img : List Byte} (h : Placed c a img) (ws : Schedule img) {as : List Act}
    (has : requests as = update a img ws.writes)
    (hother : ∀ es, .other es ∈ as → ∀ e ∈ es, e.Foreign) :
    answers as (trace (Act.perform c) Prod.fst (.noAnswer, .polling s) as) =
        updateReplies ws.writes ∧
      ∃ t, (run (Act.perform c) (.noAnswer, .polling s) as).2 = .fullSystemReset t ∧
        Holds c a img (wiped c s.dfu.flash) t.dfu.flash.mem := by
  let v := s.server p
  let q : Reply Byte × Service := (.noAnswer, .serving v)
  have hserves : Serves c v s.dfu := State.serves_server hs hstate hp
  obtain ⟨rq, u, hadm, htrace, hrun, hholds⟩ := serve_image hs p h ws .noAnswer
  have hreqs : Along (serveRequest c) (fun p r => (Act.dfu r).Admitted c p) q (requests as) := by
    rw [has, update, along_append, hrun]
    exact ⟨hadm, trivial, trivial, trivial⟩
  obtain ⟨hserve, hanswers⟩ := run_requests c as q q rfl
  have hend : run (serveRequest c) q (requests as) = (.noAnswer, .gone u.store) := by
    rw [has, update, run_append, hrun]
    rfl
  have hreplies : trace (serveRequest c) Prod.fst q (requests as) = updateReplies ws.writes := by
    rw [has, update, trace_append, htrace, hrun]
    rfl
  obtain ⟨hsame, hfollows⟩ := acts_follow (p := (.noAnswer, .polling s)) (q := q)
    ⟨hserves, hclear⟩ (along_requests q q rfl hreqs hother)
  refine ⟨by rw [hsame, hanswers, hreplies], ?_⟩
  rw [hserve, hend] at hfollows
  obtain ⟨t, hl, hgone⟩ := hfollows.reset_of_gone
  refine ⟨t, hl, ?_⟩
  rwa [hgone]

end Swindle
