import Swindle.Host
import Swindle.Usb.Address
import Swindle.Usb.Read
import Swindle.Usb.Twin

/-! What earlier control transfers leave behind, and whether a host can tell: two states that
differ in nothing else, under the same SETUP packet and the same events after it. -/
namespace Swindle
open Machine

/-- The DFU layer with its flash, the buffer and the endpoint stalls are the same, and so are the
registers behind those of the endpoints: the address, and with it USB_CNTR and USB_BTABLE. What
ISTR holds between two polls is overwritten. -/
structure Agree (s t : State) : Prop where
  dfu : t.dfu.newPoll = s.dfu.newPoll
  usbdControlBuffer : t.usbdControlBuffer = s.usbdControlBuffer
  stall : ∀ addr, Usb.stallReg addr < 8 → t.usb.epStallGet addr = s.usb.epStallGet addr
  beyond : ∀ i, 8 ≤ i → i ≠ usbIstrReg → t.usb.reg i = s.usb.reg i

/-- The condition on the SETUP packet: where its request leaves `datasize` as it was, wLength cuts
both to one length. -/
def AnsweredAlike (s t : State) (d : List Byte) : Prop :=
  s.Dispatches (.setup d) → (s.requestOf (.setup d)).keepsDatasize →
    min t.datasize.toNat (s.requestOf (.setup d)).wLength.toNat =
      min s.datasize.toNat (s.requestOf (.setup d)).wLength.toNat

instance (s t : State) (d : List Byte) : Decidable (AnsweredAlike s t d) := by
  unfold AnsweredAlike
  infer_instance

/-- Two copies of stage 2 within a poll: they have done the same, and hold the same data. -/
structure Twinned (s t : State) : Prop where
  usb : s.usb.Twin t.usb
  usbCompleteCb : t.usbCompleteCb = s.usbCompleteCb
  usbdControlBuffer : t.usbdControlBuffer = s.usbdControlBuffer
  dfu : t.dfu = s.dfu
  out : t.out = s.out

/-- Two copies after a poll: they also stand at the same place of the same transfer. -/
structure Linked (s t : State) : Prop extends Twinned s t where
  usbFsmState : t.usbFsmState = s.usbFsmState
  usbReq : s.usbFsmState ≠ .idle → t.usbReq = s.usbReq
  datasize : s.usbFsmState = .dataIn ∨ s.Expecting → t.datasize = s.datasize
  rest : s.usbFsmState = .dataIn →
    t.dataoff = s.dataoff ∧ t.usbNeedsZlp = s.usbNeedsZlp

section Twinned

variable {c : Device} {s t : State}

theorem Twinned.agree (h : Twinned s t) : Agree s t where
  dfu := by rw [h.dfu]
  usbdControlBuffer := h.usbdControlBuffer
  stall := fun _ h8 => h.usb.stallGet (Nat.ne_of_lt (Nat.lt_trans h8 (by decide)))
  beyond := h.usb.beyond

theorem Twinned.restaged (h : Twinned s t) {f f' : UsbFsmState} {n n' off off' : BitVec 16}
    {z z' : Bool} {req req' : UsbSetupData} :
    Twinned
      { s with usbFsmState := f, datasize := n, dataoff := off, usbNeedsZlp := z, usbReq := req }
      { t with usbFsmState := f', datasize := n', dataoff := off', usbNeedsZlp := z',
               usbReq := req' } :=
  ⟨h.usb, h.usbCompleteCb, h.usbdControlBuffer, h.dfu, h.out⟩

theorem Twinned.mapUsb (h : Twinned s t) {f : Usb → Usb} (hf : (f s.usb).Twin (f t.usb)) :
    Twinned (s.mapUsb f) (t.mapUsb f) :=
  ⟨hf, h.usbCompleteCb, h.usbdControlBuffer, h.dfu, h.out⟩

theorem Linked.mapUsb (h : Linked s t) {f : Usb → Usb} (hf : (f s.usb).Twin (f t.usb)) :
    Linked (s.mapUsb f) (t.mapUsb f) :=
  ⟨h.toTwinned.mapUsb hf, h.usbFsmState, h.usbReq, h.datasize, h.rest⟩

theorem Linked.acknowledge (h : Linked s t) (istr : BitVec 16) :
    Linked (s.mapUsb (State.acknowledge istr)) (t.mapUsb (State.acknowledge istr)) :=
  h.mapUsb (h.usb.acknowledge istr)

/-- Between transfers nothing else matters. -/
theorem Twinned.linked_of_idle (h : Twinned s t) (hs : s.usbFsmState = .idle)
    (ht : t.usbFsmState = .idle) : Linked s t := by
  refine ⟨h, ht.trans hs.symm, fun hf => absurd hs hf, ?_, ?_⟩
  · rintro (hf | hf | hf) <;> rw [hs] at hf <;> cases hf
  · intro hf
    rw [hs] at hf
    cases hf

/-- In a status stage, or before one, only the request matters. -/
theorem Twinned.linked_of_status (h : Twinned s t) (hfsm : t.usbFsmState = s.usbFsmState)
    (hs : s.usbFsmState = .statusIn ∨ s.usbFsmState = .statusOut ∨ s.usbFsmState = .lastDataIn)
    (hreq : t.usbReq = s.usbReq) : Linked s t := by
  refine ⟨h, hfsm, fun _ => hreq, ?_, ?_⟩
  · rintro (hf | hf | hf) <;> rw [hf] at hs <;> simp at hs
  · intro hf
    rw [hf] at hs
    simp at hs

theorem Twinned.stall (h : Twinned s t) : Linked s.stallTransaction t.stallTransaction := by
  have hboth : Twinned s.stallTransaction t.stallTransaction :=
    ⟨h.usb.epStallSet 0#8 true, h.usbCompleteCb, h.usbdControlBuffer, h.dfu,
      congrArg (UsbAct.stall :: ·) h.out⟩
  exact hboth.linked_of_idle rfl rfl

theorem Twinned.writeEmpty (h : Twinned s t) :
    Twinned (s.usbdEpWritePacket 0#8 []) (t.usbdEpWritePacket 0#8 []) := by
  refine ⟨h.usb.writePacket _, h.usbCompleteCb, h.usbdControlBuffer, h.dfu, ?_⟩
  change (if t.usb.txBusy 0#8 then t.out else .tx [] :: t.out) =
    if s.usb.txBusy 0#8 then s.out else .tx [] :: s.out
  rw [h.usb.txBusy, h.out]

theorem Twinned.writeChunk (h : Twinned s t) (ho : t.dataoff = s.dataoff) (len : BitVec 16) :
    Twinned (s.writeChunk len) (t.writeChunk len) := by
  rw [State.writeChunk_eq s, State.writeChunk_eq t]
  refine ⟨h.usb.writePacket len, h.usbCompleteCb, h.usbdControlBuffer, h.dfu, ?_⟩
  dsimp only
  rw [State.writeChunk_out, State.writeChunk_out, h.usb.txBusy, h.usbdControlBuffer, ho, h.out]

theorem Twinned.sendChunk (h : Twinned s t) (hreq : t.usbReq = s.usbReq)
    (hd : t.datasize = s.datasize) (ho : t.dataoff = s.dataoff)
    (hz : t.usbNeedsZlp = s.usbNeedsZlp) : Linked s.usbControlSendChunk t.usbControlSendChunk := by
  by_cases hlt : BitVec.ofNat 16 bMaxPacketSize0 < s.datasize
  · have hw := h.writeChunk ho (BitVec.ofNat 16 bMaxPacketSize0)
    rw [State.sendChunk_of_lt hlt, State.sendChunk_of_lt (by rwa [hd])]
    refine ⟨hw.restaged, rfl, fun _ => hreq, fun _ => ?_, fun _ => ⟨?_, hz⟩⟩
    · dsimp only
      rw [hd]
    · dsimp only
      rw [ho]
  · have hw := h.writeChunk ho s.datasize
    rw [State.sendChunk_of_not_lt hlt, State.sendChunk_of_not_lt (by rwa [hd]), hd]
    refine ⟨hw.restaged, ?_, fun _ => hreq, fun _ => rfl, fun _ => ⟨ho, rfl⟩⟩
    dsimp only
    rw [hz]

theorem Twinned.effect (h : Twinned s t) {req : UsbSetupData}
    {f : State → UsbdRequestReturnCodes × State} {x : Effect} (hx : x.Decides req f)
    (hstatus : req.haltStatus → t.usb.epStallGet req.endpoint = s.usb.epStallGet req.endpoint) :
    Twinned (x.apply s) (x.apply t) := by
  have hwrites : x.writes t.usb = x.writes s.usb := hx.status t.usb s.usb hstatus
  have husb : (x.usb s.usb).Twin (x.usb t.usb) := by
    rcases hx.regs with hu | hu | ⟨set, -, hu⟩
    · rw [hu]
      exact h.usb
    · rw [hu]
      exact h.usb.configure
    · rw [hu]
      exact h.usb.epStallSet _ set
  refine ⟨husb, h.usbCompleteCb, ?_, h.dfu, h.out⟩
  unfold Effect.apply
  rw [hwrites, h.usbdControlBuffer]

/-- The response length after a request: the same, or left alone in both. -/
def SameLength (req : UsbSetupData) (s t : State) (p q : UsbdRequestReturnCodes × State) : Prop :=
  p.1 = .notsupp ∨ q.2.datasize = p.2.datasize ∨
    p.2.datasize = s.datasize ∧ q.2.datasize = t.datasize ∧
      (req.keepsDatasize ∨ req.bmRequestType = 0#8)

theorem Twinned.dispatch (h : Twinned s t) (hreq : t.usbReq = s.usbReq)
    (hstatus : s.usbReq.haltStatus →
      t.usb.epStallGet s.usbReq.endpoint = s.usb.epStallGet s.usbReq.endpoint) :
    (t.usbControlRequestDispatch c).1 = (s.usbControlRequestDispatch c).1 ∧
      Twinned (s.usbControlRequestDispatch c).2 (t.usbControlRequestDispatch c).2 ∧
      SameLength s.usbReq s t (s.usbControlRequestDispatch c)
        (t.usbControlRequestDispatch c) := by
  by_cases hdfu : s.usbReq.isDfu
  · have hdfu' : t.usbReq.isDfu := by rwa [hreq]
    have hio : t.dfuIo = s.dfuIo := by
      rw [State.dfuIo, hreq, h.usbCompleteCb, h.usbdControlBuffer, h.dfu]
      rfl
    rw [State.dispatch_of_dfu c hdfu, State.dispatch_of_dfu c hdfu', hreq, hio]
    exact ⟨rfl, ⟨h.usb, rfl, rfl, rfl, h.out⟩, .inr (.inl rfl)⟩
  · have hdfu' : ¬t.usbReq.isDfu := by rwa [hreq]
    obtain ⟨x, hx⟩ := decides_standard c s.usbReq
    rw [State.dispatch_of_not_dfu c hdfu, State.dispatch_of_not_dfu c hdfu', hx.eq s rfl,
      hx.eq t hreq]
    refine ⟨rfl, h.effect hx hstatus, ?_⟩
    cases hn : x.datasize with
    | some n =>
      refine .inr (.inl ?_)
      simp [Effect.apply, hn]
    | none =>
      rcases hx.kept hn with hcode | hkeep
      · exact .inl hcode
      · refine .inr (.inr ⟨?_, ?_, hkeep⟩)
        · simp [Effect.apply, hn]
        · simp [Effect.apply, hn]

/-- A control read: where the request leaves the length alone, wLength makes the two agree. -/
theorem Twinned.setupRead (h : Twinned s t) (hreq : t.usbReq = s.usbReq)
    (hstatus : s.usbReq.haltStatus →
      t.usb.epStallGet s.usbReq.endpoint = s.usb.epStallGet s.usbReq.endpoint)
    (hkeep : s.usbReq.keepsDatasize → min t.datasize.toNat s.usbReq.wLength.toNat =
      min s.datasize.toNat s.usbReq.wLength.toNat)
    (hread : s.usbReq.wLength = 0#16 ∨ s.usbReq.bmRequestType &&& 0x80#8 ≠ 0#8) :
    Linked (s.usbControlSetupRead c) (t.usbControlSetupRead c) := by
  have hz : Twinned { s with dataoff := 0#16 } { t with dataoff := 0#16 } :=
    h.restaged
  obtain ⟨hcode, hq, hlen⟩ := hz.dispatch (c := c) hreq hstatus
  have hcode' : (t.readDispatch c).1 = (s.readDispatch c).1 := hcode
  have hq' : Twinned (s.readDispatch c).2 (t.readDispatch c).2 := hq
  have hqreq : (t.readDispatch c).2.usbReq = (s.readDispatch c).2.usbReq := by
    have hs : (s.readDispatch c).2.usbReq = s.usbReq := State.dispatch_usbReq c _
    have ht : (t.readDispatch c).2.usbReq = t.usbReq := State.dispatch_usbReq c _
    rw [hs, ht, hreq]
  rw [State.setupRead_eq, State.setupRead_eq, hcode', hreq]
  by_cases hn : (s.readDispatch c).1 = .notsupp
  · rw [if_pos hn, if_pos hn]
    exact hq'.stall
  rw [if_neg hn, if_neg hn]
  by_cases hw : s.usbReq.wLength = 0#16
  · rw [if_neg (not_not.mpr hw), if_neg (not_not.mpr hw)]
    exact Twinned.linked_of_status hq'.writeEmpty.restaged rfl (.inl rfl) hqreq
  · rw [if_pos hw, if_pos hw]
    have hdir : s.usbReq.bmRequestType ≠ 0#8 := fun h0 =>
      hread.resolve_left hw (by rw [h0]; decide)
    have hoff : (t.readDispatch c).2.dataoff = (s.readDispatch c).2.dataoff :=
      (State.dispatch_out c { t with dataoff := 0#16 }).2.trans
        (State.dispatch_out c { s with dataoff := 0#16 }).2.symm
    have hsize : (State.readyToSend (t.readDispatch c).2 s.usbReq.wLength).datasize =
        (State.readyToSend (s.readDispatch c).2 s.usbReq.wLength).datasize := by
      apply BitVec.eq_of_toNat_eq
      refine (State.cut_toNat _ _).trans (Eq.trans ?_ (State.cut_toNat _ _).symm)
      rcases hlen with hl | hl | ⟨hs, ht, hk | h0⟩
      · exact absurd hl hn
      · rw [show (t.readDispatch c).2.datasize = (s.readDispatch c).2.datasize from hl]
      · rw [show (t.readDispatch c).2.datasize = t.datasize from ht,
          show (s.readDispatch c).2.datasize = s.datasize from hs]
        exact hkeep hk
      · exact absurd h0 hdir
    have hready : Twinned (State.readyToSend (s.readDispatch c).2 s.usbReq.wLength)
        (State.readyToSend (t.readDispatch c).2 s.usbReq.wLength) := hq'.restaged
    exact hready.sendChunk hqreq hsize hoff
      (congrArg (State.needsZlp · s.usbReq.wLength bMaxPacketSize0) hsize)

theorem Twinned.complete (h : Twinned s t) :
    Twinned (State.complete c s) (State.complete c t) := by
  unfold State.complete
  rw [h.usbCompleteCb]
  split
  · exact h
  · refine ⟨h.usb, rfl, h.usbdControlBuffer, ?_, h.out⟩
    dsimp only
    rw [h.dfu]

theorem Twinned.latchAddress (h : Twinned s t) (hreq : t.usbReq = s.usbReq) :
    Twinned s.latchAddress t.latchAddress := by
  unfold State.latchAddress
  rw [hreq]
  split
  · refine ⟨h.usb.setDaddr _, h.usbCompleteCb, h.usbdControlBuffer, h.dfu, ?_⟩
    dsimp only
    rw [h.out]
  · exact h

end Twinned

section Steps

variable {c : Device} {s t : State}

theorem Agree.sameOuter (h : Agree s t) : s.usb.SameOuter t.usb :=
  ⟨fun addr _ h8 => h.stall addr h8, h.beyond⟩

theorem handed_istr {e : Event} (hd : s.Dispatches e) :
    (s.handed e).usb.reg usbIstrReg = usbIstrCtr ||| usbIstrDir := by
  have h0 : usbIstrReg ≠ 0 := by decide
  cases e with
  | setup d => exact (Usb.readPacket_reg _ h0 _).trans (Usb.nakSet_reg _ h0 _)
  | out d => exact Usb.readPacket_reg _ h0 _
  | inComplete => exact hd.elim
  | reset => exact hd.elim

theorem handed_stallGet {e : Event} (h : (s.handed e).usb.Twin (t.handed e).usb)
    (hs : s.Dispatches e) (ht : t.Dispatches e) (addr : Byte) :
    (t.handed e).usb.epStallGet addr = (s.handed e).usb.epStallGet addr := by
  by_cases hi : Usb.stallReg addr = usbIstrReg
  · apply Usb.epStallGet_congr
    rw [hi, handed_istr hs, handed_istr ht]
  · exact h.stallGet hi

theorem Agree.tookSetup (h : Agree s t) (d : List Byte) :
    Twinned (s.tookSetup d (s.usb.readSetup d)) (t.tookSetup d (t.usb.readSetup d)) :=
  ⟨h.sameOuter.readSetup d, rfl, h.usbdControlBuffer, h.dfu, rfl⟩

theorem Agree.step_setup (h : Agree s t) {d : List Byte} (hc : AnsweredAlike s t d) :
    Linked (step c s (.setup d)) (step c t (.setup d)) := by
  have htook := h.tookSetup d
  rw [step_setup_eq, step_setup_eq]
  by_cases hlen : (setupBytes d).length = 8
  swap
  · rw [if_pos hlen, if_pos hlen]
    exact htook.stall.acknowledge _
  have hreq : t.usbReq.patch (setupBytes d) = s.usbReq.patch (setupBytes d) :=
    (patch_whole hlen _).trans (patch_whole hlen _).symm
  rw [if_neg (not_not.mpr hlen), if_neg (not_not.mpr hlen), hreq]
  apply Linked.acknowledge
  split
  · rename_i hread
    have hd : s.Dispatches (.setup d) := ⟨hlen, hread⟩
    have hread' := hread
    rw [← hreq] at hread'
    have hd' : t.Dispatches (.setup d) := ⟨hlen, hread'⟩
    have hz : (s.handed (.setup d)).usb.Twin (t.handed (.setup d)).usb := htook.usb
    have hstatus := handed_stallGet hz hd hd'
    exact htook.setupRead hreq (fun _ => hstatus _) (hc hd) hread
  · have hw : (t.tookSetup d (t.usb.readSetup d)).usbReq.wLength =
        (s.tookSetup d (s.usb.readSetup d)).usbReq.wLength := congrArg _ hreq
    unfold State.usbControlSetupWrite
    rw [hw]
    split
    · exact htook.stall
    · refine ⟨⟨htook.usb.nakSet false, htook.usbCompleteCb, htook.usbdControlBuffer, htook.dfu,
        htook.out⟩, rfl, fun _ => hreq, fun _ => rfl, fun hf => ?_⟩
      dsimp only at hf
      split at hf <;> cases hf

theorem Linked.raise_out (h : Linked s t) (d : List Byte) :
    Twinned (s.raise (.out d)) (t.raise (.out d)) :=
  ⟨h.usb.raise_out d, h.usbCompleteCb, h.usbdControlBuffer, congrArg Dfu.newPoll h.dfu, rfl⟩

theorem Linked.tookData (h : Linked s t) (hd : t.datasize = s.datasize)
    (hp : t.packetsize = s.packetsize) (d : List Byte) (len : BitVec 16) :
    Twinned (s.tookData d (s.usb.readData d len)) (t.tookData d (t.usb.readData d len)) := by
  refine ⟨h.usb.readData d len, h.usbCompleteCb, ?_, congrArg Dfu.newPoll h.dfu, rfl⟩
  change blit _ _ _ = blit _ _ _
  rw [State.dataBytes, State.dataBytes, hp, hd, h.usbdControlBuffer]

theorem Linked.step_data (h : Linked s t) (hexp : s.Expecting) (d : List Byte) :
    Linked (step c s (.out d)) (step c t (.out d)) := by
  have hbusy : s.usbFsmState ≠ .idle := by rcases hexp with hf | hf <;> rw [hf] <;> decide
  have hexp' : t.Expecting := by
    unfold State.Expecting
    rw [h.usbFsmState]
    exact hexp
  have hreq := h.usbReq hbusy
  have hd := h.datasize (.inr hexp)
  have hp : t.packetsize = s.packetsize := by rw [State.packetsize, hreq, hd]; rfl
  have htook := h.tookData hd hp d s.packetsize
  by_cases hfit : s.packetsize.toNat ≤ d.length % 1024
  swap
  · rw [step_out_short c s d hexp hfit, step_out_short c t d hexp' (by rwa [hp]), hp]
    exact htook.stall.acknowledge _
  rcases hexp with hf | hf
  · rw [step_out_dataOut_eq c s d hf, step_out_dataOut_eq c t d (h.usbFsmState.trans hf), hp, hreq,
      hd, if_pos hfit, if_pos hfit]
    apply Linked.acknowledge
    refine ⟨htook.restaged, rfl, fun _ => hreq, fun _ => rfl, fun hf' => ?_⟩
    dsimp only at hf'
    split at hf' <;> cases hf'
  · have hs : s.Dispatches (.out d) := ⟨hf, hfit⟩
    have ht : t.Dispatches (.out d) := ⟨h.usbFsmState.trans hf, by rwa [hp]⟩
    have hhand : Twinned (s.handed (.out d)) (t.handed (.out d)) := by
      have hdef : ∀ r : State, r.handed (.out d) =
          { r.tookData d (r.usb.readData d r.packetsize) with
            datasize := r.datasize + r.packetsize } := fun _ => rfl
      rw [hdef, hdef, hp]
      exact htook.restaged
    have hstatus := handed_stallGet hhand.usb hs ht
    obtain ⟨hcode, hq, -⟩ := hhand.dispatch (c := c) hreq fun _ => hstatus _
    have hqreq : ((t.handed (.out d)).usbControlRequestDispatch c).2.usbReq =
        ((s.handed (.out d)).usbControlRequestDispatch c).2.usbReq := by
      rw [State.dispatch_usbReq, State.dispatch_usbReq]
      exact hreq
    rw [State.step_out_handed c hs, State.step_out_handed c ht]
    by_cases hn : ((s.handed (.out d)).usbControlRequestDispatch c).1 = .notsupp
    · rw [State.handOver_of_refused c hn, State.handOver_of_refused c (hcode.trans hn)]
      exact hq.stall.acknowledge _
    · rw [State.handOver_of_taken c hn, State.handOver_of_taken c (by rwa [hcode])]
      apply Linked.acknowledge
      exact Twinned.linked_of_status hq.writeEmpty.restaged rfl (.inl rfl) hqreq

theorem Linked.step_out (h : Linked s t) (d : List Byte) :
    Linked (step c s (.out d)) (step c t (.out d)) := by
  by_cases hexp : s.Expecting
  · exact h.step_data hexp d
  by_cases hf : s.usbFsmState = .statusOut
  · rw [step_out_statusOut_eq c s d hf, step_out_statusOut_eq c t d (h.usbFsmState.trans hf)]
    have hraise := h.raise_out d
    have hread : Twinned
        { s.raise (.out d) with usb := s.usb.readData d 0#16, usbFsmState := .idle }
        { t.raise (.out d) with usb := t.usb.readData d 0#16, usbFsmState := .idle } :=
      ⟨h.usb.readData d 0#16, hraise.usbCompleteCb, hraise.usbdControlBuffer, hraise.dfu,
        hraise.out⟩
    have hdone := hread.complete (c := c)
    apply Linked.acknowledge
    exact Twinned.linked_of_idle
      ⟨hdone.usb, rfl, hdone.usbdControlBuffer, hdone.dfu, hdone.out⟩
      (State.complete_fields c _).2.2.1 (State.complete_fields c _).2.2.1
  · have hother : s.usbFsmState ≠ .dataOut ∧ s.usbFsmState ≠ .lastDataOut ∧
        s.usbFsmState ≠ .statusOut := ⟨fun h => hexp (.inl h), fun h => hexp (.inr h), hf⟩
    rw [step_out_other c s d hother, step_out_other c t d (by rwa [h.usbFsmState])]
    exact (h.raise_out d).stall.acknowledge _

theorem Linked.step_in (h : Linked s t) :
    Linked (step c s .inComplete) (step c t .inComplete) := by
  rw [step_inComplete, step_inComplete]
  apply Linked.acknowledge
  have hin : Twinned ((s.raise .inComplete).mapUsb (Usb.clrEpTxCtr 0))
      ((t.raise .inComplete).mapUsb (Usb.clrEpTxCtr 0)) :=
    ⟨h.usb.raise_in, h.usbCompleteCb, h.usbdControlBuffer, congrArg Dfu.newPoll h.dfu, rfl⟩
  have hfsm : ∀ r : State, ((r.raise .inComplete).mapUsb (Usb.clrEpTxCtr 0)).usbFsmState =
      r.usbFsmState := fun _ => rfl
  unfold State.usbdControlIn
  rw [hfsm, hfsm, h.usbFsmState]
  cases hf : s.usbFsmState with
  | dataIn =>
    obtain ⟨ho, hz⟩ := h.rest hf
    exact hin.sendChunk (h.usbReq (by rw [hf]; decide)) (h.datasize (.inl hf)) ho hz
  | lastDataIn =>
    have hreq := h.usbReq (by rw [hf]; decide)
    exact Twinned.linked_of_status ⟨hin.usb.nakSet false, hin.usbCompleteCb,
      hin.usbdControlBuffer, hin.dfu, hin.out⟩ rfl (.inr (.inl rfl)) hreq
  | statusIn =>
    have hreq : t.usbReq = s.usbReq := h.usbReq (by rw [hf]; decide)
    have hdone := hin.complete (c := c)
    have hlatch := hdone.latchAddress (by
      rw [(State.complete_fields c _).2.1, (State.complete_fields c _).2.1]
      exact hreq)
    exact Twinned.linked_of_idle hlatch.restaged rfl rfl
  | _ => exact hin.stall

/-- Two linked copies do the same until the next SETUP. -/
theorem Linked.run (h : Linked s t) {es : List Event}
    (he : ∀ e ∈ es, e ≠ .reset ∧ ∀ d, e ≠ .setup d) :
    trace (step c) State.out t es = trace (step c) State.out s es ∧
      Linked (run (step c) s es) (run (step c) t es) := by
  induction es generalizing s t with
  | nil => exact ⟨rfl, h⟩
  | cons e es ih =>
    obtain ⟨hreset, hsetup⟩ := he e (by simp)
    have hnext : Linked (step c s e) (step c t e) := by
      cases e with
      | reset => exact absurd rfl hreset
      | setup d => exact absurd rfl (hsetup d)
      | out d => exact h.step_out d
      | inComplete => exact h.step_in
    obtain ⟨htrace, hend⟩ := ih hnext fun e h => he e (by simp [h])
    refine ⟨?_, hend⟩
    rw [trace, trace, hnext.out, htrace]

/-! Where the condition fails, a host that fetches the whole answer sees the difference. -/

theorem dispatch_keeps (c : Device) {q : State} (h : q.usbReq.keepsDatasize) :
    (q.usbControlRequestDispatch c).1 = .handled ∧
      (q.usbControlRequestDispatch c).2.datasize = q.datasize := by
  simp only [UsbSetupData.keepsDatasize, Bool.and_eq_true, Bool.or_eq_true,
    decide_eq_true_eq] at h
  obtain ⟨htype, hreq⟩ := h
  have hdfu : ¬q.usbReq.isDfu := fun hdfu => State.isDfu_not_standard hdfu htype
  rw [State.dispatch_of_not_dfu c hdfu, State.usbdStandardRequest, if_neg (not_not.mpr htype)]
  rcases hreq with ⟨⟨hrec, h9⟩, hv⟩ | ⟨⟨hrec, h13⟩, hv⟩
  · have hdev : q.usbdStandardRequestDevice c = (.handled, q.mapUsb Usb.configure) := by
      rw [State.usbdStandardRequestDevice, h9]
      exact if_pos hv
    rw [hrec]
    exact ⟨congrArg Prod.fst hdev, congrArg (·.2.datasize) hdev⟩
  · rw [hrec]
    have hend : ∃ set, q.usbdStandardRequestEndpoint = State.endpointFeature set q := by
      rcases h13 with h1 | h3
      · exact ⟨false, by rw [State.usbdStandardRequestEndpoint, h1]; rfl⟩
      · exact ⟨true, by rw [State.usbdStandardRequestEndpoint, h3]; rfl⟩
    obtain ⟨set, hend⟩ := hend
    have hfeature : State.endpointFeature set q = _ := if_pos hv
    rw [hfeature] at hend
    exact ⟨congrArg Prod.fst hend, congrArg (·.2.datasize) hend⟩

theorem trace_loaded {es : List Event}
    (h : trace (step c) State.out t es = trace (step c) State.out s es) :
    trace (step c) State.loaded t es = trace (step c) State.loaded s es := by
  induction es generalizing s t with
  | nil => rfl
  | cons e es ih =>
    obtain ⟨hout, hrest⟩ := List.cons.inj h
    rw [trace, trace, ih hrest, State.loaded, hout, State.loaded]

theorem kept_read (c : Device) (s : State) {d : List Byte} (hlen : (setupBytes d).length = 8)
    (hin : (s.requestOf (.setup d)).bmRequestType &&& 0x80#8 ≠ 0#8)
    (hw : (s.requestOf (.setup d)).wLength ≠ 0#16)
    (hkeep : (s.requestOf (.setup d)).keepsDatasize) :
    ∃ n, ∀ k, n ≤ k → (trace (step c) State.loaded s (readEvents d k)).flatten.flatten.length =
      min s.datasize.toNat (s.requestOf (.setup d)).wLength.toNat := by
  have hreq : (s.handed (.setup d)).usbReq.keepsDatasize := by
    rw [s.handed_usbReq]
    exact hkeep
  obtain ⟨hcode, hsize⟩ := dispatch_keeps c hreq
  have htaken : (s.answered c d).1 ≠ .notsupp := by
    rw [show (s.answered c d).1 = .handled from hcode]
    exact UsbdRequestReturnCodes.noConfusion
  have hsent := State.sent_setup hlen hin hw htaken
  let w := (s.requestOf (.setup d)).wLength.toNat
  let m := min (s.answered c d).2.datasize.toNat w
  have hm : m ≤ w := Nat.min_le_right _ _
  have hkept : m = min s.datasize.toNat w := congrArg (fun n => min n.toNat w) hsize
  obtain ⟨-, hrest⟩ := trace_read hm (BitVec.isLt _) hsent
  refine ⟨lastPacket 64 m w + 1, fun k hk => ?_⟩
  obtain ⟨j, rfl⟩ := Nat.exists_eq_add_of_le hk
  have hsplit : readEvents d (lastPacket 64 m w + 1 + j) =
      readEvents d (lastPacket 64 m w + 1) ++ List.replicate j .inComplete := by
    rw [readEvents, List.replicate_add, ← List.cons_append, ← readEvents]
  have hins : ∀ e ∈ List.replicate j Event.inComplete, ∀ d', e ≠ .setup d' := fun e he d' => by
    rw [List.eq_of_mem_replicate he]
    simp
  rw [hsplit, hrest _ hins, flatten_packets _ (by decide) hm, length_slice]
  exact hkept

theorem answeredAlike_of_trace (c : Device) {s t : State} {d : List Byte}
    (h : ∀ es : List Event, (∀ e ∈ es, e ≠ .reset ∧ ∀ d', e ≠ .setup d') →
      trace (step c) State.out t (.setup d :: es) =
        trace (step c) State.out s (.setup d :: es)) : AnsweredAlike s t d := by
  rintro ⟨hlen, hread⟩ hkeep
  by_cases hw : (s.requestOf (.setup d)).wLength = 0#16
  · rw [hw]
    exact (Nat.min_zero _).trans (Nat.min_zero _).symm
  have hin := hread.resolve_left hw
  have hreq : t.requestOf (.setup d) = s.requestOf (.setup d) :=
    (patch_whole hlen _).trans (patch_whole hlen _).symm
  obtain ⟨m, hs⟩ := kept_read c s hlen hin hw hkeep
  obtain ⟨n, ht⟩ := kept_read c t hlen (by rwa [hreq]) (by rwa [hreq]) (by rwa [hreq])
  have hsame := trace_loaded (h (List.replicate (m + n) .inComplete) fun e he => by
    rw [List.eq_of_mem_replicate he]
    simp)
  have hlength := congrArg (fun ps : List (List (List Byte)) => ps.flatten.flatten.length) hsame
  have hs' := hs (m + n) (Nat.le_add_right m n)
  have ht' := ht (m + n) (Nat.le_add_left n m)
  rw [hreq] at ht'
  exact ht'.symm.trans (hlength.trans hs')

end Steps

/-- Two states that agree, under one SETUP packet and any OUT and IN events after it, send the
same packets and stalls and agree again, exactly if the condition holds. -/
theorem setup_leaves_no_residue {c : Device} {s t : State} (h : Agree s t) {d : List Byte} :
    (∀ es : List Event, (∀ e ∈ es, e ≠ .reset ∧ ∀ d', e ≠ .setup d') →
      trace (step c) State.out t (.setup d :: es) = trace (step c) State.out s (.setup d :: es) ∧
        Agree (run (step c) s (.setup d :: es)) (run (step c) t (.setup d :: es))) ↔
      AnsweredAlike s t d := by
  constructor
  · intro hsame
    exact answeredAlike_of_trace c fun es he => (hsame es he).1
  · intro hc es he
    have hlinked : Linked (step c s (.setup d)) (step c t (.setup d)) := h.step_setup hc
    obtain ⟨htrace, hend⟩ := hlinked.run he
    refine ⟨?_, hend.agree⟩
    rw [trace, trace, hlinked.out, htrace]

section Abort

/-- A DFU_ABORT with the IN direction bit, 136 bytes of whose answer the host has not fetched. -/
def abortIn : List Byte := setupPacket 0xA1#8 6#8 0#16 0#16 200#16

theorem dfu_keeps_beyond (c : Device) {s : State} {d : List Byte} (hd : s.Dispatches (.setup d))
    (hdfu : (s.requestOf (.setup d)).isDfu) {i : ℕ} (hi : Outer i) :
    (step c s (.setup d)).usb.reg i = s.usb.reg i := by
  have hreq : (s.handed (.setup d)).usbReq.isDfu := by
    rw [s.handed_usbReq]
    exact hdfu
  have husb : (s.handling c (.setup d)).2.usb = (s.handed (.setup d)).usb := by
    rw [State.handling, State.dispatch_of_dfu c hreq]
    rfl
  rw [State.step_reg_of_dispatches c hd hi, husb, s.handed_reg hi.received]

theorem agree_after_abort :
    Agree (run (step Device.stm64k) (State.start (fun _ => 0xFF#8) fun _ => 0#8) [.reset])
      (run (step Device.stm64k) (State.start (fun _ => 0xFF#8) fun _ => 0#8)
        [.reset, .setup abortIn]) := by
  refine ⟨?_, ?_, by decide, fun i h8 hi => ?_⟩
  · calc _ = (State.start (fun _ => 0xFF#8) fun _ => 0#8).dfu := by with_unfolding_all rfl
      _ = _ := by with_unfolding_all rfl
  · calc _ = fun i => if i < dfuTransferSize then 0#8 else 0#8 := by with_unfolding_all rfl
      _ = _ := by with_unfolding_all rfl
  · by_cases hc : i = usbCntrReg
    · subst hc
      decide
    · have hd : (run (step Device.stm64k) (State.start (fun _ => 0xFF#8) fun _ => 0#8)
          [.reset]).Dispatches (.setup abortIn) := by decide
      rw [run_cons, run_cons, run_nil]
      exact dfu_keeps_beyond Device.stm64k hd (by decide) ⟨by omega, hc, hi⟩

/-- The device descriptor, after a bus reset and after that DFU_ABORT: the two differ, and answer
alike. -/
theorem setup_leaves_no_residue_descriptor :
    let c := Device.stm64k
    let s₀ := State.start (fun _ => 0xFF#8) fun _ => 0#8
    let s := run (step c) s₀ [.reset]
    let t := run (step c) s₀ [.reset, .setup abortIn]
    let d := setupPacket 0x80#8 6#8 0x0100#16 0#16 64#16
    t.datasize ≠ s.datasize ∧
      ∀ es : List Event, (∀ e ∈ es, e ≠ .reset ∧ ∀ d', e ≠ .setup d') →
        trace (step c) State.out t (.setup d :: es) =
            trace (step c) State.out s (.setup d :: es) ∧
          Agree (run (step c) s (.setup d :: es)) (run (step c) t (.setup d :: es)) := by
  intro c s₀ s t d
  have hno : ¬(s.requestOf (.setup d)).keepsDatasize := by decide
  have hc : AnsweredAlike s t d := fun _ hkeep => absurd hkeep hno
  refine ⟨by decide, ?_⟩
  exact (setup_leaves_no_residue agree_after_abort).mpr hc

/-- SET_CONFIGURATION with the IN direction bit and wLength 64: the second device sends 64 bytes
of its buffer, the first an empty packet. -/
theorem residue_sent :
    let c := Device.stm64k
    let s₀ := State.start (fun _ => 0xFF#8) fun _ => 0#8
    let s := run (step c) s₀ [.reset]
    let t := run (step c) s₀ [.reset, .setup abortIn]
    let d := setupPacket 0x80#8 9#8 1#16 0#16 64#16
    Agree s t ∧
      trace (step c) State.out s [.setup d] = [[.tx [], .chunk 0#16 0#16]] ∧
      trace (step c) State.out t [.setup d] =
        [[.tx (List.replicate 64 0#8), .chunk 0#16 64#16]] := by
  intro c s₀ s t d
  exact ⟨agree_after_abort, by decide, by decide⟩

end Abort

end Swindle
