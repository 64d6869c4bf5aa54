import Mathlib.Data.Bool.Basic
import Swindle.Usb.Interleave
import Swindle.Usb.Read

/-! Which transfer an IN completion belongs to, when polls and host transactions come in any
order. -/
namespace Swindle
open Machine

/-- The SETUP packets on the bus so far; which of them a poll has handled last; during which of
them the oldest completion was raised that waits in CTR_TX; and whether a packet has been loaded
since the last one fetched. -/
structure Traffic where
  sent : ℕ
  handled : ℕ
  inFrom : ℕ
  unfetched : Bool

namespace Bus

def handlesSetup (b : Bus) : Bool :=
  !b.resetPending && b.state.usb.flag usbEpRxCtr && b.state.usb.flag usbEpSetup

def handlesIn (b : Bus) : Bool :=
  !b.resetPending && !b.state.usb.flag usbEpRxCtr && b.state.usb.flag usbEpTxCtr

end Bus

def traffic (c : Device) (b : Bus) (a : Action) (t : Traffic) : Traffic :=
  match a with
  | .host (.setup _) => { t with sent := t.sent + 1 }
  | .host .inComplete =>
    if b.state.usb.accepts .inComplete then
      { t with
        inFrom := if b.state.usb.flag usbEpTxCtr then t.inFrom else t.sent
        unfetched := false }
    else t
  | .host _ => t
  | .poll =>
    { t with
      handled := if b.handlesSetup then t.sent else t.handled
      unfetched := t.unfetched || !(b.act c .poll).state.loaded.isEmpty }

/-- The condition: no SETUP packet arrives while a completion waits in CTR_TX. -/
def SetupClear (b : Bus) : Action → Prop
  | .host (.setup _) => b.state.usb.flag usbEpTxCtr = false
  | _ => True

instance (b : Bus) : DecidablePred (SetupClear b)
  | .host (.setup _) => inferInstanceAs (Decidable (_ = _))
  | .host .reset => isTrue trivial
  | .host (.out _) => isTrue trivial
  | .host .inComplete => isTrue trivial
  | .poll => isTrue trivial

/-- A poll takes an IN completion for one of its own transfer, hands over chunks that are
accepted, and waits for the status stage only when the last packet has been fetched. -/
structure InOrder (c : Device) (b : Bus) (t : Traffic) : Prop where
  belongs : b.handlesIn → t.handled ≤ t.inFrom
  sent : (b.act c .poll).state.ChunksSent
  status : (b.act c .poll).state.usbFsmState = .statusOut →
    b.state.usbFsmState ≠ .statusOut → t.unfetched = false

/-- Nothing is loaded while a completion, a data stage or a SETUP packet waits. -/
structure Ordered (b : Bus) (t : Traffic) : Prop where
  handled : t.handled ≤ t.sent
  completed : b.state.usb.flag usbEpTxCtr = true →
    b.state.usb.reg 0 &&& usbEpTxStat ≠ usbEpTxStatValid ∧ t.handled ≤ t.inFrom ∧
      t.unfetched = false
  expecting : b.state.Expecting →
    b.state.usb.reg 0 &&& usbEpTxStat ≠ usbEpTxStatValid ∧
      b.state.usb.flag usbEpTxCtr = false
  setup : b.state.usb.flag usbEpRxCtr = true → b.state.usb.flag usbEpSetup = true →
    b.state.usb.reg 0 &&& usbEpTxStat ≠ usbEpTxStatValid ∧
      b.state.usb.flag usbEpTxCtr = false

section Actions

variable {c : Device} {b : Bus} {t : Traffic}

/-! What the host does, one lemma for each kind of transaction. -/

theorem Ordered.host_reset (h : Ordered b t) : Ordered (b.act c (.host .reset)) t := by
  obtain ⟨hrx, htx, hs, hstat⟩ := b.state.usb.raise_reset_flags
  have hfree : (b.act c (.host .reset)).state.usb.reg 0 &&& usbEpTxStat ≠ usbEpTxStatValid := by
    change (b.state.usb.raise .reset).reg 0 &&& _ ≠ _
    rw [hstat]
    decide
  constructor
  · exact h.handled
  · intro hf
    exact ⟨hfree, (h.completed (htx.symm.trans hf)).2⟩
  · intro hexp
    exact ⟨hfree, htx.trans (h.expecting hexp).2⟩
  · intro _ hf
    cases hs.symm.trans hf

theorem Ordered.host_setup (h : Ordered b t) (hc : b.state.usb.flag usbEpTxCtr = false)
    (d : List Byte) :
    Ordered (b.act c (.host (.setup d))) { t with sent := t.sent + 1 } := by
  obtain ⟨-, htx⟩ := b.state.usb.raise_setup_flags d
  have hclear : (b.act c (.host (.setup d))).state.usb.flag usbEpTxCtr = false := htx.trans hc
  have hfree : (b.act c (.host (.setup d))).state.usb.reg 0 &&& usbEpTxStat ≠
      usbEpTxStatValid := by
    change (b.state.usb.raise (.setup d)).reg 0 &&& _ ≠ _
    rw [Usb.raise_setup_txStat]
    decide
  constructor
  · exact Nat.le_succ_of_le h.handled
  · intro hf
    cases hclear.symm.trans hf
  · exact fun _ => ⟨hfree, hclear⟩
  · exact fun _ _ => ⟨hfree, hclear⟩

theorem Ordered.host_out (h : Ordered b t) (d : List Byte) :
    Ordered (b.act c (.host (.out d))) t := by
  by_cases ha : b.state.usb.accepts (.out d)
  swap
  · rwa [b.act_ignored c ha]
  obtain ⟨-, htx, hs⟩ := b.state.usb.raise_out_flags d
  have hstat := b.state.usb.raise_out_txStat d
  rw [b.act_accepted c ha]
  constructor
  · exact h.handled
  · intro hf
    obtain ⟨hfree, hrest⟩ := h.completed (htx.symm.trans hf)
    rw [← hstat] at hfree
    exact ⟨hfree, hrest⟩
  · intro hexp
    obtain ⟨hfree, hclear⟩ := h.expecting hexp
    rw [← hstat] at hfree
    exact ⟨hfree, htx.trans hclear⟩
  · intro _ hf
    cases hs.symm.trans hf

theorem Ordered.host_in (h : Ordered b t) :
    Ordered (b.act c (.host .inComplete)) (traffic c b (.host .inComplete) t) := by
  by_cases ha : b.state.usb.accepts .inComplete
  swap
  · have htraffic : traffic c b (.host .inComplete) t = t := if_neg ha
    rwa [b.act_ignored c ha, htraffic]
  have hvalid : b.state.usb.reg 0 &&& usbEpTxStat = usbEpTxStatValid := of_decide_eq_true ha
  have hclear : b.state.usb.flag usbEpTxCtr = false := by
    by_contra hf
    exact (h.completed (Bool.eq_true_of_not_eq_false hf)).1 hvalid
  have htraffic : traffic c b (.host .inComplete) t =
      { t with inFrom := t.sent, unfetched := false } := by
    rw [traffic, if_pos ha, hclear]
    rfl
  obtain ⟨-, hrx, hs⟩ := b.state.usb.raise_in_flags
  have hstat := b.state.usb.raise_in_txStat
  rw [b.act_accepted c ha, htraffic]
  constructor
  · exact h.handled
  · intro _
    refine ⟨?_, h.handled, rfl⟩
    change (b.state.usb.raise .inComplete).reg 0 &&& _ ≠ _
    rw [hstat]
    decide
  · intro hexp
    exact absurd hvalid (h.expecting hexp).1
  · intro hr hf
    exact absurd hvalid (h.setup (hrx.symm.trans hr) (hs.symm.trans hf)).1

theorem Ordered.host (h : Ordered b t) {e : Event} (hc : SetupClear b (.host e)) :
    Ordered (b.act c (.host e)) (traffic c b (.host e) t) := by
  cases e with
  | reset => exact h.host_reset
  | setup d => exact h.host_setup hc d
  | out d => exact h.host_out d
  | inComplete => exact h.host_in

/-! What a poll does, one lemma for each handler. -/

theorem Ordered.congr {b' : Bus} (h : Ordered b t)
    (hreg : b'.state.usb.reg 0 = b.state.usb.reg 0)
    (hfsm : b'.state.usbFsmState = b.state.usbFsmState) : Ordered b' t := by
  have hflag := Usb.flag_congr hreg
  have hexp : b'.state.Expecting → b.state.Expecting := by
    unfold State.Expecting
    rw [hfsm]
    exact id
  constructor
  · exact h.handled
  · intro hf
    rw [hflag] at hf
    rw [hreg]
    exact h.completed hf
  · intro he
    rw [hreg, hflag]
    exact h.expecting (hexp he)
  · intro hr hs
    rw [hflag] at hr hs
    rw [hreg, hflag]
    exact h.setup hr hs

theorem Ordered.acknowledge {r : State} (h : Ordered ⟨r, false⟩ t) (istr : BitVec 16) :
    Ordered ⟨r.mapUsb (State.acknowledge istr), false⟩ t :=
  h.congr (r.usb.acknowledge_reg_zero istr) rfl

theorem ordered_reset (h : Ordered b t) (hr : b.resetPending = true) :
    InOrder c b t ∧ Ordered (b.act c .poll) (traffic c b .poll t) := by
  have hpoll := b.poll_reset c hr
  obtain ⟨hflags, hstat⟩ := State.busReset_zero b.polled
  rw [← hpoll] at hflags hstat
  have hkeep : ∀ m, b.polled.usb.flag m = b.state.usb.flag m := b.polled_flag
  have hfree : (b.act c .poll).state.usb.reg 0 &&& usbEpTxStat ≠ usbEpTxStatValid := by
    rw [hstat]
    decide
  have htx : b.state.usb.flag usbEpTxCtr = false →
      (b.act c .poll).state.usb.flag usbEpTxCtr = false :=
    fun hf => hflags.txCtr ((hkeep _).trans hf)
  have hout : (b.act c .poll).state.out = [.daddr usbDaddrEf] := by rw [hpoll]; rfl
  have hfsm : (b.act c .poll).state.usbFsmState = b.state.usbFsmState := by rw [hpoll]; rfl
  have hidle : b.handlesSetup = false ∧ b.handlesIn = false := by
    simp [Bus.handlesSetup, Bus.handlesIn, hr]
  have htraffic : traffic c b .poll t = t := by
    simp [traffic, hidle.1, State.loaded, hout]
  rw [htraffic]
  constructor
  · constructor
    · simp [hidle.2]
    · apply State.chunksSent_of_none
      simp [hout]
    · intro hs hn
      exact absurd (hfsm.symm.trans hs) hn
  · constructor
    · exact h.handled
    · intro hf
      have hf' : b.state.usb.flag usbEpTxCtr = true := (hkeep _).symm.trans (hflags.txCtr_up hf)
      exact ⟨hfree, (h.completed hf').2⟩
    · intro hexp
      have hexp' : b.state.Expecting := by
        unfold State.Expecting at hexp ⊢
        rwa [hfsm] at hexp
      exact ⟨hfree, htx (h.expecting hexp').2⟩
    · intro hrx hs
      have hrx' : b.state.usb.flag usbEpRxCtr = true := (hkeep _).symm.trans (hflags.rxCtr_up hrx)
      have hs' : b.state.usb.flag usbEpSetup = true := by rw [← hkeep, ← hflags.setup, hs]
      exact ⟨hfree, htx (h.setup hrx' hs').2⟩

theorem ordered_setup (h : Ordered b t) (hr : b.resetPending = false)
    (hrx : b.state.usb.flag usbEpRxCtr = true) (hs : b.state.usb.flag usbEpSetup = true) :
    InOrder c b t ∧ Ordered (b.act c .poll) (traffic c b .poll t) := by
  obtain ⟨hfree, hclear⟩ := h.setup hrx hs
  rw [← b.polled_reg_zero] at hfree
  have hpoll := b.poll_setup c hr hrx hs
  let r := b.polled.usbdControlSetup c
  have htx : r.usb.flag usbEpTxCtr = false :=
    (b.polled.controlSetup_noNewFlags c).txCtr ((b.polled_flag _).trans hclear)
  have hrxr : r.usb.flag usbEpRxCtr = false := b.polled.controlSetup_rxCtr c
  have hdone : ∀ u, Ordered ⟨r, false⟩ ⟨t.sent, t.sent, t.inFrom, u⟩ := by
    intro u
    constructor
    · exact Nat.le_refl _
    · intro hf
      cases htx.symm.trans hf
    · intro hexp
      have hkept := State.controlSetup_expecting c b.polled hexp
      refine ⟨?_, htx⟩
      change r.usb.reg 0 &&& _ ≠ _
      rwa [hkept]
    · intro hf
      cases hrxr.symm.trans hf
  constructor
  · constructor
    · simp [Bus.handlesIn, hrx]
    · rw [hpoll]
      exact State.controlSetup_sent hfree rfl
    · intro hf
      rw [hpoll] at hf
      exact absurd hf (State.controlSetup_fsm c b.polled)
  · have hact : b.act c .poll = ⟨r.mapUsb (State.acknowledge b.istr), false⟩ :=
      congrArg (Bus.mk · false) hpoll
    have hhandles : b.handlesSetup = true := by simp [Bus.handlesSetup, hr, hrx, hs]
    rw [traffic, hhandles, hact]
    exact (hdone _).acknowledge _

theorem ordered_out (h : Ordered b t) (hr : b.resetPending = false)
    (hrx : b.state.usb.flag usbEpRxCtr = true) (hs : b.state.usb.flag usbEpSetup = false) :
    InOrder c b t ∧ Ordered (b.act c .poll) (traffic c b .poll t) := by
  have hpoll := b.poll_out c hr hrx hs
  let r := b.polled.usbdControlOut c
  have hdone : State.OutDone b.polled r := State.controlOut_done (s := b.polled) c rfl
  have hact : b.act c .poll = ⟨r.mapUsb (State.acknowledge b.istr), false⟩ :=
    congrArg (Bus.mk · false) hpoll
  have hout : (b.act c .poll).state.out = r.out := by rw [hpoll]; rfl
  have hstat := b.polled_reg_zero
  constructor
  · constructor
    · simp [Bus.handlesIn, hrx]
    · apply State.chunksSent_of_none
      intro off len hc
      rw [hout] at hc
      rcases hdone.out _ hc with ha | ⟨-, ha⟩ <;> cases ha
    · intro hf
      rw [hpoll] at hf
      exact absurd hf hdone.fsm
  · have hhandles : b.handlesSetup = false := by simp [Bus.handlesSetup, hs]
    rw [traffic, hhandles, hact]
    apply Ordered.acknowledge
    constructor
    · exact h.handled
    · intro hf
      have htx : b.state.usb.flag usbEpTxCtr = true :=
        (b.polled_flag _).symm.trans (hdone.flags.txCtr_up hf)
      obtain ⟨hfree, hin, hfetched⟩ := h.completed htx
      have hnot : ¬b.state.Expecting := fun hexp => by
        cases (h.expecting hexp).2.symm.trans htx
      have hnone : (r.mapUsb (State.acknowledge b.istr)).loaded = [] := by
        apply List.filterMap_eq_nil_iff.mpr
        intro a ha
        rcases hdone.out a (List.mem_reverse.mp ha) with rfl | ⟨hexp, -⟩
        · rfl
        · exact absurd hexp hnot
      refine ⟨?_, hin, by rw [hnone, hfetched]; rfl⟩
      rcases hdone.other hnot with hk | hk
      · rw [hk, hstat]
        exact hfree
      · rw [hk]
        decide
    · intro hexp
      obtain ⟨hexp', hk⟩ := hdone.expecting hexp
      obtain ⟨hfree, hclear⟩ := h.expecting hexp'
      rw [hk, hstat]
      exact ⟨hfree, hdone.flags.txCtr ((b.polled_flag _).trans hclear)⟩
    · intro _ hf
      have hkept : r.usb.flag usbEpSetup = false :=
        hdone.flags.setup.trans ((b.polled_flag _).trans hs)
      cases hkept.symm.trans hf

theorem ordered_in (h : Ordered b t) (hr : b.resetPending = false)
    (hrx : b.state.usb.flag usbEpRxCtr = false) (htx : b.state.usb.flag usbEpTxCtr = true) :
    InOrder c b t ∧ Ordered (b.act c .poll) (traffic c b .poll t) := by
  obtain ⟨hfree, hin, hfetched⟩ := h.completed htx
  have hpoll := b.poll_in c hr hrx htx
  let s := b.polled.mapUsb (Usb.clrEpTxCtr 0)
  let r := s.usbdControlIn c
  have hact : b.act c .poll = ⟨r.mapUsb (State.acknowledge b.istr), false⟩ :=
    congrArg (Bus.mk · false) hpoll
  have hfree' : s.usb.reg 0 &&& usbEpTxStat ≠ usbEpTxStatValid := by
    change (b.polled.usb.clrEpTxCtr 0).reg 0 &&& _ ≠ _
    rwa [Usb.clrEpTxCtr_txStat _ (by decide), b.polled_reg_zero]
  have hcleared : r.usb.flag usbEpTxCtr = false :=
    (s.controlIn_noNewFlags c).txCtr b.polled.usb.clrEpTxCtr_flag
  have hrxs : s.usb.flag usbEpRxCtr = false :=
    (Usb.setReg_noNewFlags b.polled.usb 0 _).rxCtr ((b.polled_flag _).trans hrx)
  have hrxr : r.usb.flag usbEpRxCtr = false := (s.controlIn_noNewFlags c).rxCtr hrxs
  have hfsm : s.usbFsmState = b.state.usbFsmState := rfl
  constructor
  · refine ⟨fun _ => hin, ?_, fun _ _ => hfetched⟩
    rw [hpoll]
    exact State.controlIn_sent hfree' rfl
  · have hhandles : b.handlesSetup = false := by simp [Bus.handlesSetup, hrx]
    rw [traffic, hhandles, hact]
    apply Ordered.acknowledge
    constructor
    · exact h.handled
    · intro hf
      cases hcleared.symm.trans hf
    · intro hexp
      exfalso
      rcases controlIn_fsm c s with hf | ⟨-, hf | hf⟩ | ⟨-, hf⟩ <;>
        rcases hexp with he | he <;> cases hf.symm.trans he
    · intro hf
      cases hrxr.symm.trans hf

theorem ordered_nothing (h : Ordered b t) (hr : b.resetPending = false)
    (hrx : b.state.usb.flag usbEpRxCtr = false) (htx : b.state.usb.flag usbEpTxCtr = false) :
    InOrder c b t ∧ Ordered (b.act c .poll) (traffic c b .poll t) := by
  have hpoll := b.poll_nothing c hr hrx htx
  have hout : (b.act c .poll).state.out = [] := by rw [hpoll]; rfl
  have hfsm : (b.act c .poll).state.usbFsmState = b.state.usbFsmState := by rw [hpoll]; rfl
  have hhandles : b.handlesSetup = false := by simp [Bus.handlesSetup, hrx]
  have htraffic : traffic c b .poll t = t := by simp [traffic, hhandles, State.loaded, hout]
  constructor
  · constructor
    · simp [Bus.handlesIn, htx]
    · exact State.chunksSent_of_nil hout
    · intro hs hn
      exact absurd (hfsm.symm.trans hs) hn
  · have hact : b.act c .poll = ⟨b.polled.mapUsb (State.acknowledge b.istr), false⟩ :=
      congrArg (Bus.mk · false) hpoll
    have hpolled : Ordered ⟨b.polled, false⟩ t := h.congr b.polled_reg_zero rfl
    rw [htraffic, hact]
    exact hpolled.acknowledge _

theorem Ordered.poll (c : Device) (h : Ordered b t) :
    InOrder c b t ∧ Ordered (b.act c .poll) (traffic c b .poll t) := by
  by_cases hr : b.resetPending = true
  · exact ordered_reset h hr
  have hr' := Bool.eq_false_of_not_eq_true hr
  by_cases hrx : b.state.usb.flag usbEpRxCtr = true
  · by_cases hs : b.state.usb.flag usbEpSetup = true
    · exact ordered_setup h hr' hrx hs
    · exact ordered_out h hr' hrx (Bool.eq_false_of_not_eq_true hs)
  have hrx' := Bool.eq_false_of_not_eq_true hrx
  by_cases htx : b.state.usb.flag usbEpTxCtr = true
  · exact ordered_in h hr' hrx' htx
  · exact ordered_nothing h hr' hrx' (Bool.eq_false_of_not_eq_true htx)

end Actions

/-- Along every interleaving from start-up in which no SETUP packet overtakes a completion, every
poll keeps the order. -/
theorem completions_in_order {c : Device} {mem : Addr → Byte} {ram : ℕ → Byte}
    {as : List Action} (h : Along (Bus.act c) SetupClear ⟨State.start mem ram, false⟩ as) :
    Along (watch (Bus.act c) (traffic c)) (fun p a => a = .poll → InOrder c p.1 p.2)
      (⟨State.start mem ram, false⟩, ⟨0, 0, 0, false⟩) as := by
  have hstart : Ordered ⟨State.start mem ram, false⟩ ⟨0, 0, 0, false⟩ := by
    have hflag : ∀ m, (State.start mem ram).usb.flag m = false := by
      intro m
      have hreg : (State.start mem ram).usb.reg 0 = 0#16 := rfl
      simp [Usb.flag, hreg]
    constructor
    · exact Nat.le_refl _
    · intro hf
      cases (hflag _).symm.trans hf
    · intro hexp
      rcases hexp with hf | hf <;> cases hf
    · intro hf
      cases (hflag _).symm.trans hf
  have hstep : ∀ (p : Bus × Traffic) (a : Action), Ordered p.1 p.2 → SetupClear p.1 a →
      (a = .poll → InOrder c p.1 p.2) ∧
        Ordered (watch (Bus.act c) (traffic c) p a).1 (watch (Bus.act c) (traffic c) p a).2 := by
    intro p a hp hc
    cases a with
    | host e => exact ⟨fun ha => Action.noConfusion ha, hp.host hc⟩
    | poll =>
      obtain ⟨horder, hnext⟩ := hp.poll c
      exact ⟨fun _ => horder, hnext⟩
  exact along_of_invariant hstep hstart (along_watch.mpr h)

/-- A GETSTATUS whose stages are polled one by one. -/
theorem completions_in_order_getstatus :
    let c := Device.stm64k
    let b : Bus := ⟨State.start (fun _ => 0xFF#8) fun _ => 0#8, false⟩
    let as := (.reset :: getstatus).flatMap fun e => [Action.host e, .poll]
    Along (Bus.act c) SetupClear b as ∧
      Along (watch (Bus.act c) (traffic c)) (fun p a => a = .poll → InOrder c p.1 p.2)
        (b, ⟨0, 0, 0, false⟩) as := by
  intro c b as
  have hclear : Along (Bus.act c) SetupClear b as := by decide
  exact ⟨hclear, completions_in_order hclear⟩

/-- The host fetches the status packet of a CLRSTATUS and sends the next SETUP before the poll.
The completion is then handled as one of the new transfer: a GETSTATUS goes on to its status stage
with the answer not fetched, and of a string descriptor the second chunk is lost. -/
theorem completion_overtaken :
    let c := Device.stm64k
    let p₀ : Bus × Traffic :=
      (⟨State.start (fun _ => 0xFF#8) fun _ => 0#8, false⟩, ⟨0, 0, 0, false⟩)
    let clrstatus := setupPacket 0x21#8 4#8 0#16 0#16 0#16
    let before : List Byte → List Action := fun d =>
      [.host .reset, .poll, .host (.setup clrstatus), .poll, .host .inComplete, .host (.setup d),
        .poll]
    let q := run (watch (Bus.act c) (traffic c)) p₀
      (before (setupPacket 0xA1#8 3#8 0#16 0#16 6#16))
    let r := run (watch (Bus.act c) (traffic c)) p₀
      (before (setupPacket 0x80#8 6#8 0x0304#16 0x0409#16 255#16))
    (q.2.inFrom < q.2.handled ∧ q.2.unfetched ∧
        (q.1.act c .poll).state.usbFsmState = .statusOut) ∧
      (r.1.act c .poll).state.out = [.chunk 64#16 26#16] ∧
      ¬Along (watch (Bus.act c) (traffic c)) (fun p a => a = .poll → InOrder c p.1 p.2) p₀
        (before (setupPacket 0xA1#8 3#8 0#16 0#16 6#16) ++ [.poll]) := by
  intro c p₀ clrstatus before q r
  refine ⟨by decide +kernel, by decide +kernel, fun h => ?_⟩
  obtain ⟨-, hlast, -⟩ := along_append.mp h
  have hle := (hlast rfl).belongs (by decide +kernel)
  exact absurd hle (by decide +kernel)

end Swindle
