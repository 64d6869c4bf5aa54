import Swindle.Usb.Outer
import Swindle.Usb.Stage

/-! The device address and the buffer table: USB_DADDR follows the SET_ADDRESS transfers of the
host, and USB_BTABLE stays 0, as long as no endpoint request names their registers. -/
namespace Swindle
open Machine

/-- The last SETUP packet, if it was a whole one, and the address the host has given to the
device: none before the first bus reset. -/
structure BusAddress where
  setup : Option UsbSetupData
  address : Option (BitVec 16)

def setupData (d : List Byte) : UsbSetupData :=
  UsbSetupData.patch d ⟨0#8, 0#8, 0#16, 0#16, 0#16⟩

def UsbSetupData.setsAddress (r : UsbSetupData) : Bool :=
  r.bmRequestType = 0#8 && r.bRequest = 5#8

/-- What the host has done to the address: a bus reset takes it away, and the status stage of a
SET_ADDRESS gives a new one. -/
def busAddress (s : State) (e : Event) (h : BusAddress) : BusAddress :=
  match e with
  | .reset => { h with address := some 0#16 }
  | .setup d =>
    { h with setup := if (setupBytes d).length = 8 then some (setupData (setupBytes d)) else none }
  | .inComplete =>
    match h.setup with
    | some r =>
      if s.usbFsmState = .statusIn ∧ r.setsAddress then { h with address := some r.wValue } else h
    | none => h
  | .out _ => h

def BusAddress.daddr (h : BusAddress) : BitVec 16 :=
  match h.address with
  | none => 0#16
  | some a => usbDaddrEf ||| a

/-- The condition: no SET_FEATURE or CLEAR_FEATURE names USB_BTABLE as its endpoint, and one that
names USB_DADDR finds an address below 16, and is not a SET_FEATURE of the IN side. -/
def KeepsAddress (s : State) (e : Event) : Prop :=
  s.Dispatches e → ∀ set, (s.requestOf e).haltFeature set →
    Usb.stallReg (s.requestOf e).endpoint ≠ usbBtableReg ∧
    (Usb.stallReg (s.requestOf e).endpoint = usbDaddrReg →
      s.usb.reg usbDaddrReg &&& 0xFFF0#16 = usbDaddrEf ∧
        ¬(set ∧ (s.requestOf e).endpoint &&& 0x80#8 ≠ 0#8))

instance (s : State) (e : Event) : Decidable (KeepsAddress s e) := by
  unfold KeepsAddress
  infer_instance

/-! What an endpoint request does to USB_DADDR. -/

private theorem daddr_cases {v : BitVec 16} (h : v &&& 0xFFF0#16 = usbDaddrEf) :
    ∃ k : Fin 16, v = usbDaddrEf ||| BitVec.ofNat 16 k := by
  have hlow : (v &&& 0xF#16).toNat < 16 := by
    rw [BitVec.toNat_and]
    exact Nat.lt_succ_of_le Nat.and_le_right
  refine ⟨⟨(v &&& 0xF#16).toNat, hlow⟩, ?_⟩
  rw [BitVec.ofNat_toNat, BitVec.setWidth_eq, ← h, ← BitVec.and_or_distrib_left,
    show 0xFFF0#16 ||| 0xF#16 = BitVec.allOnes 16 by decide, BitVec.and_allOnes]

namespace Usb

variable (u : Usb)

/-- With no address bit above the fourth, the toggle writes put back what they find, except where
they set the IN side to STALL. -/
theorem epStallSet_daddr {addr : Byte} {set : Bool} (hr : stallReg addr = usbDaddrReg)
    (hu : u.reg usbDaddrReg &&& 0xFFF0#16 = usbDaddrEf)
    (hset : ¬(set ∧ addr &&& 0x80#8 ≠ 0#8)) :
    (u.epStallSet addr set).reg usbDaddrReg = u.reg usbDaddrReg := by
  obtain ⟨k, hk⟩ := daddr_cases hu
  have h0 : addr ≠ 0#8 := by
    rintro rfl
    exact absurd hr (by decide)
  by_cases hdir : addr &&& 0x80#8 = 0#8
  · rw [epStallSet_rx u hdir h0, hr]
    cases set with
    | true =>
      rw [if_pos rfl, setEpRxStat, setReg_reg_self, hk]
      clear hk
      revert k
      decide
    | false =>
      rw [if_neg (by decide), setEpRxStat, setReg_reg_self, clrEpRxDtog, setReg_reg_self, hk]
      clear hk
      revert k
      decide
  · have hclr : set = false := by
      cases set with
      | true => exact absurd ⟨rfl, hdir⟩ hset
      | false => rfl
    rw [epStallSet_tx u hdir, hclr, hr, if_neg (by decide), clrEpTxDtog, setReg_reg_self,
      setEpTxStat, setReg_reg_self, hk]
    clear hk
    revert k
    decide

end Usb

section Step

variable {c : Device} {s : State} {h : BusAddress}

theorem latched_eq {w : BitVec 16} (hw : w.toNat < 128) :
    ((w &&& usbDaddrAddr) ||| usbDaddrEf) &&& 0x00FF#16 = usbDaddrEf ||| w := by
  have hlow : w &&& usbDaddrAddr = w := by
    apply BitVec.eq_of_toNat_eq
    rw [BitVec.toNat_and, show usbDaddrAddr.toNat = 2 ^ 7 - 1 from rfl,
      Nat.and_two_pow_sub_one_eq_mod]
    exact Nat.mod_eq_of_lt hw
  have hbyte : w &&& 0x00FF#16 = w := by
    apply BitVec.eq_of_toNat_eq
    rw [BitVec.toNat_and, show (0x00FF#16).toNat = 2 ^ 8 - 1 from rfl,
      Nat.and_two_pow_sub_one_eq_mod]
    exact Nat.mod_eq_of_lt (Nat.lt_trans hw (by decide))
  rw [hlow, BitVec.and_or_distrib_right, hbyte, BitVec.or_comm]
  rfl

theorem dispatch_reg {t : State} {i : ℕ} (hi : 8 ≤ i) :
    (t.usbControlRequestDispatch c).2.usb.reg i = t.usb.reg i ∨
      ∃ set, t.usbReq.haltFeature set ∧
        (t.usbControlRequestDispatch c).2.usb = t.usb.epStallSet t.usbReq.endpoint set := by
  by_cases hdfu : t.usbReq.isDfu
  · rw [State.dispatch_of_dfu c hdfu]
    exact .inl rfl
  · rw [State.dispatch_of_not_dfu c hdfu]
    obtain ⟨x, hx⟩ := decides_standard c t.usbReq
    rw [hx.eq t rfl]
    rcases hx.regs with hu | hu | ⟨set, hset, hu⟩
    · exact .inl (by rw [Effect.apply, hu]; rfl)
    · exact .inl (by rw [Effect.apply, hu]; exact t.usb.configure_reg (.inr hi))
    · exact .inr ⟨set, hset, by rw [Effect.apply, hu]⟩

theorem setsAddress_small {t : State} (ht : t.usbReq.setsAddress)
    (hq : (t.usbControlRequestDispatch c).1 ≠ .notsupp) : t.usbReq.wValue.toNat < 128 := by
  rw [UsbSetupData.setsAddress, Bool.and_eq_true, decide_eq_true_eq, decide_eq_true_eq] at ht
  obtain ⟨htype, hreq⟩ := ht
  have hdfu : ¬t.usbReq.isDfu := by
    rw [UsbSetupData.isDfu, htype]
    decide
  rw [State.dispatch_of_not_dfu c hdfu, State.usbdStandardRequest, htype,
    if_neg (by decide)] at hq
  change (t.usbdStandardRequestDevice c).1 ≠ .notsupp at hq
  rw [State.usbdStandardRequestDevice, hreq] at hq
  change (if t.usbReq.bmRequestType ≠ 0#8 ∨ 128#16 ≤ t.usbReq.wValue then
    (UsbdRequestReturnCodes.notsupp, t) else (.handled, t)).1 ≠ .notsupp at hq
  split at hq
  · exact absurd rfl hq
  · rename_i hno
    have hle := (not_or.mp hno).2
    rw [BitVec.le_def] at hle
    exact Nat.not_le.mp hle

theorem patch_whole {d : List Byte} (hd : d.length = 8) (r : UsbSetupData) :
    r.patch d = setupData d := by
  simp [setupData, UsbSetupData.patch, List.getD_eq_getElem?_getD, hd]

/-- The registers and the request under way agree with what the host has done. -/
structure Addressed (s : State) (h : BusAddress) : Prop where
  daddr : s.usb.reg usbDaddrReg = h.daddr
  btable : s.usb.reg usbBtableReg = 0#16
  setup : s.usbFsmState ≠ .idle → h.setup = some s.usbReq
  small : s.usbFsmState = .statusIn → s.usbReq.setsAddress → s.usbReq.wValue.toNat < 128

theorem reset_reg : (step c s .reset).usb.reg usbDaddrReg = usbDaddrEf ∧
    (step c s .reset).usb.reg usbBtableReg = s.usb.reg usbBtableReg := by
  rw [step_reset]
  constructor
  · exact Usb.setReg_reg_self _ _ _
  · have hclr : ((s.raise .reset).usb.clrIstr usbIstrReset).reg usbBtableReg =
        s.usb.reg usbBtableReg := Usb.setReg_reg_of_ne _ (by decide) _
    refine (Usb.setReg_reg_of_ne _ (by decide) _).trans ?_
    exact (Usb.epSetup_reg _ (by decide) _ _).trans hclr

theorem quiet_reg {e : Event} (hk : KeepsAddress s e) (hr : e ≠ .reset) (hl : ¬s.Latches e) :
    (step c s e).usb.reg usbDaddrReg = s.usb.reg usbDaddrReg ∧
      (step c s e).usb.reg usbBtableReg = s.usb.reg usbBtableReg := by
  by_cases hd : s.Dispatches e
  · rw [State.step_reg_of_dispatches c hd outer_daddr,
      State.step_reg_of_dispatches c hd outer_btable]
    have hkeep : ∀ i, Outer i → 8 ≤ i →
        (∀ set, (s.requestOf e).haltFeature set → Usb.stallReg (s.requestOf e).endpoint = i →
          ((s.handed e).usb.epStallSet (s.requestOf e).endpoint set).reg i =
            (s.handed e).usb.reg i) →
        (s.handling c e).2.usb.reg i = s.usb.reg i := by
      intro i hi h8 hstall
      rw [← s.handed_reg hi.received e]
      rcases dispatch_reg (c := c) (t := s.handed e) h8 with hq | ⟨set, hset, hq⟩
      · exact hq
      · rw [s.handed_usbReq] at hset hq
        rw [State.handling, hq]
        by_cases hreg : Usb.stallReg (s.requestOf e).endpoint = i
        · exact hstall set hset hreg
        · exact Usb.epStallSet_reg_of_ne _ _ _ fun h => hreg h.symm
    constructor
    · refine hkeep _ outer_daddr (by decide) fun set hset hreg => ?_
      obtain ⟨-, hdaddr⟩ := hk hd set hset
      obtain ⟨hlow, hset'⟩ := hdaddr hreg
      rw [← s.handed_reg outer_daddr.received e] at hlow
      exact Usb.epStallSet_daddr _ hreg hlow hset'
    · refine hkeep _ outer_btable (by decide) fun set hset hreg => ?_
      exact absurd hreg (hk hd set hset).1
  · exact ⟨State.step_reg_of_quiet c hr hd hl outer_daddr,
      State.step_reg_of_quiet c hr hd hl outer_btable⟩

theorem busy_cases {e : Event} (hf : (step c s e).usbFsmState ≠ .idle) :
    (∃ d, e = .setup d ∧ (setupBytes d).length = 8) ∨
      (∀ d, e ≠ .setup d) ∧ s.usbFsmState ≠ .idle := by
  cases e with
  | setup d =>
    refine .inl ⟨d, rfl, ?_⟩
    by_contra hlen
    rw [step_setup_eq, if_pos hlen] at hf
    exact hf rfl
  | reset =>
    refine .inr ⟨nofun, ?_⟩
    rw [step_reset] at hf
    exact hf
  | out d =>
    refine .inr ⟨nofun, ?_⟩
    rcases step_out_fsm c s d with h | ⟨h, -⟩ | ⟨h, -⟩
    · exact absurd h hf
    · rw [h]
      decide
    · rw [h]
      decide
  | inComplete =>
    refine .inr ⟨nofun, ?_⟩
    rcases step_in_fsm c s with h | ⟨h, -⟩ | ⟨h, -⟩
    · exact absurd h hf
    · rw [h]
      decide
    · rw [h]
      decide

theorem busAddress_of_latches {e : Event} (ha : Addressed s h) (hl : s.Latches e) :
    busAddress s e h = { h with address := some s.usbReq.wValue } := by
  obtain ⟨rfl, hf, htype, hreq⟩ := hl
  have hsetup := ha.setup (by rw [hf]; decide)
  have hsets : s.usbReq.setsAddress := by simp [UsbSetupData.setsAddress, htype, hreq]
  rw [busAddress, hsetup]
  exact if_pos ⟨hf, hsets⟩

theorem busAddress_of_quiet {e : Event} (ha : Addressed s h) (hr : e ≠ .reset)
    (hl : ¬s.Latches e) : (busAddress s e h).address = h.address := by
  cases e with
  | reset => exact absurd rfl hr
  | setup d => rfl
  | out d => rfl
  | inComplete =>
    unfold busAddress
    cases hs : h.setup with
    | none => rfl
    | some r =>
      dsimp only
      split
      · rename_i hc
        obtain ⟨hf, hsets⟩ := hc
        have hreq := ha.setup (by rw [hf]; decide)
        rw [hs, Option.some.injEq] at hreq
        rw [hreq, UsbSetupData.setsAddress, Bool.and_eq_true, decide_eq_true_eq,
          decide_eq_true_eq] at hsets
        exact absurd ⟨rfl, hf, hsets⟩ hl
      · rfl

theorem addressed_step {e : Event} (ha : Addressed s h) (hk : KeepsAddress s e) :
    Addressed (step c s e) (busAddress s e h) := by
  have hreq := step_usbReq c s e
  have hregs : (step c s e).usb.reg usbDaddrReg = (busAddress s e h).daddr ∧
      (step c s e).usb.reg usbBtableReg = 0#16 := by
    by_cases hr : e = .reset
    · subst hr
      obtain ⟨hd, hb⟩ := reset_reg (c := c) (s := s)
      exact ⟨hd, hb.trans ha.btable⟩
    by_cases hl : s.Latches e
    · have hsets : s.usbReq.setsAddress := by
        simp [UsbSetupData.setsAddress, hl.2.2.1, hl.2.2.2]
      rw [busAddress_of_latches ha hl, State.step_reg_of_latches c hl outer_daddr,
        State.step_reg_of_latches c hl outer_btable, if_pos rfl, if_neg (by decide)]
      exact ⟨latched_eq (ha.small hl.2.1 hsets), ha.btable⟩
    · obtain ⟨hd, hb⟩ := quiet_reg (c := c) hk hr hl
      rw [hd, hb, BusAddress.daddr, busAddress_of_quiet ha hr hl]
      exact ⟨ha.daddr, ha.btable⟩
  refine ⟨hregs.1, hregs.2, ?_, ?_⟩
  · intro hf
    rw [hreq]
    rcases busy_cases hf with ⟨d, rfl, hlen⟩ | ⟨hne, hbusy⟩
    · change (if (setupBytes d).length = 8 then _ else _) = some (s.usbReq.patch (setupBytes d))
      rw [if_pos hlen, patch_whole hlen]
    · have hsetup := ha.setup hbusy
      cases e with
      | setup d => exact absurd rfl (hne d)
      | inComplete =>
        unfold busAddress
        rw [hsetup]
        dsimp only
        split
        · rfl
        · exact hsetup
      | _ => exact hsetup
  · intro hf hsets
    rw [hreq] at hsets ⊢
    rcases State.statusIn_cases c hf with ⟨rfl, hf'⟩ | ⟨-, hq⟩
    · exact ha.small hf' hsets
    · rw [← s.handed_usbReq] at hsets ⊢
      exact setsAddress_small hsets hq

end Step

/-- At every point of a run from start-up whose endpoint requests stay off the two registers,
USB_DADDR holds the address that the host has given last, and USB_BTABLE is 0. -/
theorem daddr_follows_host {c : Device} {mem : Addr → Byte} {ram : ℕ → Byte} {es : List Event}
    (h : Along (step c) KeepsAddress (State.start mem ram) es) :
    Along (watch (step c) busAddress)
      (fun p e => (step c p.1 e).usb.reg usbDaddrReg = (busAddress p.1 e p.2).daddr ∧
        (step c p.1 e).usb.reg usbBtableReg = 0#16)
      (State.start mem ram, ⟨none, none⟩) es := by
  have hstart : Addressed (State.start mem ram) ⟨none, none⟩ :=
    ⟨rfl, rfl, fun hf => absurd rfl hf, nofun⟩
  have hstep : ∀ (p : State × BusAddress) (e : Event), Addressed p.1 p.2 → KeepsAddress p.1 e →
      ((step c p.1 e).usb.reg usbDaddrReg = (busAddress p.1 e p.2).daddr ∧
        (step c p.1 e).usb.reg usbBtableReg = 0#16) ∧
        Addressed (watch (step c) busAddress p e).1 (watch (step c) busAddress p e).2 :=
    fun p e hp hk =>
      have hnext : Addressed (step c p.1 e) (busAddress p.1 e p.2) := addressed_step hp hk
      ⟨⟨hnext.daddr, hnext.btable⟩, hnext⟩
  exact along_of_invariant hstep hstart (along_watch.mpr h)

/-- Enumeration: bus reset and SET_ADDRESS 5. -/
theorem daddr_follows_host_five :
    let c := Device.stm64k
    let s := State.start (fun _ => 0xFF#8) fun _ => 0#8
    let es := [.reset, .setup [0x00#8, 0x05#8, 0x05#8, 0#8, 0#8, 0#8, 0#8, 0#8], .inComplete]
    Along (step c) KeepsAddress s es ∧
      Along (watch (step c) busAddress)
        (fun p e => (step c p.1 e).usb.reg usbDaddrReg = (busAddress p.1 e p.2).daddr ∧
          (step c p.1 e).usb.reg usbBtableReg = 0#16) (s, ⟨none, none⟩) es := by
  intro c s es
  have hk : Along (step c) KeepsAddress s es := by decide
  exact ⟨hk, daddr_follows_host hk⟩

/-- SET_FEATURE(ENDPOINT_HALT) of "endpoint" 20 stores 0x9080 to USB_BTABLE. -/
theorem halt_moves_btable :
    let c := Device.stm64k
    let s := State.start (fun _ => 0xFF#8) fun _ => 0#8
    let es := [.reset, .setup [0x02#8, 0x03#8, 0#8, 0#8, 20#8, 0#8, 0#8, 0#8]]
    (run (step c) s es).usb.reg usbBtableReg = 0x9080#16 ∧
      ¬Along (watch (step c) busAddress)
        (fun p e => (step c p.1 e).usb.reg usbDaddrReg = (busAddress p.1 e p.2).daddr ∧
          (step c p.1 e).usb.reg usbBtableReg = 0#16) (s, ⟨none, none⟩) es := by
  decide

end Swindle
