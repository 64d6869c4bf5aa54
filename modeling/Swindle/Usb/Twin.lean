import Mathlib.Data.List.Induction
import Swindle.Usb.Outer

/-! Two copies of the registers that the host cannot tell apart: the same endpoints are stalled,
the registers behind theirs are the same, and endpoint 0 is as ready to send. -/
namespace Swindle
open Machine

namespace Usb

/-- The same endpoints stalled apart from endpoint 0, and the same behind the endpoint registers
(the address, the place of the buffer table) apart from ISTR. -/
structure SameOuter (u v : Usb) : Prop where
  stall : ∀ addr, stallReg addr ≠ 0 → stallReg addr < 8 → v.epStallGet addr = u.epStallGet addr
  beyond : ∀ i, 8 ≤ i → i ≠ usbIstrReg → v.reg i = u.reg i

structure Twin (u v : Usb) : Prop extends SameOuter u v where
  tx : v.reg 0 &&& usbEpTxStat = u.reg 0 &&& usbEpTxStat
  rx : v.epStallGet 0#8 = u.epStallGet 0#8

/-- The STAT field that shows whether the endpoint is stalled. -/
def stallField (addr : Byte) : BitVec 16 :=
  if addr &&& 0x80#8 ≠ 0#8 then usbEpTxStat else usbEpRxStat

theorem stallField_cases (addr : Byte) :
    stallField addr = usbEpRxStat ∨ stallField addr = usbEpTxStat := by
  unfold stallField
  split
  · exact .inr rfl
  · exact .inl rfl

variable {u v u' v' : Usb}

theorem epStallGet_congr {addr : Byte}
    (h : v.reg (stallReg addr) &&& stallField addr = u.reg (stallReg addr) &&& stallField addr) :
    v.epStallGet addr = u.epStallGet addr := by
  unfold stallField at h
  unfold epStallGet
  by_cases hdir : addr &&& 0x80#8 = 0#8
  · rw [if_neg (not_not.mpr hdir)] at h
    rw [if_neg (not_not.mpr hdir), if_neg (not_not.mpr hdir), stallReg_eq hdir, h]
  · rw [if_pos hdir] at h
    rw [if_pos hdir, if_pos hdir]
    change decide (v.reg (stallReg addr) &&& usbEpTxStat = _) = decide _
    rw [h]
    rfl

theorem SameOuter.of_reg (h : SameOuter u v)
    (hu : ∀ i, i ≠ 0 ∧ i ≠ usbIstrReg → u'.reg i = u.reg i)
    (hv : ∀ i, i ≠ 0 ∧ i ≠ usbIstrReg → v'.reg i = v.reg i) : SameOuter u' v' := by
  constructor
  · intro addr h0 h8
    have hi : usbIstrReg = 17 := rfl
    have hout : stallReg addr ≠ 0 ∧ stallReg addr ≠ usbIstrReg := ⟨h0, by omega⟩
    have hu' : u'.epStallGet addr = u.epStallGet addr := epStallGet_congr (by rw [hu _ hout])
    have hv' : v'.epStallGet addr = v.epStallGet addr := epStallGet_congr (by rw [hv _ hout])
    rw [hu', hv', h.stall addr h0 h8]
  · intro i h8 hi
    have hout : i ≠ 0 ∧ i ≠ usbIstrReg := ⟨by omega, hi⟩
    rw [hu _ hout, hv _ hout, h.beyond i h8 hi]

/-! A field of one register under an operation. -/

/-- `f` sets the field `m` of register `i` to one value, or leaves it alone. -/
def Puts (f : Usb → Usb) (i : ℕ) (m : BitVec 16) : Prop :=
  (∃ k, ∀ u, (f u).reg i &&& m = k) ∨ ∀ u : Usb, (f u).reg i &&& m = u.reg i &&& m

theorem Puts.comp {f g : Usb → Usb} {i : ℕ} {m : BitVec 16} (hg : Puts g i m) (hf : Puts f i m) :
    Puts (fun u => g (f u)) i m := by
  rcases hg with ⟨k, hk⟩ | hg
  · exact .inl ⟨k, fun u => hk (f u)⟩
  rcases hf with ⟨k, hk⟩ | hf
  · exact .inl ⟨k, fun u => (hg (f u)).trans (hk u)⟩
  · exact .inr fun u => (hg (f u)).trans (hf u)

theorem Puts.congr {f : Usb → Usb} {i : ℕ} {m : BitVec 16} (hf : Puts f i m)
    (h : v.reg i &&& m = u.reg i &&& m) : (f v).reg i &&& m = (f u).reg i &&& m := by
  rcases hf with ⟨k, hk⟩ | hf
  · rw [hk, hk]
  · rw [hf, hf, h]

theorem Puts.stall {f : Usb → Usb} {addr : Byte} (hf : Puts f (stallReg addr) (stallField addr))
    (h : v.epStallGet addr = u.epStallGet addr) :
    (f v).epStallGet addr = (f u).epStallGet addr := by
  rcases hf with ⟨k, hk⟩ | hf
  · exact epStallGet_congr (by rw [hk, hk])
  · rw [epStallGet_congr (hf v), epStallGet_congr (hf u), h]

section Puts

variable {ep : ℕ} (hep : ep < 8) {m : BitVec 16} (hm : m = usbEpRxStat ∨ m = usbEpTxStat)
include hep hm

theorem puts_setEpTxStat (stat : BitVec 16) (hs : stat &&& usbEpTxStat = stat) :
    Puts (setEpTxStat ep stat) ep m := by
  rcases hm with rfl | rfl
  · exact .inr fun u => setEpTxStat_rxStat u hep hs
  · exact .inl ⟨stat, fun u => setEpTxStat_txStat u hep hs⟩

theorem puts_setEpRxStat (stat : BitVec 16) (hs : stat &&& usbEpRxStat = stat) :
    Puts (setEpRxStat ep stat) ep m := by
  rcases hm with rfl | rfl
  · exact .inl ⟨stat, fun u => setEpRxStat_rxStat u hep hs⟩
  · exact .inr fun u => setEpRxStat_txStat u hep hs

theorem puts_clrEpTxDtog : Puts (clrEpTxDtog ep) ep m := .inr fun u => clrEpTxDtog_stat u hep hm

theorem puts_clrEpRxDtog : Puts (clrEpRxDtog ep) ep m := .inr fun u => clrEpRxDtog_stat u hep hm

end Puts

theorem puts_epStallSet {addr : Byte} (hr : stallReg addr < 8) (stall : Bool) {m : BitVec 16}
    (hm : m = usbEpRxStat ∨ m = usbEpTxStat) : Puts (epStallSet addr stall) (stallReg addr) m := by
  by_cases h0 : addr = 0#8
  · subst h0
    have hdef : epStallSet 0#8 stall = _ := funext fun u => u.epStallSet_zero stall
    rw [hdef]
    cases stall with
    | true =>
      exact (puts_setEpRxStat hr hm usbEpRxStatStall (by decide)).comp
        (puts_setEpTxStat hr hm usbEpTxStatStall (by decide))
    | false =>
      exact (puts_setEpRxStat hr hm usbEpRxStatValid (by decide)).comp
        ((puts_clrEpRxDtog hr hm).comp
          (puts_setEpTxStat hr hm usbEpTxStatNak (by decide)))
  by_cases hdir : addr &&& 0x80#8 = 0#8
  · have hdef : epStallSet addr stall = _ := funext fun u => u.epStallSet_rx hdir h0 stall
    rw [hdef]
    cases stall with
    | true => exact puts_setEpRxStat hr hm _ (by decide)
    | false =>
      exact (puts_setEpRxStat hr hm usbEpRxStatValid (by decide)).comp
        (puts_clrEpRxDtog hr hm)
  · have hdef : epStallSet addr stall = _ := funext fun u => u.epStallSet_tx hdir stall
    rw [hdef]
    cases stall with
    | true => exact puts_setEpTxStat hr hm _ (by decide)
    | false =>
      exact (puts_clrEpTxDtog hr hm).comp
        (puts_setEpTxStat hr hm usbEpTxStatNak (by decide))

theorem epStallSet_reg_congr {addr : Byte} (stall : Bool)
    (h : v.reg (stallReg addr) = u.reg (stallReg addr)) :
    (v.epStallSet addr stall).reg (stallReg addr) =
      (u.epStallSet addr stall).reg (stallReg addr) := by
  by_cases h0 : addr = 0#8
  · subst h0
    have h' : v.reg 0 = u.reg 0 := h
    change (v.epStallSet 0#8 stall).reg 0 = (u.epStallSet 0#8 stall).reg 0
    cases stall <;> simp [epStallSet_zero, setEpRxStat, setEpTxStat, clrEpRxDtog,
      setReg_reg_self, h']
  by_cases hdir : addr &&& 0x80#8 = 0#8
  · rw [epStallSet_rx u hdir h0, epStallSet_rx v hdir h0]
    cases stall <;> simp [setEpRxStat, clrEpRxDtog, setReg_reg_self, h]
  · rw [epStallSet_tx u hdir, epStallSet_tx v hdir]
    cases stall <;> simp [setEpTxStat, clrEpTxDtog, setReg_reg_self, h]

theorem resetEndpoints_stat (u : Usb) {j : ℕ} (hj : j ∈ List.range' 1 7) {m : BitVec 16}
    (hm : m = usbEpRxStat ∨ m = usbEpTxStat) : (State.resetEndpoints u).reg j &&& m = 0#16 := by
  have h8 : ∀ k ∈ List.range' 1 7, k < 8 := fun k hk => by
    have := List.mem_range'_1.mp hk
    omega
  unfold State.resetEndpoints
  generalize List.range' 1 7 = js at hj h8
  induction js using List.reverseRecOn with
  | nil => cases hj
  | append_singleton js k ih =>
    rw [List.foldl_append, List.foldl_cons, List.foldl_nil]
    by_cases hk : j = k
    · subst hk
      have hj8 := h8 j (by simp)
      rcases hm with rfl | rfl
      · exact setEpRxStat_rxStat _ hj8 (by decide)
      · exact (setEpRxStat_txStat _ hj8 (by decide)).trans
          (setEpTxStat_txStat _ hj8 (by decide))
    · have hmem : j ∈ js := by simpa [hk] using hj
      rw [← ih hmem fun i hi => h8 i (by simp [hi])]
      exact congrArg (· &&& m) ((setReg_reg_of_ne _ hk _).trans (setReg_reg_of_ne _ hk _))

namespace Twin

theorem epStallSet (h : Twin u v) (addr : Byte) (stall : Bool) :
    Twin (u.epStallSet addr stall) (v.epStallSet addr stall) := by
  have hget : ∀ a, stallReg a < 8 → v.epStallGet a = u.epStallGet a →
      (v.epStallSet addr stall).epStallGet a = (u.epStallSet addr stall).epStallGet a := by
    intro a ha heq
    by_cases hr : stallReg a = stallReg addr
    · have hputs := puts_epStallSet (hr ▸ ha) stall (stallField_cases a)
      rw [← hr] at hputs
      exact hputs.stall heq
    · rw [epStallGet_congr (u := v) (by rw [v.epStallSet_reg_of_ne addr stall hr]), heq]
      exact (epStallGet_congr (u := u) (by rw [u.epStallSet_reg_of_ne addr stall hr])).symm
  constructor
  · constructor
    · exact fun a h0 h8 => hget a h8 (h.stall a h0 h8)
    · intro i h8 hi
      by_cases hr : i = stallReg addr
      · rw [hr]
        exact epStallSet_reg_congr stall (hr ▸ h.beyond i h8 hi)
      · rw [v.epStallSet_reg_of_ne addr stall hr, u.epStallSet_reg_of_ne addr stall hr,
          h.beyond i h8 hi]
  · by_cases hr : 0 = stallReg addr
    · have hputs := puts_epStallSet (hr ▸ (by decide : 0 < 8)) stall (.inr rfl)
      rw [← hr] at hputs
      exact hputs.congr h.tx
    · rw [v.epStallSet_reg_of_ne addr stall hr, u.epStallSet_reg_of_ne addr stall hr, h.tx]
  · exact hget 0#8 (by decide) h.rx

theorem configure (h : Twin u v) : Twin u.configure v.configure := by
  have hoff : ∀ w : Usb, ∀ addr, stallReg addr ≠ 0 → stallReg addr < 8 →
      w.configure.reg (stallReg addr) &&& stallField addr = 0#16 := by
    intro w addr h0 h8
    dsimp only [Usb.configure]
    exact resetEndpoints_stat w (List.mem_range'_1.mpr (by omega)) (stallField_cases addr)
  constructor
  · constructor
    · exact fun addr h0 h8 => epStallGet_congr (by rw [hoff u addr h0 h8, hoff v addr h0 h8])
    · intro i h8 hi
      rw [u.configure_reg (.inr h8), v.configure_reg (.inr h8), h.beyond i h8 hi]
  · rw [u.configure_reg (.inl rfl), v.configure_reg (.inl rfl), h.tx]
  · have hkeep : ∀ w : Usb, w.configure.epStallGet 0#8 = w.epStallGet 0#8 := fun w =>
      epStallGet_congr (by rw [show stallReg 0#8 = 0 from rfl, w.configure_reg (.inl rfl)])
    rw [hkeep, hkeep, h.rx]

theorem setDaddr (h : Twin u v) (w : BitVec 16) :
    Twin (u.setReg usbDaddrReg w) (v.setReg usbDaddrReg w) := by
  have hne : ∀ (x : Usb) {i : ℕ}, i < 8 → (x.setReg usbDaddrReg w).reg i = x.reg i :=
    fun x i hi => setReg_reg_of_ne x (Nat.ne_of_lt (Nat.lt_trans hi (by decide))) w
  have hget : ∀ (x : Usb) addr, stallReg addr < 8 →
      (x.setReg usbDaddrReg w).epStallGet addr = x.epStallGet addr := fun x addr h8 =>
    epStallGet_congr (by rw [hne x h8])
  constructor
  · constructor
    · intro addr h0 h8
      rw [hget v addr h8, hget u addr h8, h.stall addr h0 h8]
    · intro i h8 hi
      by_cases hd : i = usbDaddrReg
      · rw [hd]
        exact (setReg_reg_self usbDaddrReg w v).trans (setReg_reg_self usbDaddrReg w u).symm
      · rw [setReg_reg_of_ne v hd, setReg_reg_of_ne u hd, h.beyond i h8 hi]
  · rw [hne v (by decide), hne u (by decide), h.tx]
  · rw [hget v _ (by decide), hget u _ (by decide), h.rx]

theorem stallGet (h : Twin u v) {addr : Byte} (hi : stallReg addr ≠ usbIstrReg) :
    v.epStallGet addr = u.epStallGet addr := by
  by_cases h8 : 8 ≤ stallReg addr
  · exact epStallGet_congr (by rw [h.beyond _ h8 hi])
  by_cases h0 : stallReg addr = 0
  · by_cases hdir : addr &&& 0x80#8 = 0#8
    · have hzero : addr = 0#8 := BitVec.eq_of_toNat_eq ((stallReg_eq hdir).trans h0)
      rw [hzero, h.rx]
    · apply epStallGet_congr
      rw [stallField, if_pos hdir, h0, h.tx]
  · exact h.stall addr h0 (Nat.not_le.mp h8)

end Twin

/-! Endpoint 0 under the routines that serve it. -/

theorem epStallGet_of_ne (h : u.reg 0 &&& usbEpRxStat ≠ usbEpRxStatStall) :
    u.epStallGet 0#8 = false := decide_eq_false h

theorem setEpRxStat_stallGet (u : Usb) (stat : BitVec 16) (hs : stat &&& usbEpRxStat = stat)
    (hne : stat ≠ usbEpRxStatStall) : (u.setEpRxStat 0 stat).epStallGet 0#8 = false := by
  apply epStallGet_of_ne
  rwa [setEpRxStat_rxStat _ (by decide) hs]

theorem readPacket_stallGet (h : u.epStallGet 0#8 = false) (len : BitVec 16) :
    (u.usbdEpReadPacket 0#8 len).2.epStallGet 0#8 = false := by
  have hclr : (u.clrEpRxCtr 0).epStallGet 0#8 = false :=
    (epStallGet_congr (clrEpRxCtr_rxStat u (by decide))).trans h
  unfold usbdEpReadPacket
  dsimp only
  split
  · exact h
  · split
    · exact hclr
    · exact setEpRxStat_stallGet _ usbEpRxStatValid (by decide) (by decide)

theorem Holds.stallGet {d : List Byte} (h : u.Holds d) : u.epStallGet 0#8 = false := by
  apply epStallGet_of_ne
  rw [h.nak]
  decide

/-- Reading a SETUP packet settles both STAT fields of endpoint 0. -/
theorem SameOuter.readSetup (h : SameOuter u v) (d : List Byte) :
    Twin (u.readSetup d) (v.readSetup d) := by
  have hget : ∀ w : Usb, (w.readSetup d).epStallGet 0#8 = false := fun w =>
    readPacket_stallGet (w.holds_raise_setup d).nakSet.stallGet 8#16
  refine ⟨h.of_reg (fun _ hi => u.readSetup_reg hi d) fun _ hi =>
    v.readSetup_reg hi d, ?_, ?_⟩
  · rw [readSetup_txStat, readSetup_txStat]
  · rw [hget, hget]

namespace Twin

variable (h : Twin u v)
include h

theorem raise_out (d : List Byte) : Twin (u.raise (.out d)) (v.raise (.out d)) := by
  refine ⟨h.of_reg (fun _ hi => u.raise_reg hi (by simp)) fun _ hi =>
    v.raise_reg hi (by simp), ?_, ?_⟩
  · rw [raise_out_txStat, raise_out_txStat, h.tx]
  · rw [(u.holds_raise_out d).stallGet, (v.holds_raise_out d).stallGet]

theorem readData (d : List Byte) (len : BitVec 16) :
    Twin (u.readData d len) (v.readData d len) := by
  refine ⟨h.of_reg (fun _ hi => u.readData_reg hi d len) fun _ hi =>
    v.readData_reg hi d len, ?_, ?_⟩
  · exact (readPacket_txStat _ len).trans
      ((h.raise_out d).tx.trans (readPacket_txStat _ len).symm)
  · exact (readPacket_stallGet (v.holds_raise_out d).stallGet len).trans
      (readPacket_stallGet (u.holds_raise_out d).stallGet len).symm

theorem raise_in :
    Twin ((u.raise .inComplete).clrEpTxCtr 0) ((v.raise .inComplete).clrEpTxCtr 0) := by
  have htx : ∀ w : Usb, ((w.raise .inComplete).clrEpTxCtr 0).reg 0 &&& usbEpTxStat =
      usbEpTxStatNak := by
    intro w
    rw [clrEpTxCtr_txStat _ (by decide), raise_in_txStat]
  have hrx : ∀ w : Usb, ((w.raise .inComplete).clrEpTxCtr 0).epStallGet 0#8 =
      w.epStallGet 0#8 := fun w =>
    (epStallGet_congr (clrEpTxCtr_rxStat _ (by decide))).trans
      (epStallGet_congr w.raise_in_rxStat)
  refine ⟨h.of_reg (fun _ hi => u.raise_in_reg hi) fun _ hi =>
    v.raise_in_reg hi, ?_, ?_⟩
  · rw [htx, htx]
  · rw [hrx, hrx, h.rx]

theorem nakSet (nak : Bool) : Twin (u.usbdEpNakSet 0#8 nak) (v.usbdEpNakSet 0#8 nak) := by
  have hget : ∀ w : Usb, (w.usbdEpNakSet 0#8 nak).epStallGet 0#8 = false := by
    intro w
    rw [usbdEpNakSet, if_neg (by decide)]
    cases nak with
    | true => exact setEpRxStat_stallGet _ usbEpRxStatNak (by decide) (by decide)
    | false => exact setEpRxStat_stallGet _ usbEpRxStatValid (by decide) (by decide)
  refine ⟨h.of_reg (fun _ hi => u.nakSet_reg hi.1 nak) fun _ hi => v.nakSet_reg hi.1 nak, ?_, ?_⟩
  · rw [nakSet_txStat, nakSet_txStat, h.tx]
  · rw [hget, hget]

theorem txBusy : v.txBusy 0#8 = u.txBusy 0#8 := by
  change decide (v.reg 0 &&& usbEpTxStat = _) = decide _
  rw [h.tx]
  rfl

theorem writePacket (len : BitVec 16) :
    Twin (u.usbdEpWritePacket 0#8 len).2 (v.usbdEpWritePacket 0#8 len).2 := by
  unfold usbdEpWritePacket
  rw [h.txBusy]
  split
  · exact h
  · have htx : ∀ w : Usb, (w.setEpTxStat 0 usbEpTxStatValid).reg 0 &&& usbEpTxStat =
        usbEpTxStatValid := fun w => setEpTxStat_txStat w (by decide) (by decide)
    have hrx : ∀ w : Usb, (w.setEpTxStat 0 usbEpTxStatValid).epStallGet 0#8 =
        w.epStallGet 0#8 := fun w =>
      epStallGet_congr (setEpTxStat_rxStat w (by decide) (by decide))
    refine ⟨h.of_reg (fun _ hi => setReg_reg_of_ne _ hi.1 _) fun _ hi =>
      setReg_reg_of_ne _ hi.1 _, ?_, ?_⟩
    · exact (htx _).trans (htx _).symm
    · exact (hrx _).trans (h.rx.trans (hrx _).symm)

theorem acknowledge (istr : BitVec 16) :
    Twin (State.acknowledge istr u) (State.acknowledge istr v) := by
  have hget : ∀ w : Usb, (State.acknowledge istr w).epStallGet 0#8 = w.epStallGet 0#8 :=
    fun w => epStallGet_congr (by rw [show stallReg 0#8 = 0 from rfl, acknowledge_reg_zero])
  have hcntr : ∀ w : Usb, (State.acknowledge istr w).reg usbCntrReg =
      stored usbCntrReg (w.reg usbCntrReg) (w.reg usbCntrReg &&& ~~~usbCntrSofm) :=
    fun w => w.acknowledge_cntr istr
  refine ⟨⟨fun addr h0 h8 => ?_, fun i h8 hi => ?_⟩, ?_, ?_⟩
  · have hout : Outer (stallReg addr) := outer_of_lt h0 h8
    rw [epStallGet_congr (u := v) (by rw [v.acknowledge_reg hout]), h.stall addr h0 h8]
    exact (epStallGet_congr (u := u) (by rw [u.acknowledge_reg hout])).symm
  · by_cases hc : i = usbCntrReg
    · rw [hc, hcntr, hcntr, h.beyond usbCntrReg (by decide) (by decide)]
    · rw [v.acknowledge_reg_of_ne hc hi, u.acknowledge_reg_of_ne hc hi, h.beyond i h8 hi]
  · rw [acknowledge_reg_zero, acknowledge_reg_zero, h.tx]
  · rw [hget, hget, h.rx]

end Twin

end Usb

end Swindle
