import Swindle.Dfu.Layout
import Swindle.Session.Refine
import Swindle.Usb.Address

/-! Enumeration: whatever state the device is in, every descriptor is read as it is, and what a
host makes of them is what the device is. -/
namespace Swindle
open Machine

/-- A string descriptor; the characters are sent as UTF-16. -/
def stringDesc (str : List Byte) : List Byte :=
  BitVec.ofNat 8 (str.length * 2 + 2) :: BitVec.ofNat 8 usbDtString ::
    str.flatMap fun ch => [ch, 0#8]

def descriptor (c : Device) (wValue wIndex : BitVec 16) : Option (List Byte) :=
  let descrIdx := wValue.toNat % 256
  let descrType := wValue.toNat / 256
  if descrType = usbDtDevice then some devDesc
  else if descrType = usbDtConfiguration then some (configDesc c)
  else if descrType = usbDtString then
    if descrIdx = 0 then some [4#8, 3#8, 0x09#8, 0x04#8]
    else if wIndex = usbLangidEnglishUs then (usbStrings c)[descrIdx - 1]?.map stringDesc
    else none
  else none

/-! The strings fit into a descriptor. -/

section Strings

theorem length_pushDigits_le' (fuel : ℕ) (v : ℤ) (acc : List Byte) :
    (pushDigits fuel v acc).length ≤ fuel + acc.length := by
  induction fuel generalizing v acc with
  | zero => simp [pushDigits]
  | succ fuel ih =>
    rw [pushDigits]
    split
    · have hrest := ih (v.tdiv 10) (BitVec.ofInt 8 (48 + v.tmod 10) :: acc)
      rw [List.length_cons] at hrest
      omega
    · rw [List.length_cons]
      omega

theorem length_prepareMemoryLayout (c : Device) : (prepareMemoryLayout c).length ≤ 61 := by
  have h₁ := length_pushDigits_le' 10
    ((flashBootldrSizeKb / (c.getFlashPageSize / 1024) : ℕ) : ℤ) []
  have h₂ := length_pushDigits_le' 10
    (((c.flashSize : ℤ) - flashBootldrSizeKb).tdiv ((c.getFlashPageSize / 1024 : ℕ) : ℤ)) []
  have hhead : (asciiBytes "@Internal Flash /0x08000000/").length = 28 := by decide
  have hpage (h : Prop) [Decidable h] :
      (asciiBytes (if h then "*002Ka," else "*001Ka,")).length = 7 := by split <;> decide
  have hlast (h : Prop) [Decidable h] :
      (asciiBytes (if h then "*002Kg" else "*001Kg")).length = 6 := by split <;> decide
  unfold prepareMemoryLayout
  simp only [List.length_append, List.length_nil, hhead, hpage, hlast] at h₁ h₂ ⊢
  omega

theorem length_getDevUniqueId (c : Device) : (getDevUniqueId c).length = 24 := by
  have hhead : (asciiBytes "SWIND_").length = 6 := by decide
  simp [getDevUniqueId, hhead, List.length_flatMap]

theorem usbStrings_short {c : Device} {str : List Byte} (h : str ∈ usbStrings c) :
    str.length ≤ 61 := by
  have hserial := length_getDevUniqueId c
  have hlayout := length_prepareMemoryLayout c
  simp only [usbStrings, List.mem_cons, List.not_mem_nil, or_false] at h
  obtain rfl | rfl | rfl | rfl | rfl := h
  · decide
  · decide
  · omega
  · exact hlayout
  · decide

end Strings

/-! What the handler of GET_DESCRIPTOR leaves. -/

structure Holding (d : List Byte) (t : State) : Prop where
  size : t.datasize.toNat = d.length
  bytes : slice t.usbdControlBuffer 0 d.length = d

theorem Holding.take {d : List Byte} {t : State} (h : Holding d t) (n : ℕ) :
    slice t.usbdControlBuffer 0 (min d.length n) = d.take n := by
  have hsplit := congrArg (List.take n) h.bytes
  rw [← hsplit, slice, slice, ← List.map_take, List.take_range, Nat.min_comm]

theorem length_utf16 (str : List Byte) :
    (str.flatMap fun ch => [ch, 0#8]).length = 2 * str.length := by
  induction str with
  | nil => rfl
  | cons ch str ih =>
    rw [List.flatMap_cons, List.length_append, ih]
    simp
    omega

theorem holding_stringDesc {str : List Byte} (h : str.length ≤ 61) (t : State) :
    let bLength := BitVec.ofNat 8 (str.length * 2 + 2)
    Holding (stringDesc str)
      (({ (t.putBuffer 1 [BitVec.ofNat 8 usbDtString]).putBuffer 0 [bLength] with
          datasize := bLength.setWidth 16 } : State).putBuffer 2
        (str.flatMap fun ch => [ch, 0#8])) := by
  intro bLength
  have hlen : (stringDesc str).length = 2 + (str.flatMap fun ch => [ch, 0#8]).length := by
    rw [stringDesc, List.length_cons, List.length_cons]
    exact Nat.add_comm _ 2
  constructor
  · change (bLength.setWidth 16).toNat = _
    rw [hlen, length_utf16, BitVec.toNat_setWidth, BitVec.toNat_ofNat]
    omega
  · change slice (blit 2 _ (blit 0 _ (blit 1 _ t.usbdControlBuffer))) 0 _ = _
    rw [hlen, slice_blit_append]
    rfl

theorem getDescriptor_holding (c : Device) (s : State) :
    match descriptor c s.usbReq.wValue s.usbReq.wIndex with
    | some d => (s.usbStandardGetDescriptor c).1 = .handled ∧
        Holding d (s.usbStandardGetDescriptor c).2
    | none => (s.usbStandardGetDescriptor c).1 = .notsupp := by
  have hwindex : (s.putBuffer 1 [BitVec.ofNat 8 usbDtString]).usbReq.wIndex =
      s.usbReq.wIndex := rfl
  unfold descriptor State.usbStandardGetDescriptor
  dsimp only
  by_cases hdev : s.usbReq.wValue.toNat / 256 = usbDtDevice
  · rw [if_pos hdev, if_pos hdev]
    exact ⟨rfl, rfl, slice_blit 0 devDesc _⟩
  rw [if_neg hdev, if_neg hdev]
  by_cases hcfg : s.usbReq.wValue.toNat / 256 = usbDtConfiguration
  · rw [if_pos hcfg, if_pos hcfg]
    exact ⟨rfl, rfl, slice_blit 0 (configDesc c) _⟩
  rw [if_neg hcfg, if_neg hcfg]
  by_cases hstr : s.usbReq.wValue.toNat / 256 = usbDtString
  · rw [if_pos hstr, if_pos hstr]
    by_cases hidx : s.usbReq.wValue.toNat % 256 = 0
    · rw [if_pos hidx, if_pos hidx]
      exact ⟨rfl, rfl, rfl⟩
    rw [if_neg hidx, if_neg hidx, hwindex]
    cases hget : (usbStrings c)[s.usbReq.wValue.toNat % 256 - 1]? with
    | none => simp
    | some str =>
      by_cases hlang : s.usbReq.wIndex = usbLangidEnglishUs
      · rw [if_pos hlang]
        have hshort := usbStrings_short (List.mem_of_getElem? hget)
        simp only [Option.map_some, not_not.mpr hlang, if_false]
        exact ⟨trivial, holding_stringDesc hshort s⟩
      · rw [if_neg hlang]
        simp [hlang]
  · rw [if_neg hstr, if_neg hstr]

/-! Reading them. -/

section Read

variable {c : Device} {s : State} {v i w : BitVec 16}

def getDescriptor (v i w : BitVec 16) : List Byte := setupPacket 0x80#8 6#8 v i w

theorem getDescriptor_quiet :
    (s.requestOf (.setup (getDescriptor v i w))).clearsToggle = 0#16 := by
  have hfeature : ¬(s.requestOf (.setup (getDescriptor v i w))).haltFeature false := by
    rw [getDescriptor, requestOf_setupPacket]
    simp [UsbSetupData.haltFeature]
  exact if_neg fun h => hfeature h.1

theorem answered_getDescriptor :
    ∃ t : State, t.usbReq.wValue = v ∧ t.usbReq.wIndex = i ∧
      s.answered c (getDescriptor v i w) = t.usbStandardGetDescriptor c := by
  let d := getDescriptor v i w
  let t : State := { s.tookSetup d (s.usb.readSetup d) with dataoff := 0#16 }
  have hreq : t.usbReq = ⟨0x80#8, 6#8, v, i, w⟩ := requestOf_setupPacket
  refine ⟨t, by rw [hreq], by rw [hreq], ?_⟩
  have htype : t.usbReq.bmRequestType = 0x80#8 := by rw [hreq]
  have hcode : t.usbReq.bRequest = 6#8 := by rw [hreq]
  have hdfu : ¬t.usbReq.isDfu := by
    rw [UsbSetupData.isDfu, htype]
    decide
  have hstandard : s.answered c d = t.usbdStandardRequest c := State.dispatch_of_not_dfu c hdfu
  rw [hstandard, State.usbdStandardRequest, htype, if_neg (by decide)]
  change t.usbdStandardRequestDevice c = _
  rw [State.usbdStandardRequestDevice, hcode]
  rfl

theorem daddr_kept {r : UsbSetupData} (hcode : r.bRequest ≠ 5#8) (hend : r.toEndpoint = false)
    {es : List Event} (hes : ∀ e ∈ es, e ≠ .reset ∧ ∀ d, e ≠ .setup d) {t : State}
    (ht : t.usbReq = r) : (run (step c) t es).usb.reg usbDaddrReg = t.usb.reg usbDaddrReg := by
  induction es generalizing t with
  | nil => rfl
  | cons e es ih =>
    obtain ⟨⟨hr, hset⟩, hrest⟩ := List.forall_mem_cons.mp hes
    have hreq : t.requestOf e = t.usbReq := by
      cases e with
      | setup d => exact absurd rfl (hset d)
      | _ => rfl
    have hkeep : KeepsAddress t e := fun _ set hh => by
      rw [hreq, ht, UsbSetupData.haltFeature, hend] at hh
      cases hh
    have hlatch : ¬t.Latches e := fun hl => hcode (ht ▸ hl.2.2.2)
    rw [run_cons, ih hrest ((step_usbReq c t e).trans (hreq.trans ht))]
    exact (quiet_reg hkeep hr hlatch).1

theorem daddr_kept_setup {d : List Byte} (hcode : (s.requestOf (.setup d)).bRequest ≠ 5#8)
    (hend : (s.requestOf (.setup d)).toEndpoint = false) {es : List Event}
    (hes : ∀ e ∈ es, e ≠ .reset ∧ ∀ d, e ≠ .setup d) :
    (run (step c) s (.setup d :: es)).usb.reg usbDaddrReg = s.usb.reg usbDaddrReg := by
  have hkeep : KeepsAddress s (.setup d) := fun _ set hh => by
    rw [UsbSetupData.haltFeature, hend] at hh
    cases hh
  have hlatch : ¬s.Latches (.setup d) := fun hl => Event.noConfusion hl.1
  rw [run_cons, daddr_kept hcode hend hes (step_usbReq c s (.setup d))]
  exact (quiet_reg hkeep Event.noConfusion hlatch).1

theorem getDescriptor_read (hw : w ≠ 0#16) :
    ∃ t, (State.port c).read 64 w.toNat (getDescriptor v i w) s =
        (match descriptor c v i with
        | some d => .data (d.take w.toNat)
        | none => .stalled, t) ∧
      t.usb.reg usbDaddrReg = s.usb.reg usbDaddrReg := by
  have hreq : s.requestOf (.setup (getDescriptor v i w)) = ⟨0x80#8, 6#8, v, i, w⟩ :=
    requestOf_setupPacket
  have htype : (s.requestOf (.setup (getDescriptor v i w))).bmRequestType = 0x80#8 := by rw [hreq]
  have hin : (s.requestOf (.setup (getDescriptor v i w))).bmRequestType &&& 0x80#8 ≠ 0#8 := by
    rw [htype]
    decide
  have hkeep : ∀ es : List Event, (∀ e ∈ es, e ≠ .reset ∧ ∀ d, e ≠ .setup d) →
      (run (step c) s (.setup (getDescriptor v i w) :: es)).usb.reg usbDaddrReg =
        s.usb.reg usbDaddrReg := by
    intro es hes
    apply daddr_kept_setup _ _ hes
    · rw [show (s.requestOf (.setup (getDescriptor v i w))).bRequest = 6#8 by rw [hreq]]
      decide
    · rw [UsbSetupData.toEndpoint, htype]
      decide
  obtain ⟨t, hv, hi, hans⟩ := answered_getDescriptor (c := c) (s := s) (v := v) (i := i) (w := w)
  have hleft := getDescriptor_holding c t
  rw [hv, hi, ← hans] at hleft
  cases hd : descriptor c v i with
  | some d =>
    rw [hd] at hleft
    obtain ⟨hcode, hhold⟩ := hleft
    have hlen : (s.requestOf (.setup (getDescriptor v i w))).wLength = w := by rw [hreq]
    have hread := read_answered (c := c) (s := s) (d := getDescriptor v i w) length_setupPacket
      hin (by rw [hlen]; exact hw) (by rw [hcode]; decide) getDescriptor_quiet
    dsimp only at hread
    rw [hlen, hhold.size, hhold.take] at hread
    refine ⟨_, hread, ?_⟩
    rw [readEvents, List.cons_append]
    apply hkeep
    simp
  | none =>
    rw [hd] at hleft
    have hrefuse : s.Refuses c (.setup (getDescriptor v i w)) :=
      .inr (.inr ⟨⟨length_setupPacket, .inr hin⟩, hleft⟩)
    exact ⟨_, read_refused hrefuse, hkeep [] (by simp)⟩

/-- A request to the device without data: SET_ADDRESS and SET_CONFIGURATION. -/
def command (r : Byte) (v : BitVec 16) : List Byte := setupPacket 0#8 r v 0#16 0#16

theorem command_write {r : Byte}
    (htaken : ∀ t : State, t.usbReq = ⟨0#8, r, v, 0#16, 0#16⟩ →
      (t.usbdStandardRequestDevice c).1 = .handled) :
    ∃ t, (State.port c).write (command r v) [] s = (.data [], t) ∧
      t.usb.reg usbDaddrReg = if r = 5#8 then
          ((v &&& usbDaddrAddr) ||| usbDaddrEf) &&& 0x00FF#16
        else s.usb.reg usbDaddrReg := by
  have hreq : s.requestOf (.setup (command r v)) = ⟨0#8, r, v, 0#16, 0#16⟩ := requestOf_setupPacket
  have htype : (s.requestOf (.setup (command r v))).bmRequestType = 0#8 := by rw [hreq]
  have hcode : (s.requestOf (.setup (command r v))).bRequest = r := by rw [hreq]
  have hend : (s.requestOf (.setup (command r v))).toEndpoint = false := by
    rw [UsbSetupData.toEndpoint, htype]
    decide
  have hans : (s.answered c (command r v)).1 = .handled := by
    let t : State :=
      { s.tookSetup (command r v) (s.usb.readSetup (command r v)) with dataoff := 0#16 }
    have ht : t.usbReq = ⟨0#8, r, v, 0#16, 0#16⟩ := hreq
    have hdfu : ¬t.usbReq.isDfu := by
      rw [UsbSetupData.isDfu, show t.usbReq.bmRequestType = 0#8 by rw [ht]]
      decide
    have hstandard : s.answered c (command r v) = t.usbdStandardRequest c :=
      State.dispatch_of_not_dfu c hdfu
    rw [hstandard, State.usbdStandardRequest, show t.usbReq.bmRequestType = 0#8 by rw [ht],
      if_neg (by decide)]
    exact htaken t ht
  have hlen : (s.requestOf (.setup (command r v))).wLength = 0#16 := by rw [hreq]
  have hcode' : (s.answered c (command r v)).1 ≠ .notsupp := by
    rw [hans]
    decide
  have hquiet : (s.requestOf (.setup (command r v))).clearsToggle = 0#16 := by
    refine if_neg fun h => ?_
    have hfeature := h.1
    rw [UsbSetupData.haltFeature, hend] at hfeature
    cases hfeature
  refine ⟨_, write_nil_answered length_setupPacket hlen hcode' hquiet, ?_⟩
  by_cases h5 : r = 5#8
  · have hfsm := setup_statusIn (c := c) (s := s) (d := command r v) length_setupPacket hlen hcode'
    have hnow : (step c s (.setup (command r v))).usbReq = ⟨0#8, r, v, 0#16, 0#16⟩ :=
      (step_usbReq c s _).trans hreq
    have hlatch : (step c s (.setup (command r v))).Latches .inComplete := by
      refine ⟨rfl, hfsm, ?_, ?_⟩
      · rw [hnow]
      · rw [hnow, h5]
    rw [if_pos h5, run_cons, run_cons, run_nil, State.step_reg_of_latches c hlatch outer_daddr,
      if_pos rfl, hnow]
  · rw [if_neg h5]
    apply daddr_kept_setup
    · rw [hcode]
      exact h5
    · exact hend
    · simp

end Read

/-! What a host makes of the descriptors. -/

/-- A 16-bit field, low byte first. -/
def field16 (d : List Byte) (off : ℕ) : BitVec 16 := d.getD (off + 1) 0#8 ++ d.getD off 0#8

/-- Descriptors packed one behind the other; each begins with its length. -/
def walk : ℕ → List Byte → List (List Byte)
  | 0, _ => []
  | _, [] => []
  | fuel + 1, len :: d =>
    if len = 0#8 then []
    else (len :: d).take len.toNat :: walk fuel ((len :: d).drop len.toNat)

def narrow : List Byte → List Byte
  | ch :: _ :: l => ch :: narrow l
  | _ => []

def readHex : List Byte → Option (List Byte)
  | [] => some []
  | [_] => none
  | h :: l :: rest => do
    let high ← digitOf 16 h
    let low ← digitOf 16 l
    let bytes ← readHex rest
    some (BitVec.ofNat 8 (16 * high + low) :: bytes)

structure Identity where
  vendor : BitVec 16
  product : BitVec 16
  attributes : Byte
  transferSize : BitVec 16
  layout : List Byte
  chip : List Byte
  deriving DecidableEq

namespace State

def ask (c : Device) (v i w : BitVec 16) : StateT State Option (List Byte) := fun s =>
  match (port c).read 64 w.toNat (getDescriptor v i w) s with
  | (.data d, s) => some (d, s)
  | _ => none

def order (c : Device) (r : Byte) (v : BitVec 16) : StateT State Option Unit := fun s =>
  match (port c).write (command r v) [] s with
  | (.data [], s) => some ((), s)
  | _ => none

end State

/-! Reading back what the device writes. -/

theorem narrow_flatMap (str : List Byte) : narrow (str.flatMap fun ch => [ch, 0#8]) = str := by
  induction str with
  | nil => rfl
  | cons ch str ih => exact congrArg (List.cons ch) ih

theorem digitOf_hcharset : ∀ n < 16, digitOf 16 (hcharset n) = some n := by decide

theorem readHex_flatMap (u : ℕ → Byte) (l : List ℕ) :
    readHex (l.flatMap fun i => [hcharset ((u i).toNat / 16), hcharset ((u i).toNat % 16)]) =
      some (l.map u) := by
  induction l with
  | nil => rfl
  | cons i l ih =>
    have hu := (u i).isLt
    have hbyte : BitVec.ofNat 8 (16 * ((u i).toNat / 16) + (u i).toNat % 16) = u i := by
      rw [Nat.div_add_mod, BitVec.ofNat_toNat, BitVec.setWidth_eq]
    rw [List.flatMap_cons, List.cons_append, List.cons_append, List.nil_append, readHex,
      digitOf_hcharset _ (by omega), digitOf_hcharset _ (by omega), ih]
    simp [hbyte]

theorem chip_getDevUniqueId (c : Device) :
    readHex ((getDevUniqueId c).drop 6) = some ((List.range 9).map c.uniqueId) := by
  have hhead : (asciiBytes "SWIND_").length = 6 := by decide
  rw [getDevUniqueId, List.drop_left' hhead]
  exact readHex_flatMap c.uniqueId _

/-- A host enumerates the device: it gives it the address `a`, follows the lengths and the string
numbers that the descriptors name, and looks for the DFU interface. -/
def enumerate (c : Device) (a : BitVec 16) : StateT State Option Identity := do
  let head ← State.ask c 0x0100#16 0#16 8#16
  State.order c 5#8 a
  let device ← State.ask c 0x0100#16 0#16 ((head.getD 0 0#8).setWidth 16)
  let head ← State.ask c 0x0200#16 0#16 9#16
  let config ← State.ask c 0x0200#16 0#16 (field16 head 2)
  State.order c 9#8 ((config.getD 5 0#8).setWidth 16)
  let parts := walk config.length config
  let interface ← (parts.find? fun d => d.getD 1 0#8 = 4#8 ∧ d.getD 5 0#8 = 0xFE#8)
  let function ← (parts.find? fun d => d.getD 1 0#8 = 0x21#8)
  let langs ← State.ask c 0x0300#16 0#16 255#16
  let layout ← State.ask c (0x0300#16 ||| (interface.getD 8 0#8).setWidth 16) (field16 langs 2)
    255#16
  let serial ← State.ask c (0x0300#16 ||| (device.getD 16 0#8).setWidth 16) (field16 langs 2) 255#16
  let chip ← readHex ((narrow (serial.drop 2)).drop 6)
  return {
    vendor := field16 device 8
    product := field16 device 10
    attributes := function.getD 2 0#8
    transferSize := field16 function 5
    layout := narrow (layout.drop 2)
    chip := chip }

def identity (c : Device) : Identity where
  vendor := 0x1d50#16
  product := 0x6031#16
  attributes := (if c.enableDfuUpload then 0x02#8 else 0#8) ||| 0x01#8 ||| 0x08#8
  transferSize := BitVec.ofNat 16 dfuTransferSize
  layout := prepareMemoryLayout c
  chip := (List.range 9).map c.uniqueId

section Steps

variable {c : Device} {s : State}

theorem bind_of_some {α β : Type} {x : StateT State Option α} {f : α → StateT State Option β}
    {t : State} {a : α} (h : x s = some (a, t)) : (x >>= f) s = f a t := by
  change (x s).bind (fun p => f p.1 p.2) = _
  rw [h]
  rfl

theorem lift_of_some {α β : Type} {x : Option α} {f : α → StateT State Option β} {a : α}
    (h : x = some a) : ((liftM x : StateT State Option α) >>= f) s = f a s := by
  rw [h]
  rfl

theorem ask_some {v i w : BitVec 16} {d : List Byte} (hd : descriptor c v i = some d)
    (hw : w ≠ 0#16) : ∃ t, State.ask c v i w s = some (d.take w.toNat, t) ∧
      t.usb.reg usbDaddrReg = s.usb.reg usbDaddrReg := by
  obtain ⟨t, hread, hkept⟩ := getDescriptor_read (c := c) (s := s) (v := v) (i := i) hw
  rw [hd] at hread
  refine ⟨t, ?_, hkept⟩
  rw [State.ask, hread]

theorem order_address {a : BitVec 16} (ha : a.toNat < 128) :
    ∃ t, State.order c 5#8 a s = some ((), t) ∧ t.usb.reg usbDaddrReg = usbDaddrEf ||| a := by
  have htaken : ∀ t : State, t.usbReq = ⟨0#8, 5#8, a, 0#16, 0#16⟩ →
      (t.usbdStandardRequestDevice c).1 = .handled := by
    intro t ht
    have hcode : t.usbReq.bRequest = 5#8 := by rw [ht]
    have hno : ¬(t.usbReq.bmRequestType ≠ 0#8 ∨ 128#16 ≤ t.usbReq.wValue) := by
      rw [ht]
      simp [BitVec.le_def]
      omega
    rw [State.usbdStandardRequestDevice, hcode]
    change (if _ then (UsbdRequestReturnCodes.notsupp, t) else (.handled, t)).1 = .handled
    rw [if_neg hno]
  obtain ⟨t, hwrite, hdaddr⟩ := command_write (s := s) htaken
  refine ⟨t, ?_, ?_⟩
  · rw [State.order, hwrite]
  · rw [hdaddr, if_pos rfl]
    exact latched_eq ha

theorem order_configuration :
    ∃ t, State.order c 9#8 bConfigurationValue s = some ((), t) ∧
      t.usb.reg usbDaddrReg = s.usb.reg usbDaddrReg := by
  have htaken : ∀ t : State, t.usbReq = ⟨0#8, 9#8, bConfigurationValue, 0#16, 0#16⟩ →
      (t.usbdStandardRequestDevice c).1 = .handled := by
    intro t ht
    have hcode : t.usbReq.bRequest = 9#8 := by rw [ht]
    have hvalue : t.usbReq.wValue = bConfigurationValue := by rw [ht]
    rw [State.usbdStandardRequestDevice, hcode]
    change (if t.usbReq.wValue = bConfigurationValue then
      (UsbdRequestReturnCodes.handled, _) else (.notsupp, t)).1 = .handled
    rw [if_pos hvalue]
  obtain ⟨t, hwrite, hdaddr⟩ := command_write (s := s) htaken
  refine ⟨t, ?_, ?_⟩
  · rw [State.order, hwrite]
  · rw [hdaddr, if_neg (by decide)]

theorem ask_string {v : BitVec 16} {str : List Byte} (h : str.length ≤ 61)
    (hd : descriptor c v usbLangidEnglishUs = some (stringDesc str)) :
    ∃ t, State.ask c v usbLangidEnglishUs 255#16 s = some (stringDesc str, t) ∧
      t.usb.reg usbDaddrReg = s.usb.reg usbDaddrReg := by
  have hall : (stringDesc str).take (255#16).toNat = stringDesc str := by
    apply List.take_of_length_le
    rw [stringDesc, List.length_cons, List.length_cons, length_utf16]
    change _ ≤ 255
    omega
  obtain ⟨t, hask, hkept⟩ := ask_some (s := s) hd (w := 255#16) (by decide)
  rw [hall] at hask
  exact ⟨t, hask, hkept⟩

theorem narrow_stringDesc (str : List Byte) : narrow ((stringDesc str).drop 2) = str :=
  narrow_flatMap str

def configPart : List Byte := [9#8, 2#8, 27#8, 0#8, 1#8, 1#8, 5#8, 0xC0#8, 0x32#8]

def interfacePart : List Byte := [9#8, 4#8, 0#8, 0#8, 0#8, 0xFE#8, 1#8, 2#8, 4#8]

def functionPart (c : Device) : List Byte :=
  [9#8, 0x21#8, (identity c).attributes, 255#8, 0#8, 0x00#8, 0x10#8, 0x1A#8, 0x01#8]

theorem walk_configDesc (c : Device) : walk (configDesc c).length (configDesc c) =
    [configPart, interfacePart, functionPart c] := rfl

end Steps

end Swindle
