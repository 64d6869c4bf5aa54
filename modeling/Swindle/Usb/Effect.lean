import Swindle.Usb.Overread

/-! A standard request as its SETUP packet decides it: the result code, the change to the
registers, the response length and the bytes put in the buffer. -/
namespace Swindle
open Machine

namespace UsbSetupData

def endpoint (req : UsbSetupData) : Byte := req.wIndex.setWidth 8

def toEndpoint (req : UsbSetupData) : Bool :=
  req.bmRequestType &&& 0x60#8 = 0#8 && req.bmRequestType &&& 0x1F#8 = 2#8

def haltFeature (set : Bool) (req : UsbSetupData) : Bool :=
  req.toEndpoint && req.bRequest = (if set then 3#8 else 1#8) && req.wValue = 0#16

def haltStatus (req : UsbSetupData) : Bool := req.toEndpoint && req.bRequest = 0#8

end UsbSetupData

def Usb.configure (u : Usb) : Usb :=
  { State.resetEndpoints u with usbPmTop := usbdPmTop + 2#16 * BitVec.ofNat 16 bMaxPacketSize0 }

/-- `datasize` is `none` where the request leaves the response length alone. -/
structure Effect where
  code : UsbdRequestReturnCodes
  usb : Usb → Usb
  datasize : Option (BitVec 16)
  writes : Usb → List (ℕ × List Byte)

namespace Effect

def fill (w : List (ℕ × List Byte)) (b : ℕ → Byte) : ℕ → Byte :=
  w.foldl (fun b p => blit p.1 p.2 b) b

def apply (x : Effect) (s : State) : State :=
  { s with
    usb := x.usb s.usb
    datasize := x.datasize.getD s.datasize
    usbdControlBuffer := fill (x.writes s.usb) s.usbdControlBuffer }

/-- The handler `h` treats all states alike that hold the request `req`. -/
structure Decides (x : Effect) (req : UsbSetupData)
    (h : State → UsbdRequestReturnCodes × State) : Prop where
  eq : ∀ s : State, s.usbReq = req → h s = (x.code, x.apply s)
  kept : x.datasize = none → x.code = .notsupp ∨ req.keepsDatasize ∨ req.bmRequestType = 0#8
  regs : x.usb = id ∨ x.usb = Usb.configure ∨
    ∃ set, req.haltFeature set ∧ x.usb = Usb.epStallSet req.endpoint set
  status : ∀ u v : Usb, (req.haltStatus → u.epStallGet req.endpoint = v.epStallGet req.endpoint) →
    x.writes u = x.writes v
  quiet : x.code = .notsupp → x.usb = id

def refusal (n : Option (BitVec 16)) (w : List (ℕ × List Byte)) : Effect :=
  ⟨.notsupp, id, n, fun _ => w⟩

def answer (n : BitVec 16) (w : List (ℕ × List Byte)) : Effect :=
  ⟨.handled, id, some n, fun _ => w⟩

variable {req : UsbSetupData} {h : State → UsbdRequestReturnCodes × State}

theorem decides_refusal {n : Option (BitVec 16)} {w : List (ℕ × List Byte)}
    (heq : ∀ s : State, s.usbReq = req → h s = (.notsupp, (refusal n w).apply s)) :
    (refusal n w).Decides req h :=
  ⟨heq, fun _ => .inl rfl, .inl rfl, fun _ _ _ => rfl, fun _ => rfl⟩

theorem decides_answer {n : BitVec 16} {w : List (ℕ × List Byte)}
    (heq : ∀ s : State, s.usbReq = req → h s = (.handled, (answer n w).apply s)) :
    (answer n w).Decides req h := ⟨heq, nofun, .inl rfl, fun _ _ _ => rfl, nofun⟩

end Effect

section Decides

open Effect

variable (c : Device) (req : UsbSetupData)

theorem decides_stringDescriptor (h1 : ¬req.wValue.toNat / 256 = usbDtDevice)
    (h2 : ¬req.wValue.toNat / 256 = usbDtConfiguration)
    (h3 : req.wValue.toNat / 256 = usbDtString) :
    ∃ x : Effect, x.Decides req (State.usbStandardGetDescriptor c) := by
  by_cases h0 : req.wValue.toNat % 256 = 0
  · refine ⟨_, decides_answer (n := 4#16) (w := [(1, [BitVec.ofNat 8 usbDtString]),
      (2, [leByte usbLangidEnglishUs 0, leByte usbLangidEnglishUs 1]), (0, [4#8])]) ?_⟩
    rintro s rfl
    exact (if_neg h1).trans ((if_neg h2).trans ((if_pos h3).trans (if_pos h0)))
  cases hstr : (usbStrings c)[req.wValue.toNat % 256 - 1]? with
  | none =>
    refine ⟨_, decides_refusal (n := none) (w := [(1, [BitVec.ofNat 8 usbDtString])]) ?_⟩
    rintro s rfl
    rw [State.usbStandardGetDescriptor, if_neg h1, if_neg h2, if_pos h3, if_neg h0, hstr]
    rfl
  | some str =>
    by_cases hl : req.wIndex = usbLangidEnglishUs
    · let bLength := BitVec.ofNat 8 (str.length * 2 + 2)
      refine ⟨_, decides_answer (n := bLength.setWidth 16)
        (w := [(1, [BitVec.ofNat 8 usbDtString]), (0, [bLength]),
          (2, str.flatMap fun ch => [ch, 0#8])]) ?_⟩
      rintro s rfl
      rw [State.usbStandardGetDescriptor, if_neg h1, if_neg h2, if_pos h3, if_neg h0, hstr]
      exact if_neg (not_not.mpr hl)
    · refine ⟨_, decides_refusal (n := none) (w := [(1, [BitVec.ofNat 8 usbDtString])]) ?_⟩
      rintro s rfl
      rw [State.usbStandardGetDescriptor, if_neg h1, if_neg h2, if_pos h3, if_neg h0, hstr]
      exact if_pos hl

theorem decides_getDescriptor : ∃ x : Effect, x.Decides req (State.usbStandardGetDescriptor c) := by
  by_cases h1 : req.wValue.toNat / 256 = usbDtDevice
  · refine ⟨_, decides_answer (n := BitVec.ofNat 16 devDesc.length) (w := [(0, devDesc)]) ?_⟩
    rintro s rfl
    exact if_pos h1
  by_cases h2 : req.wValue.toNat / 256 = usbDtConfiguration
  · refine ⟨_, decides_answer (n := BitVec.ofNat 16 (configDesc c).length)
      (w := [(0, configDesc c)]) ?_⟩
    rintro s rfl
    exact (if_neg h1).trans (if_pos h2)
  by_cases h3 : req.wValue.toNat / 256 = usbDtString
  · exact decides_stringDescriptor c req h1 h2 h3
  · refine ⟨_, decides_refusal (n := none) (w := []) ?_⟩
    rintro s rfl
    exact (if_neg h1).trans ((if_neg h2).trans (if_neg h3))

theorem decides_device (ht : req.bmRequestType &&& 0x60#8 = 0#8)
    (hr : req.bmRequestType &&& 0x1F#8 = 0#8) :
    ∃ x : Effect, x.Decides req (State.usbdStandardRequestDevice c) := by
  by_cases h5 : req.bRequest = 5#8
  · have hdef : ∀ s : State, s.usbReq = req → s.usbdStandardRequestDevice c =
        if req.bmRequestType ≠ 0#8 ∨ 128#16 ≤ req.wValue then (.notsupp, s) else (.handled, s) := by
      rintro s rfl
      rw [State.usbdStandardRequestDevice, h5]
      rfl
    by_cases hv : req.bmRequestType ≠ 0#8 ∨ 128#16 ≤ req.wValue
    · exact ⟨_, decides_refusal (n := none) (w := []) fun s hs => (hdef s hs).trans (if_pos hv)⟩
    · have h0 : req.bmRequestType = 0#8 := not_not.mp (not_or.mp hv).1
      exact ⟨⟨.handled, id, none, fun _ => []⟩, fun s hs => (hdef s hs).trans (if_neg hv),
        fun _ => .inr (.inr h0), .inl rfl, fun _ _ _ => rfl,
        fun h => UsbdRequestReturnCodes.noConfusion h⟩
  by_cases h9 : req.bRequest = 9#8
  · have hdef : ∀ s : State, s.usbReq = req → s.usbdStandardRequestDevice c =
        if req.wValue = bConfigurationValue then (.handled, s.mapUsb Usb.configure)
        else (.notsupp, s) := by
      rintro s rfl
      rw [State.usbdStandardRequestDevice, h9]
      rfl
    by_cases hv : req.wValue = bConfigurationValue
    · have hv' : req.wValue = 1#16 := hv
      have hkeep : req.keepsDatasize := by
        simp [UsbSetupData.keepsDatasize, ht, hr, h9, hv']
      exact ⟨⟨.handled, Usb.configure, none, fun _ => []⟩,
        fun s hs => (hdef s hs).trans (if_pos hv), fun _ => .inr (.inl hkeep), .inr (.inl rfl),
        fun _ _ _ => rfl, fun h => UsbdRequestReturnCodes.noConfusion h⟩
    · exact ⟨_, decides_refusal (n := none) (w := []) fun s hs => (hdef s hs).trans (if_neg hv)⟩
  by_cases h8 : req.bRequest = 8#8
  · refine ⟨_, decides_answer (n := 1#16) (w := [(0, [1#8])]) ?_⟩
    rintro s rfl
    rw [State.usbdStandardRequestDevice, h8]
    rfl
  by_cases h6 : req.bRequest = 6#8
  · obtain ⟨x, hx⟩ := decides_getDescriptor c req
    refine ⟨x, ?_, hx.kept, hx.regs, hx.status, hx.quiet⟩
    rintro s rfl
    rw [← hx.eq s rfl, State.usbdStandardRequestDevice, h6]
    rfl
  by_cases h0 : req.bRequest = 0#8
  · refine ⟨_, decides_answer (n := 2#16) (w := [(0, [0#8, 0#8])]) ?_⟩
    rintro s rfl
    rw [State.usbdStandardRequestDevice, h0]
    rfl
  · refine ⟨_, decides_refusal (n := none) (w := []) ?_⟩
    rintro s rfl
    unfold State.usbdStandardRequestDevice
    split <;> first | rfl | exact absurd (eq_ofNat_of_toNat ‹_›) (by assumption)

theorem decides_interface :
    ∃ x : Effect, x.Decides req State.usbdStandardRequestInterface := by
  by_cases h10 : req.bRequest = 10#8
  · refine ⟨_, decides_answer (n := 1#16) (w := [(0, [1#8])]) ?_⟩
    rintro s rfl
    rw [State.usbdStandardRequestInterface, h10]
    rfl
  by_cases h11 : req.bRequest = 11#8
  · refine ⟨_, decides_answer (n := 0#16) (w := []) ?_⟩
    rintro s rfl
    rw [State.usbdStandardRequestInterface, h11]
    rfl
  by_cases h0 : req.bRequest = 0#8
  · refine ⟨_, decides_refusal (n := some 2#16) (w := [(0, [0#8, 0#8])]) ?_⟩
    rintro s rfl
    rw [State.usbdStandardRequestInterface, h0]
    rfl
  · refine ⟨_, decides_refusal (n := none) (w := []) ?_⟩
    rintro s rfl
    unfold State.usbdStandardRequestInterface
    split <;> first | rfl | exact absurd (eq_ofNat_of_toNat ‹_›) (by assumption)

theorem decides_endpoint (he : req.toEndpoint) :
    ∃ x : Effect, x.Decides req State.usbdStandardRequestEndpoint := by
  have ht : req.bmRequestType &&& 0x60#8 = 0#8 ∧ req.bmRequestType &&& 0x1F#8 = 2#8 := by
    simpa [UsbSetupData.toEndpoint] using he
  have hfeature : ∀ set, req.bRequest = (if set then 3#8 else 1#8) →
      ∃ x : Effect, x.Decides req (State.endpointFeature set) := by
    intro set hb
    by_cases hv : req.wValue = 0#16
    · have hhalt : req.haltFeature set := by simp [UsbSetupData.haltFeature, he, hb, hv]
      have hkeep : req.keepsDatasize := by
        cases set <;> simp [UsbSetupData.keepsDatasize, ht, hb, hv]
      refine ⟨⟨.handled, Usb.epStallSet req.endpoint set, none, fun _ => []⟩, ?_,
        fun _ => .inr (.inl hkeep), .inr (.inr ⟨set, hhalt, rfl⟩), fun _ _ _ => rfl,
        fun h => UsbdRequestReturnCodes.noConfusion h⟩
      rintro s rfl
      exact if_pos hv
    · refine ⟨_, decides_refusal (n := none) (w := []) ?_⟩
      rintro s rfl
      exact if_neg hv
  by_cases h1 : req.bRequest = 1#8
  · obtain ⟨x, hx⟩ := hfeature false h1
    refine ⟨x, ?_, hx.kept, hx.regs, hx.status, hx.quiet⟩
    rintro s rfl
    rw [← hx.eq s rfl, State.usbdStandardRequestEndpoint, h1]
    rfl
  by_cases h3 : req.bRequest = 3#8
  · obtain ⟨x, hx⟩ := hfeature true h3
    refine ⟨x, ?_, hx.kept, hx.regs, hx.status, hx.quiet⟩
    rintro s rfl
    rw [← hx.eq s rfl, State.usbdStandardRequestEndpoint, h3]
    rfl
  by_cases h0 : req.bRequest = 0#8
  · have hstatus : req.haltStatus := by simp [UsbSetupData.haltStatus, he, h0]
    refine ⟨⟨.handled, id, some 2#16,
      fun u => [(0, [if u.epStallGet req.endpoint then 1#8 else 0#8, 0#8])]⟩, ?_,
      fun h => absurd h (Option.some_ne_none _), .inl rfl, ?_,
      fun h => UsbdRequestReturnCodes.noConfusion h⟩
    · rintro s rfl
      rw [State.usbdStandardRequestEndpoint, h0]
      rfl
    · intro u v h
      dsimp only
      rw [h hstatus]
  · refine ⟨_, decides_refusal (n := none) (w := []) ?_⟩
    rintro s rfl
    unfold State.usbdStandardRequestEndpoint
    split <;> first | rfl | exact absurd (eq_ofNat_of_toNat ‹_›) (by assumption)

theorem decides_standard : ∃ x : Effect, x.Decides req (State.usbdStandardRequest c) := by
  by_cases ht : req.bmRequestType &&& 0x60#8 = 0#8
  swap
  · refine ⟨_, decides_refusal (n := none) (w := []) ?_⟩
    rintro s rfl
    exact if_pos ht
  have hdef : ∀ h : State → UsbdRequestReturnCodes × State,
      (∀ s : State, s.usbReq = req → s.usbdStandardRequest c = h s) →
      (∃ x : Effect, x.Decides req h) →
      ∃ x : Effect, x.Decides req (State.usbdStandardRequest c) := by
    rintro h hh ⟨x, hx⟩
    exact ⟨x, fun s hs => (hh s hs).trans (hx.eq s hs), hx.kept, hx.regs, hx.status, hx.quiet⟩
  by_cases h0 : req.bmRequestType &&& 0x1F#8 = 0#8
  · refine hdef _ ?_ (decides_device c req ht h0)
    rintro s rfl
    rw [State.usbdStandardRequest, if_neg (not_not.mpr ht), h0]
    rfl
  by_cases h1 : req.bmRequestType &&& 0x1F#8 = 1#8
  · refine hdef _ ?_ (decides_interface req)
    rintro s rfl
    rw [State.usbdStandardRequest, if_neg (not_not.mpr ht), h1]
    rfl
  by_cases h2 : req.bmRequestType &&& 0x1F#8 = 2#8
  · have he : req.toEndpoint := by simp [UsbSetupData.toEndpoint, ht, h2]
    refine hdef _ ?_ (decides_endpoint req he)
    rintro s rfl
    rw [State.usbdStandardRequest, if_neg (not_not.mpr ht), h2]
    rfl
  · refine ⟨_, decides_refusal (n := none) (w := []) ?_⟩
    rintro s rfl
    unfold State.usbdStandardRequest
    rw [if_neg (not_not.mpr ht)]
    split <;> first | rfl | exact absurd (eq_ofNat_of_toNat ‹_›) (by assumption)

end Decides

end Swindle
