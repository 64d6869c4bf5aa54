import Swindle.Machine.Bump
import Swindle.Stage2

/-! Where `_usbd_ep_setup` puts the buffers of the endpoints, and how long the hardware takes each
receive buffer to be. -/
namespace Swindle
open Machine

/-- The bytes of a receive buffer, as the hardware decodes BL_SIZE and NUM_BLOCK. -/
def rxBufferSize (count : BitVec 16) : ℕ :=
  let numBlock := (count >>> 10 &&& 0x1f#16).toNat
  if count &&& 0x8000#16 = 0#16 then 2 * numBlock else 32 * (numBlock + 1)

/-- The value that `_set_ep_rx_bufsize` stores for a size. -/
def rxBufsizeCode (size : BitVec 32) : BitVec 16 :=
  if 62#32 < size then
    let size := if size &&& 0x1f#32 ≠ 0#32 then size - 32#32 else size
    ((size <<< 5) ||| 0x8000#32).setWidth 16
  else
    let size := if size &&& 1#32 ≠ 0#32 then size + 1#32 else size
    (size <<< 10).setWidth 16

structure EpCall where
  addr : Byte
  type : Byte
  maxSize : BitVec 16
  deriving DecidableEq, Repr

namespace EpCall

def number (e : EpCall) : ℕ := (e.addr &&& 0x7f#8).toNat

/-- Endpoint 0 has both directions, whatever its direction bit. -/
def endpoint (e : EpCall) : Byte := if e.addr &&& 0x7f#8 = 0#8 then 0#8 else e.addr

def Sends (e : EpCall) : Prop := e.addr &&& 0x80#8 ≠ 0#8 ∨ e.addr &&& 0x7f#8 = 0#8

def Receives (e : EpCall) : Prop := e.addr &&& 0x80#8 = 0#8

instance (e : EpCall) : Decidable e.Sends := inferInstanceAs (Decidable (_ ∨ _))

instance (e : EpCall) : Decidable e.Receives := inferInstanceAs (Decidable (_ = _))

def total (e : EpCall) : ℕ :=
  (if e.Sends then e.maxSize.toNat else 0) + if e.Receives then e.maxSize.toNat else 0

/-- The buffers of the endpoint, as the hardware sees them. -/
def regions (u : Usb) (e : EpCall) : List Bump.Region :=
  (if e.Sends then [⟨(u.txAddr (u.entry e.number)).toNat, e.maxSize.toNat⟩] else []) ++
    if e.Receives then
      [⟨(u.rxAddr (u.entry e.number)).toNat, rxBufferSize (u.rxCount (u.entry e.number))⟩]
    else []

def requests (e : EpCall) : List Bump.Request :=
  (if e.Sends then [⟨e.maxSize.toNat, e.maxSize.toNat⟩] else []) ++
    if e.Receives then [⟨e.maxSize.toNat, rxBufferSize (rxBufsizeCode (e.maxSize.setWidth 32))⟩]
    else []

end EpCall

def setups (calls : List EpCall) (u : Usb) : Usb :=
  calls.foldl (fun u e => u.usbdEpSetup e.addr e.type e.maxSize) u

/-- Distinct endpoints out of the eight, sizes from 1 to 512, and all of it within reach of the
16-bit `usb_pm_top` (no part has more packet memory than that). -/
structure Admissible (calls : List EpCall) : Prop where
  number : ∀ e ∈ calls, e.number < 8
  distinct : (calls.map EpCall.endpoint).Nodup
  size : ∀ e ∈ calls, 1 ≤ e.maxSize.toNat ∧ e.maxSize.toNat ≤ 512
  fits : usbdPmTop.toNat + (calls.map EpCall.total).sum < 2 ^ 16

/-- The buffers are disjoint, off the buffer table, and hold what they should. -/
structure WellPlaced (u : Usb) (calls : List EpCall) : Prop where
  disjoint : (calls.flatMap (EpCall.regions u)).Pairwise Bump.Region.Disjoint
  table : ∀ r ∈ calls.flatMap (EpCall.regions u),
    Bump.Region.Disjoint ⟨0, usbdPmTop.toNat⟩ r
  holds : ∀ e ∈ calls, e.Receives →
    e.maxSize.toNat ≤ rxBufferSize (u.rxCount (u.entry e.number))

/-- The condition: every receive buffer but that of the last call has 32 bytes, and that one has
at most 62 or a multiple of 32. -/
def SizesFit (calls : List EpCall) : Prop :=
  (∀ e ∈ calls.dropLast, e.Receives → e.maxSize.toNat = 32) ∧
    ∀ e ∈ calls, e.Receives → e.maxSize.toNat ≤ 62 ∨ e.maxSize.toNat % 32 = 0

/-! The size code. -/

/-- Sizes up to 62 and multiples of 32 are decoded to at least as much, and only 32 to itself. -/
theorem rxBufferSize_code (s : BitVec 16) (h1 : 1 ≤ s.toNat) (h512 : s.toNat ≤ 512) :
    0 < rxBufferSize (rxBufsizeCode (s.setWidth 32)) ∧
      (s.toNat ≤ rxBufferSize (rxBufsizeCode (s.setWidth 32)) ↔ s.toNat ≤ 62 ∨ s.toNat % 32 = 0) ∧
      (s.toNat = 32 ↔ rxBufferSize (rxBufsizeCode (s.setWidth 32)) = s.toNat) := by
  have hall : ∀ n < 513, 1 ≤ n →
      0 < rxBufferSize (rxBufsizeCode (BitVec.ofNat 32 n)) ∧
        (n ≤ rxBufferSize (rxBufsizeCode (BitVec.ofNat 32 n)) ↔ n ≤ 62 ∨ n % 32 = 0) ∧
        (n = 32 ↔ rxBufferSize (rxBufsizeCode (BitVec.ofNat 32 n)) = n) := by
    decide +kernel
  have hs : s.setWidth 32 = BitVec.ofNat 32 s.toNat := by
    apply BitVec.eq_of_toNat_eq
    simp
  rw [hs]
  exact hall s.toNat (by omega) h1

/-! One call. -/

namespace Usb

section Halves

variable (u : Usb) (ep : ℕ) (maxSize : BitVec 16)

/-- The two halves of `_usbd_ep_setup`. -/
def setupTx : Usb :=
  let v := { u with txAddr := Function.update u.txAddr (u.entry ep) u.usbPmTop }
  { (v.clrEpTxDtog ep).setEpTxStat ep usbEpTxStatNak with usbPmTop := u.usbPmTop + maxSize }

def setupRx : Usb :=
  let v := { u with
    rxAddr := Function.update u.rxAddr (u.entry ep) u.usbPmTop
    rxCount := Function.update u.rxCount (u.entry ep) (rxBufsizeCode (maxSize.setWidth 32)) }
  { (v.clrEpRxDtog ep).setEpRxStat ep usbEpRxStatValid with usbPmTop := u.usbPmTop + maxSize }

theorem setEpRxBufsize_eq (size : BitVec 32) :
    u.setEpRxBufsize ep size =
      { u with rxCount := Function.update u.rxCount (u.entry ep) (rxBufsizeCode size) } := by
  unfold setEpRxBufsize rxBufsizeCode
  split <;> rfl

variable {u ep} (h : ep ≠ usbBtableReg) (n : ℕ)
include h

theorem setReg_entry (v : BitVec 16) : (u.setReg ep v).entry n = u.entry n := by
  rw [entry, setReg_reg_of_ne u h.symm, entry]

theorem setupTx_entry : (u.setupTx ep maxSize).entry n = u.entry n :=
  (setReg_entry h n _).trans (setReg_entry h n _)

theorem setupRx_entry : (u.setupRx ep maxSize).entry n = u.entry n :=
  (setReg_entry h n _).trans (setReg_entry h n _)

end Halves

variable (u : Usb) (e : EpCall)

theorem usbdEpSetup_eq (addr type : Byte) (maxSize : BitVec 16) :
    u.usbdEpSetup addr type maxSize =
      let ep := (addr &&& 0x7f#8).toNat
      let v := (u.setEpAddr ep ((addr &&& 0x7f#8).setWidth 16)).setEpType ep (typelookup type)
      let v := if addr &&& 0x80#8 ≠ 0#8 ∨ addr &&& 0x7f#8 = 0#8 then v.setupTx ep maxSize else v
      if addr &&& 0x80#8 = 0#8 then v.setupRx ep maxSize else v := by
  unfold usbdEpSetup
  simp only [setEpRxBufsize_eq]
  rfl

/-- What a call allocates. -/
structure SetUp (e : EpCall) (u u' : Usb) : Prop where
  entry : ∀ n, u'.entry n = u.entry n
  txAddr : u'.txAddr =
    if e.Sends then Function.update u.txAddr (u.entry e.number) u.usbPmTop else u.txAddr
  rxAddr : u'.rxAddr = if e.Receives then Function.update u.rxAddr (u.entry e.number)
    (u.usbPmTop + if e.Sends then e.maxSize else 0#16) else u.rxAddr
  rxCount : u'.rxCount = if e.Receives then Function.update u.rxCount (u.entry e.number)
    (rxBufsizeCode (e.maxSize.setWidth 32)) else u.rxCount
  pmTop : u'.usbPmTop = u.usbPmTop + (if e.Sends then e.maxSize else 0#16) +
    if e.Receives then e.maxSize else 0#16

structure SentHalf (e : EpCall) (u w : Usb) : Prop where
  entry : ∀ n, w.entry n = u.entry n
  txAddr : w.txAddr =
    if e.Sends then Function.update u.txAddr (u.entry e.number) u.usbPmTop else u.txAddr
  rxAddr : w.rxAddr = u.rxAddr
  rxCount : w.rxCount = u.rxCount
  pmTop : w.usbPmTop = u.usbPmTop + if e.Sends then e.maxSize else 0#16

theorem SentHalf.setupRx {e : EpCall} {u w : Usb} (h : SentHalf e u w)
    (hep : e.number ≠ usbBtableReg) :
    SetUp e u (if e.Receives then w.setupRx e.number e.maxSize else w) := by
  split
  · rename_i hr
    refine ⟨fun n => (setupRx_entry e.maxSize hep n).trans (h.entry n), h.txAddr, ?_, ?_, ?_⟩
    · rw [if_pos hr, ← h.entry, ← h.rxAddr, ← h.pmTop]
      rfl
    · rw [if_pos hr, ← h.entry, ← h.rxCount]
      rfl
    · rw [if_pos hr, ← h.pmTop]
      rfl
  · rename_i hr
    refine ⟨h.entry, h.txAddr, h.rxAddr.trans (if_neg hr).symm,
      h.rxCount.trans (if_neg hr).symm, ?_⟩
    rw [if_neg hr, BitVec.add_zero, h.pmTop]

theorem usbdEpSetup_setUp (h : e.number < 8) :
    SetUp e u (u.usbdEpSetup e.addr e.type e.maxSize) := by
  have hep : e.number ≠ usbBtableReg := Nat.ne_of_lt (Nat.lt_trans h (by decide))
  let v := (u.setEpAddr e.number ((e.addr &&& 0x7f#8).setWidth 16)).setEpType e.number
    (typelookup e.type)
  have hv (n : ℕ) : v.entry n = u.entry n :=
    (setReg_entry hep n _).trans (setReg_entry hep n _)
  have hhalf : SentHalf e u (if e.Sends then v.setupTx e.number e.maxSize else v) := by
    split
    · rename_i hs
      refine ⟨fun n => (setupTx_entry e.maxSize hep n).trans (hv n), ?_, rfl, rfl, ?_⟩
      · rw [if_pos hs, ← hv]
        rfl
      · rw [if_pos hs]
        rfl
    · rename_i hs
      refine ⟨hv, (if_neg hs).symm, rfl, rfl, ?_⟩
      rw [if_neg hs, BitVec.add_zero]
      rfl
  have heq : u.usbdEpSetup e.addr e.type e.maxSize = _ := u.usbdEpSetup_eq e.addr e.type e.maxSize
  rw [heq]
  exact hhalf.setupRx hep

end Usb

/-! A sequence of calls. -/

theorem setups_cons (e : EpCall) (es : List EpCall) (u : Usb) :
    setups (e :: es) u = setups es (u.usbdEpSetup e.addr e.type e.maxSize) := rfl

theorem busReset_setups (s : State) :
    s.busReset.usb = (setups [⟨0#8, 0#8, BitVec.ofNat 16 bMaxPacketSize0⟩]
      { s.usb.clrIstr usbIstrReset with usbPmTop := usbdPmTop }).setReg usbDaddrReg usbDaddrEf :=
  rfl

theorem addr_eq (a b : Byte) (hdir : a &&& 0x80#8 = b &&& 0x80#8)
    (hnum : a &&& 0x7f#8 = b &&& 0x7f#8) : a = b := by
  have hsplit : ∀ x : Byte, x = (x &&& 0x80#8) ||| (x &&& 0x7f#8) := by decide
  rw [hsplit a, hsplit b, hdir, hnum]

theorem dir_cases : ∀ a : Byte, a &&& 0x80#8 = 0#8 ∨ a &&& 0x80#8 = 0x80#8 := by decide

theorem endpoint_eq_of_sends {e e' : EpCall} (h : e.Sends) (h' : e'.Sends)
    (hnum : e.number = e'.number) : e.endpoint = e'.endpoint := by
  have hnum' : e.addr &&& 0x7f#8 = e'.addr &&& 0x7f#8 := BitVec.eq_of_toNat_eq hnum
  unfold EpCall.endpoint
  rw [← hnum']
  split
  · rfl
  · rename_i hne
    have hdir : e.addr &&& 0x80#8 = 0x80#8 :=
      (dir_cases e.addr).resolve_left (h.resolve_right hne)
    have hdir' : e'.addr &&& 0x80#8 = 0x80#8 :=
      (dir_cases e'.addr).resolve_left (h'.resolve_right (hnum' ▸ hne))
    exact addr_eq _ _ (hdir.trans hdir'.symm) hnum'

theorem endpoint_eq_of_receives {e e' : EpCall} (h : e.Receives) (h' : e'.Receives)
    (hnum : e.number = e'.number) : e.endpoint = e'.endpoint := by
  have hnum' : e.addr &&& 0x7f#8 = e'.addr &&& 0x7f#8 := BitVec.eq_of_toNat_eq hnum
  have haddr : e.addr = e'.addr := addr_eq _ _ (Eq.trans h (Eq.symm h')) hnum'
  unfold EpCall.endpoint
  rw [haddr]

/-- The buffers of the endpoint of `e` are the same in both states. -/
structure SameBuffers (e : EpCall) (u u' : Usb) : Prop where
  entry : ∀ n, u'.entry n = u.entry n
  tx : e.Sends → u'.txAddr (u.entry e.number) = u.txAddr (u.entry e.number)
  rx : e.Receives → u'.rxAddr (u.entry e.number) = u.rxAddr (u.entry e.number)
  count : e.Receives → u'.rxCount (u.entry e.number) = u.rxCount (u.entry e.number)

theorem entry_inj (u : Usb) {m n : ℕ} (h : u.entry m = u.entry n) : m = n := by
  unfold Usb.entry at h
  omega

theorem setup_sameBuffers {e e' : EpCall} (h8 : e'.number < 8) (h : e.endpoint ≠ e'.endpoint)
    (u : Usb) : SameBuffers e u (u.usbdEpSetup e'.addr e'.type e'.maxSize) := by
  have hset := u.usbdEpSetup_setUp e' h8
  refine ⟨hset.entry, ?_, ?_, ?_⟩
  · intro hs
    rw [hset.txAddr]
    split
    · rename_i hs'
      exact Function.update_of_ne
        (fun hnum => h (endpoint_eq_of_sends hs hs' (entry_inj u hnum))) _ _
    · rfl
  · intro hr
    rw [hset.rxAddr]
    split
    · rename_i hr'
      exact Function.update_of_ne
        (fun hnum => h (endpoint_eq_of_receives hr hr' (entry_inj u hnum))) _ _
    · rfl
  · intro hr
    rw [hset.rxCount]
    split
    · rename_i hr'
      exact Function.update_of_ne
        (fun hnum => h (endpoint_eq_of_receives hr hr' (entry_inj u hnum))) _ _
    · rfl

theorem setups_sameBuffers {e : EpCall} {es : List EpCall} (h8 : ∀ e ∈ es, e.number < 8)
    (h : e.endpoint ∉ es.map EpCall.endpoint) (u : Usb) : SameBuffers e u (setups es u) := by
  induction es generalizing u with
  | nil => exact ⟨fun _ => rfl, fun _ => rfl, fun _ => rfl, fun _ => rfl⟩
  | cons e' es ih =>
    rw [List.map_cons, List.mem_cons, not_or] at h
    obtain ⟨hfirst8, hrest8⟩ := List.forall_mem_cons.mp h8
    have hfirst := setup_sameBuffers hfirst8 h.1 u
    have hrest := ih hrest8 h.2 (u.usbdEpSetup e'.addr e'.type e'.maxSize)
    have hentry := hfirst.entry e.number
    refine ⟨fun n => (hrest.entry n).trans (hfirst.entry n), ?_, ?_, ?_⟩
    · intro hs
      have h' := hrest.tx hs
      rw [hentry] at h'
      exact h'.trans (hfirst.tx hs)
    · intro hr
      have h' := hrest.rx hr
      rw [hentry] at h'
      exact h'.trans (hfirst.rx hr)
    · intro hr
      have h' := hrest.count hr
      rw [hentry] at h'
      exact h'.trans (hfirst.count hr)

theorem SameBuffers.regions {e : EpCall} {u u' : Usb} (h : SameBuffers e u u') :
    e.regions u' = e.regions u := by
  unfold EpCall.regions
  by_cases hs : e.Sends <;> by_cases hr : e.Receives <;>
    simp [hs, hr, h.entry, h.tx, h.rx, h.count]

theorem rxCount_setups {calls : List EpCall} (h8 : ∀ e ∈ calls, e.number < 8)
    (hdis : (calls.map EpCall.endpoint).Nodup) (u : Usb) {e : EpCall} (he : e ∈ calls)
    (hr : e.Receives) :
    (setups calls u).rxCount ((setups calls u).entry e.number) =
      rxBufsizeCode (e.maxSize.setWidth 32) := by
  induction calls generalizing u with
  | nil => cases he
  | cons e' es ih =>
    obtain ⟨hfirst8, hrest8⟩ := List.forall_mem_cons.mp h8
    rw [List.map_cons, List.nodup_cons] at hdis
    rw [setups_cons]
    rcases List.mem_cons.mp he with rfl | he
    · have hsame := setups_sameBuffers hrest8 hdis.1 (u.usbdEpSetup e.addr e.type e.maxSize)
      have hset := u.usbdEpSetup_setUp e hfirst8
      rw [hsame.entry, hsame.count hr, hset.rxCount, if_pos hr, hset.entry, Function.update_self]
    · exact ih hrest8 hdis.2 _ he

theorem regions_setup {u : Usb} {e : EpCall} (h8 : e.number < 8)
    (h : u.usbPmTop.toNat + e.total < 2 ^ 16) :
    e.regions (u.usbdEpSetup e.addr e.type e.maxSize) =
        Bump.place u.usbPmTop.toNat e.requests ∧
      (u.usbdEpSetup e.addr e.type e.maxSize).usbPmTop.toNat = u.usbPmTop.toNat + e.total := by
  have hset := u.usbdEpSetup_setUp e h8
  rw [hset.pmTop]
  unfold EpCall.regions EpCall.requests
  rw [hset.entry, hset.txAddr, hset.rxAddr, hset.rxCount]
  unfold EpCall.total at h ⊢
  by_cases hs : e.Sends
  · by_cases hr : e.Receives
    · simp only [if_pos hs, if_pos hr] at h ⊢
      have hsum : (u.usbPmTop + e.maxSize).toNat = u.usbPmTop.toNat + e.maxSize.toNat := by
        rw [BitVec.toNat_add]
        omega
      refine ⟨?_, ?_⟩
      · simp [Bump.place, hsum]
      · rw [BitVec.toNat_add, hsum]
        omega
    · simp only [if_pos hs, if_neg hr] at h ⊢
      refine ⟨by simp [Bump.place], ?_⟩
      rw [BitVec.add_zero, BitVec.toNat_add]
      omega
  · by_cases hr : e.Receives
    · simp only [if_neg hs, if_pos hr] at h ⊢
      refine ⟨by simp [Bump.place], ?_⟩
      rw [BitVec.add_zero, BitVec.toNat_add]
      omega
    · simp only [if_neg hs, if_neg hr] at h ⊢
      exact ⟨by simp [Bump.place], by simp⟩

theorem sum_requests (e : EpCall) : (e.requests.map Bump.Request.size).sum = e.total := by
  unfold EpCall.requests EpCall.total
  split <;> split <;> simp

theorem regions_eq_place {calls : List EpCall} {u : Usb} (h8 : ∀ e ∈ calls, e.number < 8)
    (hdis : (calls.map EpCall.endpoint).Nodup)
    (hfit : u.usbPmTop.toNat + (calls.map EpCall.total).sum < 2 ^ 16) :
    calls.flatMap (EpCall.regions (setups calls u)) =
      Bump.place u.usbPmTop.toNat (calls.flatMap EpCall.requests) := by
  induction calls generalizing u with
  | nil => rfl
  | cons e es ih =>
    rw [List.map_cons, List.nodup_cons] at hdis
    rw [List.map_cons, List.sum_cons] at hfit
    obtain ⟨hfirst8, hrest8⟩ := List.forall_mem_cons.mp h8
    obtain ⟨hfirst, htop⟩ := @regions_setup u e hfirst8 (by omega)
    rw [List.flatMap_cons, List.flatMap_cons, Bump.place_append, sum_requests, setups_cons,
      (setups_sameBuffers hrest8 hdis.1 _).regions, hfirst,
      ih hrest8 hdis.2 (by rw [htop]; omega), htop]

/-- The bytes the hardware takes the receive buffer of a call to have. -/
def EpCall.used (e : EpCall) : ℕ := rxBufferSize (rxBufsizeCode (e.maxSize.setWidth 32))

theorem requests_within_iff (e : EpCall) :
    (∀ r ∈ e.requests, r.used ≤ r.size) ↔ (e.Receives → e.used ≤ e.maxSize.toNat) := by
  unfold EpCall.requests EpCall.used
  by_cases hs : e.Sends <;> by_cases hr : e.Receives <;> simp [hs, hr]

theorem requests_ne_nil (e : EpCall) : e.requests ≠ [] := by
  unfold EpCall.requests
  by_cases hr : e.Receives
  · simp [hr]
  · have hs : e.Sends := .inl hr
    simp [hs]

theorem dropLast_requests_within (e : EpCall) : ∀ r ∈ e.requests.dropLast, r.used ≤ r.size := by
  unfold EpCall.requests
  by_cases hs : e.Sends <;> by_cases hr : e.Receives <;> simp [hs, hr]

theorem dropLast_flatMap_iff (calls : List EpCall) :
    (∀ r ∈ (calls.flatMap EpCall.requests).dropLast, r.used ≤ r.size) ↔
      ∀ e ∈ calls.dropLast, e.Receives → e.used ≤ e.maxSize.toNat := by
  induction calls with
  | nil => simp
  | cons e es ih =>
    cases es with
    | nil => simpa using dropLast_requests_within e
    | cons e' es =>
      have hne : (e' :: es).flatMap EpCall.requests ≠ [] := by
        rw [List.flatMap_cons]
        simp [requests_ne_nil]
      rw [List.flatMap_cons, List.dropLast_append_of_ne_nil hne,
        List.dropLast_cons_of_ne_nil (by simp)]
      simp only [List.mem_append, List.mem_cons, or_imp, forall_and, forall_eq]
      rw [requests_within_iff, ih]

theorem requests_used_pos {e : EpCall} (h1 : 1 ≤ e.maxSize.toNat) (hused : 0 < e.used) :
    ∀ r ∈ e.requests, 0 < r.used := by
  have hpos : 0 < e.maxSize.toNat := h1
  unfold EpCall.used at hused
  unfold EpCall.requests
  by_cases hs : e.Sends <;> by_cases hr : e.Receives <;> simp [hs, hr, hpos, hused]

section Admissible

variable {calls : List EpCall} (h : Admissible calls)
include h

theorem Admissible.code {e : EpCall} (he : e ∈ calls) :
    0 < e.used ∧
      (e.maxSize.toNat ≤ e.used ↔ e.maxSize.toNat ≤ 62 ∨ e.maxSize.toNat % 32 = 0) ∧
      (e.maxSize.toNat = 32 ↔ e.used = e.maxSize.toNat) := by
  obtain ⟨h1, h512⟩ := h.size e he
  exact rxBufferSize_code e.maxSize h1 h512

theorem Admissible.used_pos : ∀ r ∈ calls.flatMap EpCall.requests, 0 < r.used := by
  intro r hr
  obtain ⟨e, he, hr⟩ := List.mem_flatMap.mp hr
  exact requests_used_pos (h.size e he).1 (h.code he).1 r hr

variable {u : Usb} (hu : u.usbPmTop = usbdPmTop)
include hu

theorem Admissible.regions_eq :
    calls.flatMap (EpCall.regions (setups calls u)) =
      Bump.place usbdPmTop.toNat (calls.flatMap EpCall.requests) := by
  rw [regions_eq_place h.number h.distinct (by rw [hu]; exact h.fits), hu]

theorem Admissible.disjoint_iff :
    (calls.flatMap (EpCall.regions (setups calls u))).Pairwise Bump.Region.Disjoint ↔
      ∀ e ∈ calls.dropLast, e.Receives → e.used ≤ e.maxSize.toNat := by
  rw [h.regions_eq hu, Bump.pairwise_disjoint_iff h.used_pos, dropLast_flatMap_iff]

theorem Admissible.off_table :
    ∀ r ∈ calls.flatMap (EpCall.regions (setups calls u)),
      Bump.Region.Disjoint ⟨0, usbdPmTop.toNat⟩ r := by
  intro r hr x hx hcov
  rw [h.regions_eq hu] at hr
  have hstart := Bump.le_start_of_mem hr
  have hlow := hcov.1
  have hhigh : x < 0 + usbdPmTop.toNat := hx.2
  omega

end Admissible

/-- After a bus reset, the buffers of a sequence of endpoints are well placed exactly if the
sizes meet the condition. -/
theorem endpoints_well_placed_iff {calls : List EpCall} (h : Admissible calls) {u : Usb}
    (hu : u.usbPmTop = usbdPmTop) : WellPlaced (setups calls u) calls ↔ SizesFit calls := by
  have hcount : ∀ e ∈ calls, e.Receives →
      rxBufferSize ((setups calls u).rxCount ((setups calls u).entry e.number)) = e.used :=
    fun e he hr => by
      rw [rxCount_setups h.number h.distinct u he hr, EpCall.used]
  constructor
  · intro hw
    have hroom := (h.disjoint_iff hu).mp hw.disjoint
    have hholds : ∀ e ∈ calls, e.Receives → e.maxSize.toNat ≤ e.used := fun e he hr => by
      rw [← hcount e he hr]
      exact hw.holds e he hr
    constructor
    · intro e he hr
      have he' := List.dropLast_subset _ he
      exact (h.code he').2.2.mpr (Nat.le_antisymm (hroom e he hr) (hholds e he' hr))
    · intro e he hr
      exact (h.code he).2.1.mp (hholds e he hr)
  · intro hs
    constructor
    · apply (h.disjoint_iff hu).mpr
      intro e he hr
      exact Nat.le_of_eq ((h.code (List.dropLast_subset _ he)).2.2.mp (hs.1 e he hr))
    · exact h.off_table hu
    · intro e he hr
      rw [hcount e he hr]
      exact (h.code he).2.1.mpr (hs.2 e he hr)

theorem endpoints_well_placed_iff_two :
    let calls : List EpCall := [⟨0x00#8, 0#8, 32#16⟩, ⟨0x01#8, 2#8, 64#16⟩]
    let u : Usb := { (State.start (fun _ => 0xFF#8) fun _ => 0#8).usb with usbPmTop := usbdPmTop }
    u.usbPmTop = usbdPmTop ∧ (WellPlaced (setups calls u) calls ↔ SizesFit calls) := by
  intro calls u
  have h : Admissible calls := ⟨by decide, by decide, by decide, by decide⟩
  exact ⟨rfl, endpoints_well_placed_iff h rfl⟩

/-- After a bus reset, which sets up endpoint 0 with 64 bytes, a bulk OUT endpoint of 64 bytes is
placed in what the hardware takes for the receive buffer of endpoint 0. -/
theorem bulk_out_overlaps :
    let s := run (step Device.stm64k) (State.start (fun _ => 0xFF#8) fun _ => 0#8) [.reset]
    let calls : List EpCall := [⟨0x00#8, 0#8, 64#16⟩, ⟨0x01#8, 2#8, 64#16⟩]
    Admissible calls ∧ ¬WellPlaced (s.usb.usbdEpSetup 0x01#8 2#8 64#16) calls := by
  intro s calls
  refine ⟨⟨by decide, by decide, by decide, by decide⟩, fun h => ?_⟩
  have hregions : calls.flatMap (EpCall.regions (s.usb.usbdEpSetup 0x01#8 2#8 64#16)) =
      [⟨0x40, 64⟩, ⟨0x80, 96⟩, ⟨0xC0, 96⟩] := by
    decide +kernel
  have hdis := h.disjoint
  rw [hregions] at hdis
  have hpair : Bump.Region.Disjoint ⟨0x80, 96⟩ ⟨0xC0, 96⟩ := by
    simp only [List.pairwise_cons] at hdis
    exact hdis.2.1 _ (by simp)
  exact hpair 0xC0 ⟨by decide, by decide⟩ ⟨by decide, by decide⟩

end Swindle
