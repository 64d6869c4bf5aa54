import Swindle.Download.Erase

/-! Where the commands of block 0 take their address from. The parser reads bytes 1 to 4 of the
program buffer, and a payload of less than five bytes leaves some of them as they were. -/
namespace Swindle
open Machine

/-- The states differ at most in what the two buffers still hold. -/
def SameButBuffers (s₁ s₂ : State) : Prop :=
  s₂ = { s₁ with
    usbdControlBuffer := s₂.usbdControlBuffer
    dfu := { s₁.dfu with prog := { s₁.dfu.prog with buf := s₂.dfu.prog.buf } } }

/-- The address that the parser finds once `data` has been copied over `buf`. -/
def commandAddress (data : List Byte) (buf : ℕ → Byte) : Addr := readU32 (blit 0 data buf) 1

def EraseHits (c : Device) (mem : Addr → Byte) (a x : Addr) : Prop :=
  addressCheck c a (BitVec.ofNat 32 dfuTransferSize) ∧
    ¬Nor.Blank (InSpan a c.getFlashPageSize) mem ∧ SamePage c a x

/-- The condition: a SETADDR takes no byte from the old buffers that they do not share, and an
ERASE hits the same cells among those that are not blank. -/
def OwnBytes (c : Device) (mem : Addr → Byte) (data : List Byte) (q₁ q₂ : ℕ → Byte) : Prop :=
  (data.head? = some cmdSetaddr → ∀ i < 5, data.length ≤ i → q₁ i = q₂ i) ∧
    (data.head? = some cmdErase → ∀ x, mem x ≠ BitVec.allOnes 8 →
      (EraseHits c mem (commandAddress data q₁) x ↔ EraseHits c mem (commandAddress data q₂) x))

/-! The address. -/

section Address

variable {data : List Byte} {q₁ q₂ : ℕ → Byte}

theorem commandAddress_inj (h0 : 0 < data.length) :
    commandAddress data q₁ = commandAddress data q₂ ↔
      ∀ i < 5, data.length ≤ i → q₁ i = q₂ i := by
  unfold commandAddress readU32
  rw [load32_inj]
  constructor
  · intro h i hi hle
    have hbyte := h (i - 1) (by omega)
    rw [show 1 + (i - 1) = i by omega, blit_zero, blit_zero, List.getD_eq_default _ _ hle,
      List.getD_eq_default _ _ hle] at hbyte
    exact hbyte
  · intro h j hj
    rw [blit_zero, blit_zero]
    by_cases hin : 1 + j < data.length
    · rw [List.getD_eq_getElem _ _ hin, List.getD_eq_getElem _ _ hin]
    · rw [List.getD_eq_default _ _ (by omega), List.getD_eq_default _ _ (by omega)]
      exact h (1 + j) (by omega) (by omega)

theorem ownBytes_of_length (c : Device) (mem : Addr → Byte) (h : 5 ≤ data.length) :
    OwnBytes c mem data q₁ q₂ := by
  have hown : ∀ i < 5, data.length ≤ i → q₁ i = q₂ i := fun i hi hle => by omega
  have haddr := (commandAddress_inj (show 0 < data.length by omega)).mpr hown
  refine ⟨fun _ => hown, fun _ x _ => ?_⟩
  rw [haddr]

end Address

/-! The operation. -/

section Operation

variable (c : Device)

theorem executeErase_cell {p : Prog} {f : Flash} (h : f.Idle false) (x : Addr) :
    (EraseHits c (wiped c f) (readU32 p.buf 1) x → (executeErase c p f).mem x = BitVec.allOnes 8) ∧
      (¬EraseHits c (wiped c f) (readU32 p.buf 1) x →
        (executeErase c p f).mem x = wiped c f x) := by
  rw [executeErase_mem c h, eraseUnlessBlank_window c (safewrite_idle c h), safewrite_mem c h]
  unfold EraseHits
  rw [← pageIsErased_iff]
  split
  · rename_i hcheck
    split
    · rename_i hb
      exact ⟨fun hx => absurd hb hx.2.1, fun _ => rfl⟩
    · rename_i hb
      unfold Nor.erase
      refine ⟨fun hx => if_pos hx.2.2, fun hx => if_neg fun hs => hx ⟨hcheck, hb, hs⟩⟩
  · rename_i hcheck
    exact ⟨fun hx => absurd hx.1 hcheck, fun _ => rfl⟩

theorem executeErase_mem_eq_iff {p₁ p₂ : Prog} {f : Flash} (h : f.Idle false) :
    (executeErase c p₁ f).mem = (executeErase c p₂ f).mem ↔
      ∀ x, wiped c f x ≠ BitVec.allOnes 8 →
        (EraseHits c (wiped c f) (readU32 p₁.buf 1) x ↔
          EraseHits c (wiped c f) (readU32 p₂.buf 1) x) := by
  rw [funext_iff]
  refine forall_congr' fun x => ?_
  obtain ⟨hyes₁, hno₁⟩ := @executeErase_cell c p₁ f h x
  obtain ⟨hyes₂, hno₂⟩ := @executeErase_cell c p₂ f h x
  by_cases hx₁ : EraseHits c (wiped c f) (readU32 p₁.buf 1) x
  · by_cases hx₂ : EraseHits c (wiped c f) (readU32 p₂.buf 1) x
    · simp [hyes₁ hx₁, hyes₂ hx₂, hx₁, hx₂]
    · simp [hyes₁ hx₁, hno₂ hx₂, hx₁, hx₂, eq_comm]
  · by_cases hx₂ : EraseHits c (wiped c f) (readU32 p₂.buf 1) x
    · simp [hno₁ hx₁, hyes₂ hx₂, hx₁, hx₂]
    · simp [hno₁ hx₁, hno₂ hx₂, hx₁, hx₂]

theorem run_command {s : State} (h : s.dfu.flash.Idle true) {data : List Byte}
    (h0 : 0 < data.length) (h4 : data.length ≤ dfuTransferSize) :
    (run (step c) s (operation 0#16 data)).dfu.flash.mem =
        (if data.head? = some cmdErase then
          (executeErase c (s.dfu.prog.download 0#16 data) (flashUnlock s.dfu.newPoll.flash)).mem
        else s.dfu.flash.mem) ∧
      (run (step c) s (operation 0#16 data)).dfu.prog.addr =
        (if data.head? = some cmdSetaddr then commandAddress data s.dfu.prog.buf
        else s.dfu.prog.addr) := by
  have hfirst : ∀ v, (s.dfu.prog.download 0#16 data).buf 0 = v ↔ data.head? = some v := by
    intro v
    change blit 0 data s.dfu.prog.buf 0 = v ↔ _
    rw [blit_zero, List.getD_eq_getElem _ _ h0, List.head?_eq_getElem?,
      List.getElem?_eq_getElem h0, Option.some.injEq]
  have hblock : (s.dfu.prog.download 0#16 data).blocknum = 0#16 := rfl
  constructor
  · rw [run_operation_mem c h 0#16 h0 h4, Prog.flashAfter, if_pos hblock]
    by_cases he : data.head? = some cmdErase
    · rw [if_pos he, if_pos ((hfirst _).mpr he)]
    · rw [if_neg he, if_neg (mt (hfirst _).mp he)]
      rfl
  · rw [run_operation c s 0#16 h0 h4]
    unfold Prog.addrAfter
    by_cases hset : data.head? = some cmdSetaddr
    · rw [if_pos hset, if_pos ⟨hblock, (hfirst _).mpr hset⟩]
      rfl
    · rw [if_neg hset, if_neg fun hb => hset ((hfirst _).mp hb.2)]
      rfl

/-- From two states that differ in old buffer contents only, a command has the same effect
exactly if the condition holds. -/
theorem command_own_bytes_iff {s₁ s₂ : State} (hs : Reachable c s₁) (heq : SameButBuffers s₁ s₂)
    {data : List Byte} (h0 : 0 < data.length) (h4 : data.length ≤ dfuTransferSize) :
    ((run (step c) s₁ (operation 0#16 data)).dfu.flash.mem =
          (run (step c) s₂ (operation 0#16 data)).dfu.flash.mem ∧
        (run (step c) s₁ (operation 0#16 data)).dfu.prog.addr =
          (run (step c) s₂ (operation 0#16 data)).dfu.prog.addr) ↔
      OwnBytes c (wiped c s₁.dfu.flash) data s₁.dfu.prog.buf s₂.dfu.prog.buf := by
  have hflash : s₂.dfu.flash = s₁.dfu.flash := by rw [heq]
  have haddr : s₂.dfu.prog.addr = s₁.dfu.prog.addr := by rw [heq]
  have hlock : s₂.dfu.flash.Idle true := hflash ▸ hs.locked
  have hunlock : flashUnlock s₂.dfu.newPoll.flash = flashUnlock s₁.dfu.newPoll.flash := by
    change flashUnlock { s₂.dfu.flash with ops := [] } = flashUnlock { s₁.dfu.flash with ops := [] }
    rw [hflash]
  have hidle : (flashUnlock s₁.dfu.newPoll.flash).Idle false := Flash.idle_unlock hs.locked
  obtain ⟨hmem₁, haddr₁⟩ := run_command c hs.locked h0 h4
  obtain ⟨hmem₂, haddr₂⟩ := run_command c hlock h0 h4
  rw [hmem₁, hmem₂, haddr₁, haddr₂, hflash, haddr, hunlock, and_comm, OwnBytes]
  refine and_congr ?_ ?_
  · by_cases hset : data.head? = some cmdSetaddr
    · simp only [hset, forall_const]
      exact commandAddress_inj h0
    · simp [hset]
  · by_cases he : data.head? = some cmdErase
    · simp only [he, forall_const]
      exact executeErase_mem_eq_iff c hidle
    · simp [he]

end Operation

/-- The same state, had the downloads so far been zeros. -/
def State.zeroBuf (s : State) : State :=
  { s with dfu := { s.dfu with prog := { s.dfu.prog with buf := fun _ => 0#8 } } }

theorem State.sameButBuffers_zeroBuf (s : State) : SameButBuffers s s.zeroBuf := rfl

theorem command_own_bytes_iff_left_over :
    let s := run (step Device.stm64k) (State.start (fun _ => 0x55#8) fun _ => 0#8)
      (operation 0#16 [0x00#8, 0x00#8, 0x28#8, 0x00#8, 0x08#8])
    SameButBuffers s s.zeroBuf ∧ s.dfu.prog.buf 2 ≠ s.zeroBuf.dfu.prog.buf 2 ∧
      ((run (step Device.stm64k) s (operation 0#16 [cmdErase])).dfu.flash.mem =
            (run (step Device.stm64k) s.zeroBuf (operation 0#16 [cmdErase])).dfu.flash.mem ∧
          (run (step Device.stm64k) s (operation 0#16 [cmdErase])).dfu.prog.addr =
            (run (step Device.stm64k) s.zeroBuf (operation 0#16 [cmdErase])).dfu.prog.addr ↔
        OwnBytes Device.stm64k (wiped Device.stm64k s.dfu.flash) [cmdErase] s.dfu.prog.buf
          s.zeroBuf.dfu.prog.buf) := by
  intro s
  have hs : Reachable Device.stm64k s := ⟨_, _, operation 0#16 _, rfl⟩
  have heq := s.sameButBuffers_zeroBuf
  have hne : s.dfu.prog.buf 2 ≠ 0#8 := by decide +kernel
  exact ⟨heq, hne, command_own_bytes_iff Device.stm64k hs heq (by decide) (by decide)⟩

/-- A download that does nothing leaves an address behind, and a one-byte 0x41 erases the page
there; with zeros left behind it erases nothing. -/
theorem mass_erase_takes_old_address :
    let c := Device.stm64k
    let s := run (step c) (State.start (fun _ => 0x55#8) fun _ => 0#8)
      (operation 0#16 [0x00#8, 0x00#8, 0x28#8, 0x00#8, 0x08#8])
    SameButBuffers s s.zeroBuf ∧
      (run (step c) s (operation 0#16 [cmdErase])).dfu.flash.mem ≠
        (run (step c) s.zeroBuf (operation 0#16 [cmdErase])).dfu.flash.mem := by
  dsimp only
  refine ⟨State.sameButBuffers_zeroBuf _, fun h => ?_⟩
  have hcell := congrFun h 0x08002800#32
  exact absurd hcell (by decide +kernel)

end Swindle
