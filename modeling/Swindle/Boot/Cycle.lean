import Swindle.Boot.Image
import Swindle.Boot.Start
import Swindle.Dfu.Guard
import Swindle.Session.Update

/-! The board from reset to reset. Stage 1 decides by the marker that the application has left in
RAM, by the pin and by the image; either the application runs until the next reset or stage 2
does. -/
namespace Swindle
open Machine

def read64 (ram : Addr → Byte) (a : Addr) : BitVec 64 := read32 ram (a + 4#32) ++ read32 ram a

def putWords (a : Addr) (v : BitVec 64) (ram : Addr → Byte) : Addr → Byte :=
  putWord (a + 4#32) (v.extractLsb' 32 32) (putWord a (v.extractLsb' 0 32) ram)

def rebootIntoBootloader (ram : Addr → Byte) : Addr → Byte :=
  putWords ramStartAddr 0xDEADBEEFCC00FFEE#64 ram

def clearRebootFlags (ram : Addr → Byte) : Addr → Byte := putWords ramStartAddr 0#64 ram

/-- `stage2_payload`, whose vector table begins with `__msp_init - 4`. -/
structure Payload where
  bytes : List Byte
  msp : bytes.take 4 = [0xFC#8, 0x4F#8, 0x00#8, 0x20#8]

structure Firmware where
  layout : Layout
  libcInitArray : (Addr → Byte) → Addr → Byte
  payload : Payload
  crc : CrcUnit
  device : Device

structure Board where
  flash : Addr → Byte
  ram : Addr → Byte

/-- `memcpy(stage2_ram, stage2_payload, stage2_payload_size)`. -/
def Payload.copy (p : Payload) (ram : Addr → Byte) : Addr → Byte := fun x =>
  if InSpan ramStartAddr p.bytes.length x then p.bytes.getD (x - ramStartAddr).toNat 0#8 else ram x

namespace Board

/-- A reset, up to the jump through `chainTo`. -/
def reset (f : Firmware) (pb14 : Bool) (b : Board) : Boot × Board :=
  let ram := startC f.layout f.libcInitArray b.flash b.ram
  let r := main f.crc b.flash { marker := read64 ram ramStartAddr, pb14 := pb14 }
  let ram := clearRebootFlags ram
  (r, { b with ram := if r.goDfu = 0#32 then ram else f.payload.copy ram })

end Board

/-- From one reset to the next: the pin, what the application leaves if it is started, and what the
host does and the RAM holds if stage 2 is. -/
structure Turn where
  pb14 : Bool
  app : Board
  acts : List Act
  scratch : Addr → Byte
  behind : ℕ → Byte

def Loop.flash : Loop → Addr → Byte
  | polling s => s.dfu.flash.mem
  | fullSystemReset s => s.dfu.flash.mem

/-- The device when the session of a turn is over, or cut off. -/
def Turn.session (f : Firmware) (t : Turn) (mem : Addr → Byte) : Reply Byte × Loop :=
  run (Act.perform f.device) (.noAnswer, .polling (State.start mem t.behind)) t.acts

namespace Board

/-- `stage2_entry`. Its variables lie behind the vector table. -/
def stage2 (f : Firmware) (t : Turn) (b : Board) : Board where
  flash := (t.session f b.flash).2.flash
  ram x := if InSpan ramStartAddr 8 x then b.ram x else t.scratch x

/-- One turn, and where it has chained to. -/
def turn (f : Firmware) (p : Addr × Board) (t : Turn) : Addr × Board :=
  let (r, b) := p.2.reset f t.pb14
  (r.chainTo, if r.goDfu = 0#32 then t.app else b.stage2 f t)

end Board

/-! What a boot depends on. -/

/-- The flash, and whether DFU has been asked for. -/
structure Station where
  flash : Addr → Byte
  asked : Bool

def Board.station (b : Board) : Station where
  flash := b.flash
  asked := rebootedIntoDfu (read64 b.ram ramStartAddr)

/-- The image in the flash is taken for an application. -/
def Accepts (crc : CrcUnit) (mem : Addr → Byte) : Prop :=
  StackInRam mem ∧ (checkImage crc mem).1 = 0#32

instance (crc : CrcUnit) (mem : Addr → Byte) : Decidable (Accepts crc mem) :=
  inferInstanceAs (Decidable (_ ∧ _))

/-- A turn as a user sees it: DFU runs once when it is asked for, by the application or by the pin,
and as long as there is no application. -/
def Station.turn (f : Firmware) (p : Addr × Station) (t : Turn) : Addr × Station :=
  if p.2.asked ∨ t.pb14 = false ∨ ¬Accepts f.crc p.2.flash then
    (ramStartAddr, { flash := (t.session f p.2.flash).2.flash, asked := false })
  else (appAddress, t.app.station)

/-! The marker. -/

section Marker

variable {ram ram' : Addr → Byte} {a : Addr}

theorem load32_leByte (v : BitVec 32) : load32 (leByte v) 0 = v := by
  apply BitVec.eq_of_getLsbD_eq
  intro k hk
  simp only [load32, leByte, BitVec.getLsbD_append, BitVec.getLsbD_extractLsb', Nat.zero_add]
  split_ifs <;> simp <;> grind

theorem read32_congr
    (h : ∀ j < 4, ram (a + BitVec.ofNat 32 j) = ram' (a + BitVec.ofNat 32 j)) :
    read32 ram a = read32 ram' a :=
  load32_inj.mpr fun j hj => by simpa using h j hj

theorem read32_putWord (a : Addr) (v : BitVec 32) (ram : Addr → Byte) :
    read32 (putWord a v ram) a = v := by
  conv_rhs => rw [← load32_leByte v]
  apply load32_inj.mpr
  intro j hj
  rw [Nat.zero_add, putWord_byte hj]

theorem read64_putWords (ram : Addr → Byte) (v : BitVec 64) :
    read64 (putWords ramStartAddr v ram) ramStartAddr = v := by
  have hlow : read32 (putWords ramStartAddr v ram) ramStartAddr = v.extractLsb' 0 32 := by
    rw [← read32_putWord ramStartAddr (v.extractLsb' 0 32) ram]
    apply read32_congr
    intro j hj
    apply putWord_of_not
    have hstart : ramStartAddr.toNat = 0x20000000 := rfl
    simp only [InSpan, BitVec.toNat_sub, BitVec.toNat_add, BitVec.toNat_ofNat, hstart]
    omega
  rw [read64, hlow, putWords, read32_putWord]
  exact BitVec.extractLsb'_append_extractLsb'

theorem read64_congr
    (h : ∀ i < 8, ram (ramStartAddr + BitVec.ofNat 32 i) =
      ram' (ramStartAddr + BitVec.ofNat 32 i)) :
    read64 ram ramStartAddr = read64 ram' ramStartAddr := by
  have hlow : read32 ram ramStartAddr = read32 ram' ramStartAddr :=
    read32_congr fun j hj => h j (by omega)
  have hhigh : read32 ram (ramStartAddr + 4#32) = read32 ram' (ramStartAddr + 4#32) := by
    apply read32_congr
    intro j hj
    rw [BitVec.add_assoc, ← BitVec.ofNat_add]
    exact h (4 + j) (by omega)
  rw [read64, read64, hlow, hhigh]

theorem asked_rebootIntoBootloader (mem ram : Addr → Byte) :
    (Board.mk mem (rebootIntoBootloader ram)).station.asked = true := by
  unfold Board.station rebootIntoBootloader rebootedIntoDfu
  simp [read64_putWords]

theorem Payload.copy_byte (p : Payload) (ram : Addr → Byte) {j : ℕ} (hj : j < 4) :
    p.copy ram (ramStartAddr + BitVec.ofNat 32 j) =
      [0xFC#8, 0x4F#8, 0x00#8, 0x20#8].getD j 0#8 := by
  have hoff : (ramStartAddr + BitVec.ofNat 32 j - ramStartAddr).toNat = j := by
    rw [BitVec.add_comm, BitVec.add_sub_cancel, BitVec.toNat_ofNat]
    omega
  have hlen : 4 ≤ p.bytes.length := by
    have h4 : (p.bytes.take 4).length = 4 := by
      rw [p.msp]
      rfl
    rw [List.length_take] at h4
    omega
  have hbyte : p.bytes.getD j 0#8 = (p.bytes.take 4).getD j 0#8 := by
    simp [List.getD_eq_getElem?_getD, hj]
  have hspan : InSpan ramStartAddr p.bytes.length (ramStartAddr + BitVec.ofNat 32 j) := by
    rw [InSpan, hoff]
    omega
  rw [Payload.copy, if_pos hspan, hoff, hbyte, p.msp]

theorem rebootedIntoDfu_of_msp
    (h : ∀ j < 4, ram (ramStartAddr + BitVec.ofNat 32 j) =
      [0xFC#8, 0x4F#8, 0x00#8, 0x20#8].getD j 0#8) :
    rebootedIntoDfu (read64 ram ramStartAddr) = false := by
  have hlow : read32 ram ramStartAddr = 0x20004FFC#32 := by
    rw [read32, load32, h 0 (by decide), h 1 (by decide), h 2 (by decide), h 3 (by decide)]
    decide
  have hword : (read64 ram ramStartAddr).setWidth 32 = 0x20004FFC#32 := by
    rw [read64, BitVec.setWidth_append_eq_right, hlow]
  apply decide_eq_false
  intro hmarker
  rw [hmarker] at hword
  exact absurd hword (by decide)

end Marker

/-! One turn. -/

section Turn

variable (f : Firmware) (b : Board) (t : Turn)

theorem main_chainTo_eq (crc : CrcUnit) (mem : Addr → Byte) (r : ResetState) :
    (main crc mem r).chainTo =
      if (main crc mem r).goDfu = 0#32 then appAddress else ramStartAddr := by
  have happ : appAddress &&& ~~~0xF#32 = appAddress := by decide
  unfold main
  simp only [happ]

theorem main_goDfu_iff (crc : CrcUnit) (mem : Addr → Byte) (r : ResetState) :
    (main crc mem r).goDfu = 0#32 ↔ ¬r.Forced ∧ Accepts crc mem := by
  have hne : appAddress ≠ ramStartAddr := by decide
  have hgo : (main crc mem r).goDfu = 0#32 ↔ (main crc mem r).chainTo = appAddress := by
    rw [main_chainTo_eq]
    simp [hne.symm]
  rw [hgo]
  by_cases hs : r.Forced ∨ ¬StackInRam mem
  · rw [(main_of_skipped crc mem r hs).2]
    constructor
    · exact fun h => absurd h.symm hne
    · rintro ⟨hf, hstack, -⟩
      exact absurd hstack (hs.resolve_left hf)
  · obtain ⟨hf, hstack⟩ := not_or.mp hs
    have hstack' : StackInRam mem := not_not.mp hstack
    rw [(main_of_checked crc mem r hf hstack').2, Accepts]
    simp [hf, hstack', hne.symm]

theorem read64_startC (l : Layout) (init : (Addr → Byte) → Addr → Byte) (rom ram : Addr → Byte) :
    read64 (startC l init rom ram) ramStartAddr = read64 ram ramStartAddr :=
  read64_congr fun _ hi => startC_kept l init rom ram hi

theorem reset_goDfu_iff (pb14 : Bool) :
    (b.reset f pb14).1.goDfu = 0#32 ↔
      ¬(b.station.asked ∨ pb14 = false ∨ ¬Accepts f.crc b.flash) := by
  have hread := read64_startC f.layout f.libcInitArray b.flash b.ram
  have hgo : (b.reset f pb14).1.goDfu = 0#32 ↔
      ¬ResetState.Forced ⟨read64 b.ram ramStartAddr, pb14⟩ ∧ Accepts f.crc b.flash := by
    rw [← hread]
    exact main_goDfu_iff _ _ _
  have hforced : ResetState.Forced ⟨read64 b.ram ramStartAddr, pb14⟩ ↔
      b.station.asked ∨ pb14 = false := or_congr_left decide_eq_true_iff.symm
  rw [hgo, hforced, ← or_assoc, not_or (q := ¬_), not_not]

theorem stage2_station (pb14 : Bool) (h : (b.reset f pb14).1.goDfu ≠ 0#32) :
    ((b.reset f pb14).2.stage2 f t).station =
      { flash := (t.session f b.flash).2.flash, asked := false } := by
  have hram : (b.reset f pb14).2.ram =
      f.payload.copy (clearRebootFlags (startC f.layout f.libcInitArray b.flash b.ram)) := if_neg h
  unfold Board.station
  congr 1
  apply rebootedIntoDfu_of_msp
  intro j hj
  have hspan : InSpan ramStartAddr 8 (ramStartAddr + BitVec.ofNat 32 j) := by
    rw [InSpan, BitVec.add_comm, BitVec.add_sub_cancel, BitVec.toNat_ofNat]
    omega
  have hcell : ((b.reset f pb14).2.stage2 f t).ram (ramStartAddr + BitVec.ofNat 32 j) =
      (b.reset f pb14).2.ram (ramStartAddr + BitVec.ofNat 32 j) := if_pos hspan
  rw [hcell, hram, f.payload.copy_byte _ hj]

theorem turn_station (a : Addr) :
    (Board.turn f (a, b) t).1 = (Station.turn f (a, b.station) t).1 ∧
      (Board.turn f (a, b) t).2.station = (Station.turn f (a, b.station) t).2 := by
  have hiff := reset_goDfu_iff f b t.pb14
  have hchain : (b.reset f t.pb14).1.chainTo =
      if (b.reset f t.pb14).1.goDfu = 0#32 then appAddress else ramStartAddr :=
    main_chainTo_eq _ _ _
  have hflash : b.station.flash = b.flash := rfl
  unfold Board.turn Station.turn
  dsimp only
  rw [hchain, hflash]
  by_cases hdfu : b.station.asked ∨ t.pb14 = false ∨ ¬Accepts f.crc b.flash
  · have hgo : (b.reset f t.pb14).1.goDfu ≠ 0#32 := fun h => hiff.mp h hdfu
    rw [if_neg hgo, if_neg hgo, if_pos hdfu]
    exact ⟨rfl, stage2_station f b t t.pb14 hgo⟩
  · have hgo : (b.reset f t.pb14).1.goDfu = 0#32 := hiff.mpr hdfu
    rw [if_pos hgo, if_pos hgo, if_neg hdfu]
    exact ⟨rfl, rfl⟩

end Turn

/-- Reset after reset, the board starts what the station starts: a request of the application, which
passes through RAM, `start_c` and the marker, leads to DFU at the next reset, once. -/
theorem turns_follow (f : Firmware) (a : Addr) (b : Board) (ts : List Turn) :
    trace (Board.turn f) Prod.fst (a, b) ts = trace (Station.turn f) Prod.fst (a, b.station) ts ∧
      (run (Board.turn f) (a, b) ts).2.station = (run (Station.turn f) (a, b.station) ts).2 := by
  induction ts generalizing a b with
  | nil => exact ⟨rfl, rfl⟩
  | cons t ts ih =>
    obtain ⟨hchain, hstation⟩ := turn_station f b t a
    obtain ⟨htrace, hend⟩ := ih (Board.turn f (a, b) t).1 (Board.turn f (a, b) t).2
    have hsame : ((Board.turn f (a, b) t).1, (Board.turn f (a, b) t).2.station) =
        Station.turn f (a, b.station) t := Prod.ext hchain hstation
    rw [hsame] at htrace hend
    exact ⟨congrArg₂ List.cons hchain htrace, hend⟩

/-! The boot loader survives whatever is on the bus. -/

def Loop.Guarded (mem : Addr → Byte) : Loop → Prop
  | polling s => Swindle.Guarded mem s.dfu.flash
  | fullSystemReset s => Swindle.Guarded mem s.dfu.flash

section Guarded

variable {c : Device} {mem : Addr → Byte}

theorem Loop.Guarded.poll {l : Loop} (h : l.Guarded mem) (e : Event) :
    (l.poll c e).Guarded mem := by
  cases l with
  | polling s =>
    have hstep : Swindle.Guarded mem (step c s e).dfu.flash := guarded_step e h
    change (if _ then Loop.fullSystemReset _ else Loop.polling _).Guarded mem
    split
    · exact hstep
    · exact hstep
  | fullSystemReset s => exact h

theorem Loop.Guarded.run {l : Loop} (h : l.Guarded mem) (es : List Event) :
    (Machine.run (Loop.poll c) l es).Guarded mem :=
  run_invariant (fun _ e hl => hl.poll e) h es

theorem Loop.Guarded.perform {p : Reply Byte × Loop} (h : p.2.Guarded mem) (a : Act) :
    (a.perform c p).2.Guarded mem := by
  have hset : ∀ l d, l.Guarded mem → ((Loop.port c).setup l d).Guarded mem :=
    fun _ d hl => hl.poll (.setup d)
  have hout : ∀ l d, l.Guarded mem → ((Loop.port c).out l d).Guarded mem :=
    fun _ d hl => hl.poll (.out d)
  have hin : ∀ l, l.Guarded mem → ((Loop.port c).inComplete l).Guarded mem :=
    fun _ hl => hl.poll .inComplete
  cases a with
  | other es => exact h.run es
  | dfu r =>
    cases r with
    | upload | getstatus | getstate => exact Port.read_invariant hout hin hset h
    | dnload | leave | clrstatus | abort | detach => exact Port.write_invariant hout hin hset h

theorem Loop.Guarded.flash {l : Loop} (h : l.Guarded mem) {x : Addr} (hx : InBootloader x) :
    l.flash x = mem x := by
  cases l with
  | polling s => exact h.2 x hx
  | fullSystemReset s => exact h.2 x hx

theorem session_kept (f : Firmware) (t : Turn) (mem : Addr → Byte) {x : Addr}
    (hx : InBootloader x) : (t.session f mem).2.flash x = mem x := by
  have hstart : (Loop.polling (State.start mem t.behind)).Guarded mem := ⟨rfl, fun _ _ => rfl⟩
  have hstep : ∀ (p : Reply Byte × Loop) (a : Act), p.2.Guarded mem →
      (a.perform f.device p).2.Guarded mem := fun _ a hp => hp.perform a
  have hend : (t.session f mem).2.Guarded mem := by
    unfold Turn.session
    exact run_invariant hstep hstart t.acts
  exact hend.flash hx

end Guarded

/-- Through any number of resets the flash of the boot loader stays as it is, unless an application
changes it, and a reset with the pin low enters stage 2. -/
theorem bootloader_survives (f : Firmware) (a : Addr) (b : Board) (ts : List Turn)
    (happ : ∀ t ∈ ts, ∀ x, InBootloader x → t.app.flash x = b.flash x) :
    (∀ x, InBootloader x → (run (Board.turn f) (a, b) ts).2.flash x = b.flash x) ∧
      ∀ t : Turn, t.pb14 = false →
        (Board.turn f (run (Board.turn f) (a, b) ts) t).1 = ramStartAddr := by
  constructor
  · have hkeep : ∀ p : Addr × Board, (∀ x, InBootloader x → p.2.flash x = b.flash x) →
        ∀ t ∈ ts, ∀ x, InBootloader x → (Board.turn f p t).2.flash x = b.flash x := by
      intro p hp t ht x hx
      have hflash : (Board.turn f p t).2.flash = (Station.turn f (p.1, p.2.station) t).2.flash :=
        congrArg Station.flash (turn_station f p.2 t p.1).2
      rw [hflash, Station.turn]
      split
      · exact (session_kept f t p.2.flash hx).trans (hp x hx)
      · exact happ t ht x hx
    have hall : Along (Board.turn f) (fun _ t => t ∈ ts) (a, b) ts :=
      along_of_forall (fun _ => id) _
    exact run_of_along (fun p t hp ht => hkeep p hp t ht) (fun _ _ => rfl) hall
  · intro t hpin
    obtain ⟨hchain, -⟩ := turn_station f (run (Board.turn f) (a, b) ts).2 t
      (run (Board.turn f) (a, b) ts).1
    rw [hchain, Station.turn, if_pos (.inr (.inl hpin))]

def Firmware.stm64k : Firmware where
  layout := ⟨0x08001000#32, ramStartAddr, ramStartAddr, ramStartAddr, ramStartAddr⟩
  libcInitArray := id
  payload := ⟨[0xFC#8, 0x4F#8, 0x00#8, 0x20#8], rfl⟩
  crc := .crc32
  device := .stm64k

/-- A session of one bus reset, after the application has asked for DFU. -/
theorem bootloader_survives_reset :
    let f := Firmware.stm64k
    let b : Board := ⟨fun _ => 0xFF#8, rebootIntoBootloader fun _ => 0#8⟩
    let ts : List Turn := [⟨true, b, [.other [.reset]], fun _ => 0#8, fun _ => 0#8⟩]
    (∀ x, InBootloader x → (run (Board.turn f) (0#32, b) ts).2.flash x = b.flash x) ∧
      ∀ t : Turn, t.pb14 = false →
        (Board.turn f (run (Board.turn f) (0#32, b) ts) t).1 = ramStartAddr := by
  intro f b ts
  apply bootloader_survives
  intro t ht x _
  rw [List.mem_singleton] at ht
  rw [ht]

/-! An update. -/

end Swindle
