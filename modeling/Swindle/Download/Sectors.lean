import Swindle.Download.Block
import Swindle.Dfu.Layout

/-! The advertised memory map against what an ERASE and a data block do to each sector. -/
namespace Swindle
open Machine

/-- CMD_ERASE of the page at `a`, to its execution. -/
def erasePage (a : Addr) : List Event :=
  operation 0#16 [cmdErase, leByte a 0, leByte a 1, leByte a 2, leByte a 3]

section Operation

variable (c : Device) {s : State}

theorem executeErase_mem {p : Prog} {f : Flash} (h : f.Idle false) :
    (executeErase c p f).mem =
      if addressCheck c (readU32 p.buf 1) (BitVec.ofNat 32 dfuTransferSize) then
        (eraseUnlessBlank c (readU32 p.buf 1) (safewrite c f)).mem
      else wiped c f := by
  unfold executeErase
  dsimp only
  split
  · rfl
  · exact safewrite_mem c h

theorem run_erase_round (h : s.dfu.flash.Idle true) (a : Addr) :
    (run (step c) s (erasePage a)).dfu.flash.mem =
      if addressCheck c a (BitVec.ofNat 32 dfuTransferSize) then
        (eraseUnlessBlank c a (safewrite c (flashUnlock s.dfu.newPoll.flash))).mem
      else wiped c s.dfu.flash := by
  let data := [cmdErase, leByte a 0, leByte a 1, leByte a 2, leByte a 3]
  let p : Prog := s.dfu.prog.download 0#16 data
  let f := flashUnlock s.dfu.newPoll.flash
  have hidle : f.Idle false := Flash.idle_unlock h
  have hafter : p.flashAfter c f = executeErase c p f := (if_pos rfl).trans (if_pos rfl)
  have htarget : readU32 p.buf 1 = a := readU32_blit cmdErase a s.dfu.prog.buf
  have h4 : data.length ≤ dfuTransferSize := show 5 ≤ 4096 by decide
  have hrun : (run (step c) s (erasePage a)).dfu.flash.mem = (p.flashAfter c f).mem :=
    run_operation_mem c h 0#16 (show 0 < 5 by decide) h4
  rw [hrun, hafter, executeErase_mem c hidle, htarget]
  rfl

theorem run_erase (h : s.dfu.flash.Idle true) {a : Addr}
    (ha : a.toNat % c.getFlashPageSize = 0) :
    (run (step c) s (erasePage a)).dfu.flash.mem =
      if addressCheck c a (BitVec.ofNat 32 dfuTransferSize) then
        Nor.erase (SamePage c a) (wiped c s.dfu.flash)
      else wiped c s.dfu.flash := by
  have hidle : (flashUnlock s.dfu.newPoll.flash).Idle false := Flash.idle_unlock h
  rw [run_erase_round c h, eraseUnlessBlank_mem c (safewrite_idle c hidle) ha,
    safewrite_mem c hidle]
  rfl

theorem run_block_refused (h : s.dfu.flash.Idle true) {blocknum : BitVec 16}
    (hb : blocknum ≠ 0#16) {data : List Byte} (h0 : 0 < data.length)
    (h4 : data.length ≤ dfuTransferSize) {base : Addr}
    (hbase : blockAddress s.dfu.prog.addr blocknum = base)
    (hcheck : addressCheck c base (BitVec.ofNat 32 data.length) = false) :
    (run (step c) s (operation blocknum data)).dfu.flash.mem = wiped c s.dfu.flash := by
  let p : Prog := s.dfu.prog.download blocknum data
  let f := flashUnlock s.dfu.newPoll.flash
  have hidle : f.Idle false := Flash.idle_unlock h
  have hrefused : p.refused c := by
    have hlen : p.len.toNat = data.length := toNat_length h4
    have hcheck' : addressCheck c p.base p.length = false := by
      rw [p.length_eq, hlen, ← hcheck, ← hbase]
      rfl
    have hb' : p.blocknum ≠ 0#16 := hb
    rw [Prog.refused, if_neg hb', hcheck']
    rfl
  rw [run_operation_mem c h blocknum h0 h4,
    show s.dfu.prog.download blocknum data = p from rfl, flashAfter_of_refused c p hrefused]
  exact safewrite_mem c hidle

end Operation

/-! What the kinds promise. -/

namespace Sector

variable (c : Device) (s : State) (x : Sector)

def addr : Addr := BitVec.ofNat 32 x.start

def Filled (blocknum : BitVec 16) (data : List Byte) : Prop :=
  blocknum ≠ 0#16 ∧ blockAddress s.dfu.prog.addr blocknum = x.addr ∧ data.length = x.size

/-- An ERASE leaves the whole sector blank, and a block of its length is programmed. -/
def Programmable : Prop :=
  Nor.Blank (InSpan x.addr x.size) (run (step c) s (erasePage x.addr)).dfu.flash.mem ∧
    ∀ blocknum data, x.Filled s blocknum data → ∀ i (hi : i < data.length),
      (run (step c) s (operation blocknum data)).dfu.flash.mem (x.addr + BitVec.ofNat 32 i) =
        data[i]

/-- Neither changes the flash. -/
def Protected : Prop :=
  (run (step c) s (erasePage x.addr)).dfu.flash.mem = s.dfu.flash.mem ∧
    ∀ blocknum data, x.Filled s blocknum data →
      (run (step c) s (operation blocknum data)).dfu.flash.mem = s.dfu.flash.mem

/-- The device does to the sector what its kind says. -/
def AsAdvertised : Prop :=
  (x.kind = kindWrite → x.Programmable c s) ∧ (x.kind = kindRead → x.Protected c s)

/-- The condition: 4096 bytes of flash follow the start of a writable sector, or it is blank; and
there is nothing to wipe before an operation on a protected one. -/
def Fits : Prop :=
  (x.kind = kindWrite → x.start + dfuTransferSize ≤ (endAddr c).toNat ∨
    Nor.Blank (InSpan x.addr x.size) (wiped c s.dfu.flash)) ∧
  (x.kind = kindRead → wiped c s.dfu.flash = s.dfu.flash.mem)

end Sector

/-! Where the sectors lie. -/

theorem sectors_cases (c : Device) (h : flashBootldrSizeKb ≤ c.flashSize) {m : MemoryLayout}
    (hm : readLayout (prepareMemoryLayout c) = some m) {x : Sector} (hx : x ∈ m.sectors) :
    x.size = c.getFlashPageSize ∧ x.start % c.getFlashPageSize = 0 ∧
      (x.kind = kindRead ∧ x.start + x.size ≤ startAddr.toNat ∨
        x.kind = kindWrite ∧ startAddr.toNat ≤ x.start ∧
          x.start + x.size ≤ (endAddr c).toNat) := by
  rw [readLayout_prepareMemoryLayout c h, Option.some.injEq] at hm
  subst hm
  simp only [MemoryLayout.sectors, sectorsFrom, List.append_nil, List.mem_append, List.mem_map,
    List.mem_range] at hx
  rw [endAddr_toNat, startAddr_toNat]
  have hbase : flashBaseAddr.toNat = 0x08000000 := rfl
  have h8 : flashBootldrSizeKb = 8 := rfl
  rw [hbase, h8] at hx
  rcases hx with ⟨i, hi, rfl⟩ | ⟨i, hi, rfl⟩
  · rcases c.pageSize_cases with hp | hp <;> rw [hp] at hi ⊢ <;>
      exact ⟨rfl, by dsimp only; omega, .inl ⟨rfl, by dsimp only; omega⟩⟩
  · rcases c.pageSize_cases with hp | hp <;> rw [hp] at hi ⊢ <;>
      exact ⟨rfl, by dsimp only; omega, .inr ⟨rfl, by dsimp only; omega, by dsimp only; omega⟩⟩

section Sectors

variable {c : Device} {s : State} {x : Sector}

theorem Sector.addr_toNat (h : x.start < 2 ^ 32) : x.addr.toNat = x.start := by
  rw [Sector.addr, BitVec.toNat_ofNat]
  exact Nat.mod_eq_of_lt h

/-- A page of the application area. A block of its length always fits; the ERASE looks at 4096
bytes from the page on. -/
theorem Sector.programmable_iff (h : s.dfu.flash.Idle true) (hsize : x.size = c.getFlashPageSize)
    (ha : x.start % c.getFlashPageSize = 0) (hlo : startAddr.toNat ≤ x.start)
    (hhi : x.start + x.size ≤ (endAddr c).toNat) :
    x.Programmable c s ↔ x.start + dfuTransferSize ≤ (endAddr c).toNat ∨
      Nor.Blank (InSpan x.addr x.size) (wiped c s.dfu.flash) := by
  have hend := endAddr_lt c
  have h4096 : dfuTransferSize = 4096 := rfl
  have haddr : x.addr.toNat = x.start := Sector.addr_toNat (by omega)
  have haligned : x.addr.toNat % c.getFlashPageSize = 0 := by rw [haddr, ha]
  have hcheck : addressCheck c x.addr (BitVec.ofNat 32 dfuTransferSize) ↔
      x.start + dfuTransferSize ≤ (endAddr c).toNat := by
    have hwrap : NoWrap x.addr dfuTransferSize := by
      rw [NoWrap, haddr]
      omega
    rw [addressCheck_iff hwrap, haddr, and_iff_right hlo]
  have hblock : ∀ blocknum data, x.Filled s blocknum data → ∀ i (hi : i < data.length),
      (run (step c) s (operation blocknum data)).dfu.flash.mem (x.addr + BitVec.ofNat 32 i) =
        data[i] := by
    rintro blocknum data ⟨hb, hbase, hlen⟩
    have hpage := c.pageSize_cases
    exact run_block_data c h hb (by omega) (by omega) (by omega) hbase haligned (by omega)
      (by omega)
  rw [Sector.Programmable, and_iff_left hblock, run_erase c h haligned, ← hcheck]
  split
  · rename_i hc
    have hpage : ∀ y, InSpan x.addr x.size y → SamePage c x.addr y := fun y hy =>
      (samePage_iff c haligned).mpr (hsize ▸ hy)
    exact iff_of_true (Nor.blank_erase hpage) (.inl hc)
  · rename_i hc
    exact (or_iff_right hc).symm

/-- A page of the bootloader: every operation is refused, after the wipe if there is one. -/
theorem Sector.protected_iff (h : s.dfu.flash.Idle true) (hsize : x.size = c.getFlashPageSize)
    (ha : x.start % c.getFlashPageSize = 0) (hhi : x.start + x.size ≤ startAddr.toNat) :
    x.Protected c s ↔ wiped c s.dfu.flash = s.dfu.flash.mem := by
  have h4096 : dfuTransferSize = 4096 := rfl
  have hpage := c.pageSize_cases
  rw [startAddr_toNat] at hhi
  have haddr : x.addr.toNat = x.start := Sector.addr_toNat (by omega)
  have haligned : x.addr.toNat % c.getFlashPageSize = 0 := by rw [haddr, ha]
  have hcheck : ∀ n, n ≤ dfuTransferSize → addressCheck c x.addr (BitVec.ofNat 32 n) = false := by
    intro n hn
    have hwrap : NoWrap x.addr n := by
      rw [NoWrap, haddr]
      omega
    have hno := mt (addressCheck_iff (c := c) hwrap).mp
    rw [startAddr_toNat, haddr] at hno
    exact Bool.eq_false_iff.mpr (hno (by omega))
  have herase : (run (step c) s (erasePage x.addr)).dfu.flash.mem = wiped c s.dfu.flash := by
    rw [run_erase c h haligned, hcheck _ (Nat.le_refl _)]
    rfl
  constructor
  · rintro ⟨hp, -⟩
    rw [← herase, hp]
  · intro hw
    refine ⟨herase.trans hw, ?_⟩
    rintro blocknum data ⟨hb, hbase, hlen⟩
    exact (run_block_refused c h hb (by omega) (by omega) hbase (hcheck _ (by omega))).trans hw

end Sectors

/-- The host reads the map it was sent, and a sector is treated as its kind says if and only if
4096 bytes of flash follow a writable one (or it is blank), and no wipe is due before an
operation on a protected one. -/
theorem sector_as_advertised_iff {c : Device} (h : flashBootldrSizeKb ≤ c.flashSize) {s : State}
    (hs : Reachable c s) :
    ∃ m, readLayout (prepareMemoryLayout c) = some m ∧ m.base = flashBaseAddr.toNat ∧
      ∀ x ∈ m.sectors, (x.kind = kindRead ∨ x.kind = kindWrite) ∧
        (x.AsAdvertised c s ↔ x.Fits c s) := by
  have hm := readLayout_prepareMemoryLayout c h
  refine ⟨_, hm, rfl, fun x hx => ?_⟩
  obtain ⟨hsize, ha, ⟨hk, hhi⟩ | ⟨hk, hlo, hhi⟩⟩ := sectors_cases c h hm hx
  · have hw : x.kind ≠ kindWrite := by
      rw [hk]
      decide
    refine ⟨.inl hk, ?_⟩
    rw [Sector.AsAdvertised, Sector.Fits, Sector.protected_iff hs.locked hsize ha hhi]
    simp [hw]
  · have hr : x.kind ≠ kindRead := by
      rw [hk]
      decide
    refine ⟨.inr hk, ?_⟩
    rw [Sector.AsAdvertised, Sector.Fits, Sector.programmable_iff hs.locked hsize ha hlo hhi]
    simp [hr]

theorem sector_as_advertised_iff_64k :
    let s := State.start (fun _ => 0x55#8) fun _ => 0#8
    ∃ m, readLayout (prepareMemoryLayout Device.stm64k) = some m ∧
      m.base = flashBaseAddr.toNat ∧
      ∀ x ∈ m.sectors, (x.kind = kindRead ∨ x.kind = kindWrite) ∧
        (x.AsAdvertised Device.stm64k s ↔ x.Fits Device.stm64k s) := by
  intro s
  have hs : Reachable Device.stm64k s := ⟨_, _, [], rfl⟩
  exact sector_as_advertised_iff (by decide) hs

/-- The last page of a 64 KB part is advertised as writable, and an ERASE leaves it as it was. -/
theorem last_page_not_erased :
    let c := Device.stm64k
    let s := State.start (fun _ => 0x55#8) fun _ => 0#8
    let x : Sector := ⟨0x0800FC00, 1024, kindWrite⟩
    (∃ m, readLayout (prepareMemoryLayout c) = some m ∧ x ∈ m.sectors) ∧
      ¬x.AsAdvertised c s := by
  dsimp only
  constructor
  · exact ⟨⟨0x08000000, [⟨8, 1024, kindRead⟩, ⟨56, 1024, kindWrite⟩]⟩, by decide +kernel,
      by decide +kernel⟩
  · intro hx
    have hblank := (hx.1 rfl).1 0x0800FC00#32 (by decide)
    exact absurd hblank (by decide +kernel)

end Swindle
