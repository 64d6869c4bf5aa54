import Swindle.Download.Block
import Swindle.Flash.Window

/-! How much of a data block reaches the flash: what has been erased when programming starts, and
which bytes of the payload are programmed. -/
namespace Swindle
open Machine

/-- The flash in which the block of a DNLOAD is programmed, in the GET_STATUS that follows. -/
def State.erasedFor (c : Device) (s : State) (blocknum : BitVec 16) (data : List Byte) : Flash :=
  (s.dfu.prog.download blocknum data).erased c (flashUnlock s.dfu.newPoll.flash)

theorem offset_toNat (base : Addr) {i : ℕ} (h : i < 2 ^ 32) :
    (base + BitVec.ofNat 32 i - base).toNat = i := by
  have hb := base.isLt
  rw [BitVec.toNat_sub, BitVec.toNat_add, BitVec.toNat_ofNat]
  omega

section Block

variable (c : Device) {s : State} {blocknum : BitVec 16} {data : List Byte} {base : Addr}

theorem erasedFor_eq (h4 : data.length ≤ dfuTransferSize)
    (hbase : blockAddress s.dfu.prog.addr blocknum = base) :
    s.erasedFor c blocknum data =
      erasePages c (base + BitVec.ofNat 32 data.length) data.length base
        (safewrite c (flashUnlock s.dfu.newPoll.flash)) := by
  let p : Prog := s.dfu.prog.download blocknum data
  have hlen : p.len.toNat = data.length := toNat_length h4
  have hpbase : p.base = base := hbase
  change p.erased c _ = _
  rw [Prog.erased, p.length_eq, hlen, hpbase]

theorem run_block_programmed (h : s.dfu.flash.Idle true) (hb : blocknum ≠ 0#16)
    (h0 : 0 < data.length) (h4 : data.length ≤ dfuTransferSize)
    (hbase : blockAddress s.dfu.prog.addr blocknum = base)
    (hcheck : addressCheck c base (BitVec.ofNat 32 data.length)) :
    (run (step c) s (operation blocknum data)).dfu.flash.mem =
      Nor.program (InSpan base (2 * (data.length / 2)))
        (fun x => data.getD (x - base).toNat (BitVec.allOnes 8))
        (s.erasedFor c blocknum data).mem := by
  let p : Prog := s.dfu.prog.download blocknum data
  have hlen : p.len.toNat = data.length := toNat_length h4
  have hpbase : p.base = base := hbase
  have hidle : (flashUnlock s.dfu.newPoll.flash).Idle false := Flash.idle_unlock h
  have hafter : p.flashAfter c (flashUnlock s.dfu.newPoll.flash) =
      executeBlock c p (flashUnlock s.dfu.newPoll.flash) := if_neg hb
  have hcheck' : addressCheck c p.base p.length := by
    rwa [p.length_eq, hlen, hpbase]
  have hmem : (executeBlock c p (flashUnlock s.dfu.newPoll.flash)).mem =
      Nor.program (InSpan p.base (2 * (p.len.toNat / 2))) (fun x => p.buf (x - p.base).toNat)
        (s.erasedFor c blocknum data).mem := (executeBlock_programmed c p hidle hcheck').mem
  rw [hpbase, hlen] at hmem
  have hdata : ∀ x, InSpan base (2 * (data.length / 2)) x →
      p.buf (x - base).toNat = data.getD (x - base).toNat (BitVec.allOnes 8) := by
    intro x hx
    have hx' : (x - base).toNat < data.length := by
      unfold InSpan at hx
      omega
    rw [Prog.download_buf _ _ hx', List.getD_eq_getElem _ _ hx']
  rw [run_operation_mem c h blocknum h0 h4, show s.dfu.prog.download blocknum data = p from rfl,
    hafter, hmem]
  exact Nor.program_congr (fun _ => .rfl) hdata

theorem run_block_kept_iff (h : s.dfu.flash.Idle true) (hb : blocknum ≠ 0#16)
    (h0 : 0 < data.length) (h4 : data.length ≤ dfuTransferSize)
    (hbase : blockAddress s.dfu.prog.addr blocknum = base)
    (hcheck : addressCheck c base (BitVec.ofNat 32 data.length)) :
    (∀ i (hi : i < data.length),
        (run (step c) s (operation blocknum data)).dfu.flash.mem (base + BitVec.ofNat 32 i) =
          data[i]) ↔
      ∀ i (hi : i < data.length),
        if i < 2 * (data.length / 2) then
          (s.erasedFor c blocknum data).mem (base + BitVec.ofNat 32 i) &&& data[i] = data[i]
        else (s.erasedFor c blocknum data).mem (base + BitVec.ofNat 32 i) = data[i] := by
  have h4096 : dfuTransferSize = 4096 := rfl
  rw [run_block_programmed c h hb h0 h4 hbase hcheck]
  refine forall₂_congr fun i hi => ?_
  have hoff := offset_toNat base (show i < 2 ^ 32 by omega)
  unfold Nor.program
  by_cases hlt : i < 2 * (data.length / 2)
  · have hin : InSpan base (2 * (data.length / 2)) (base + BitVec.ofNat 32 i) := by
      rwa [InSpan, hoff]
    rw [if_pos hin, if_pos hlt]
    dsimp only
    rw [hoff, List.getD_eq_getElem _ _ hi]
  · have hout : ¬InSpan base (2 * (data.length / 2)) (base + BitVec.ofNat 32 i) := by
      rwa [InSpan, hoff]
    rw [if_neg hout, if_neg hlt]

theorem erasedFor_window (h : s.dfu.flash.Idle true) (h4 : data.length ≤ dfuTransferSize)
    (hbase : blockAddress s.dfu.prog.addr blocknum = base)
    (hcheck : addressCheck c base (BitVec.ofNat 32 data.length)) (x : Addr) :
    (Cleared c (wiped c s.dfu.flash) base (base + BitVec.ofNat 32 data.length) x →
        (s.erasedFor c blocknum data).mem x = BitVec.allOnes 8) ∧
      (¬Cleared c (wiped c s.dfu.flash) base (base + BitVec.ofNat 32 data.length) x →
        (s.erasedFor c blocknum data).mem x = wiped c s.dfu.flash x) := by
  have hidle : (flashUnlock s.dfu.newPoll.flash).Idle false := Flash.idle_unlock h
  have hmem : (safewrite c (flashUnlock s.dfu.newPoll.flash)).mem = wiped c s.dfu.flash :=
    safewrite_mem c hidle
  have hfuel : (base + BitVec.ofNat 32 data.length).toNat ≤
      base.toNat + c.getFlashPageSize * data.length := by
    rw [BitVec.toNat_add, BitVec.toNat_ofNat]
    rcases c.pageSize_cases with hp | hp <;> rw [hp] <;> omega
  have hend := endAddr_lt c
  have hle := check_le hcheck
  have hwindow := erasePages_window c (Nat.le_trans hle hend) (safewrite_idle c hidle) hfuel x
  rwa [hmem, ← erasedFor_eq c h4 hbase] at hwindow

/-- The condition: where a page begins with bytes that lie in the range, before the place that
`base` has in its own page, they are blank, or the page is cleared: its visited address lies in
the range and is followed by a page size that is not blank. -/
def HeadsCleared (mem : Addr → Byte) (base : Addr) (n : ℕ) : Prop :=
  ∀ x, InSpan base n x → x.toNat % c.getFlashPageSize < base.toNat % c.getFlashPageSize →
    mem x ≠ BitVec.allOnes 8 → Cleared c mem base (base + BitVec.ofNat 32 n) x

theorem cleared_of_tail {mem : Addr → Byte} {n : ℕ} (hw : base.toNat + n ≤ 2 ^ 31) {x : Addr}
    (hx : InSpan base n x)
    (htail : base.toNat % c.getFlashPageSize ≤ x.toNat % c.getFlashPageSize)
    (hne : mem x ≠ BitVec.allOnes 8) :
    Cleared c mem base (base + BitVec.ofNat 32 n) x := by
  have hspan := (inSpan_iff (show base.toNat + n ≤ 2 ^ 32 by omega)).mp hx
  have hps := c.pageSize_cases
  obtain ⟨j, hj⟩ : ∃ j, (x.toNat - base.toNat) / c.getFlashPageSize = j := ⟨_, rfl⟩
  have hle : c.getFlashPageSize * j ≤ x.toNat - base.toNat := hj ▸ Nat.mul_div_le _ _
  have hlt : x.toNat - base.toNat < c.getFlashPageSize * j + c.getFlashPageSize := by
    rw [← hj, ← Nat.mul_succ]
    exact Nat.lt_mul_div_succ _ (by omega)
  have hp : (base + BitVec.ofNat 32 (c.getFlashPageSize * j)).toNat =
      base.toNat + c.getFlashPageSize * j :=
    toNat_add_ofNat (show base.toNat + c.getFlashPageSize * j < 2 ^ 32 by omega)
  have hlimit : (base + BitVec.ofNat 32 n).toNat = base.toNat + n :=
    toNat_add_ofNat (show base.toNat + n < 2 ^ 32 by omega)
  refine ⟨base + BitVec.ofNat 32 (c.getFlashPageSize * j), ⟨j, hp, ?_⟩, ?_, ?_⟩
  · rw [BitVec.lt_def, hp, hlimit]
    omega
  · rw [SamePage, hp]
    rcases hps with hps | hps <;> rw [hps] at htail hle hlt ⊢ <;> omega
  · intro hblank
    refine hne (hblank x ((inSpan_iff ?_).mpr ⟨?_, ?_⟩)) <;> rw [hp]
    · rcases hps with hps | hps <;> rw [hps] at hle ⊢ <;> omega
    · omega
    · omega

theorem erasedFor_blank_iff (h : s.dfu.flash.Idle true) (h4 : data.length ≤ dfuTransferSize)
    (hbase : blockAddress s.dfu.prog.addr blocknum = base)
    (hcheck : addressCheck c base (BitVec.ofNat 32 data.length)) (hw : NoWrap base data.length) :
    Nor.Blank (InSpan base data.length) (s.erasedFor c blocknum data).mem ↔
      HeadsCleared c (wiped c s.dfu.flash) base data.length := by
  have hend := endAddr_lt c
  obtain ⟨-, hhi, -⟩ := check_noWrap hcheck hw
  have hwindow := erasedFor_window c h h4 hbase hcheck
  constructor
  · intro hblank x hx _ hne
    by_contra hnot
    exact hne (((hwindow x).2 hnot).symm.trans (hblank x hx))
  · intro hheads x hx
    by_cases hc : Cleared c (wiped c s.dfu.flash) base (base + BitVec.ofNat 32 data.length) x
    · exact (hwindow x).1 hc
    · rw [(hwindow x).2 hc]
      by_contra hne
      by_cases hhead : x.toNat % c.getFlashPageSize < base.toNat % c.getFlashPageSize
      · exact hc (hheads x hx hhead hne)
      · exact hc (cleared_of_tail c (by omega) hx (Nat.not_lt.mp hhead) hne)

theorem inSpan_index (base : Addr) {i n : ℕ} (hi : i < n) (hn : n ≤ 2 ^ 32) :
    InSpan base n (base + BitVec.ofNat 32 i) := by
  rw [InSpan, offset_toNat base (by omega)]
  exact hi

/-- A block of even length is programmed into a blank range, and then read back whole, exactly
if the condition holds. -/
theorem erased_before_programmed_iff (hs : Reachable c s) (hb : blocknum ≠ 0#16)
    (h0 : 0 < data.length) (h4 : data.length ≤ dfuTransferSize) (heven : data.length % 2 = 0)
    (hbase : blockAddress s.dfu.prog.addr blocknum = base)
    (hcheck : addressCheck c base (BitVec.ofNat 32 data.length)) (hw : NoWrap base data.length) :
    (Nor.Blank (InSpan base data.length) (s.erasedFor c blocknum data).mem ∧
        ∀ i (hi : i < data.length),
          (run (step c) s (operation blocknum data)).dfu.flash.mem (base + BitVec.ofNat 32 i) =
            data[i]) ↔
      HeadsCleared c (wiped c s.dfu.flash) base data.length := by
  have h4096 : dfuTransferSize = 4096 := rfl
  rw [← erasedFor_blank_iff c hs.locked h4 hbase hcheck hw]
  refine and_iff_left_of_imp fun hblank => ?_
  rw [run_block_kept_iff c hs.locked hb h0 h4 hbase hcheck]
  intro i hi
  rw [if_pos (by omega), hblank _ (inSpan_index base hi (by omega)), BitVec.allOnes_and]

theorem erased_before_programmed_iff_unaligned :
    let s := run (step Device.stm64k) (State.start (fun _ => 0x55#8) fun _ => 0#8)
      (setAddr 0x080023FE#32)
    2#16 ≠ 0#16 ∧
      (Nor.Blank (InSpan 0x080023FE#32 4)
            (s.erasedFor Device.stm64k 2#16 [0xAA#8, 0xBB#8, 0xCC#8, 0xDD#8]).mem ∧
          (∀ i (hi : i < 4), (run (step Device.stm64k) s
            (operation 2#16 [0xAA#8, 0xBB#8, 0xCC#8, 0xDD#8])).dfu.flash.mem
              (0x080023FE#32 + BitVec.ofNat 32 i) = [0xAA#8, 0xBB#8, 0xCC#8, 0xDD#8][i]) ↔
        HeadsCleared Device.stm64k (wiped Device.stm64k s.dfu.flash) 0x080023FE#32 4) := by
  intro s
  have hs : Reachable Device.stm64k s := ⟨_, _, setAddr 0x080023FE#32, rfl⟩
  have hb : 2#16 ≠ 0#16 := by decide
  have hn : [0xAA#8, 0xBB#8, 0xCC#8, 0xDD#8].length ≤ dfuTransferSize := by decide
  have hbase : blockAddress s.dfu.prog.addr 2#16 = 0x080023FE#32 := by decide +kernel
  exact ⟨hb, erased_before_programmed_iff Device.stm64k hs hb (by decide) hn (by decide) hbase
    (by decide) (by decide)⟩

/-- The condition on a block at an aligned address: it has whole half-words only, or ends with a
byte that is blank anyway. Where the address check wraps, nothing is erased, and the cells must
happen to take the payload. -/
def BlockFits (mem : Addr → Byte) (base : Addr) (data : List Byte) : Prop :=
  if NoWrap base data.length then
    data.length % 2 = 0 ∨ data.getLast? = some (BitVec.allOnes 8)
  else
    ∀ i (hi : i < data.length),
      if i < 2 * (data.length / 2) then mem (base + BitVec.ofNat 32 i) &&& data[i] = data[i]
      else mem (base + BitVec.ofNat 32 i) = data[i]

theorem erasedFor_blank_of_aligned (h : s.dfu.flash.Idle true)
    (h4 : data.length ≤ dfuTransferSize)
    (hbase : blockAddress s.dfu.prog.addr blocknum = base)
    (ha : base.toNat % c.getFlashPageSize = 0)
    (hcheck : addressCheck c base (BitVec.ofNat 32 data.length)) (hw : NoWrap base data.length) :
    Nor.Blank (InSpan base data.length) (s.erasedFor c blocknum data).mem := by
  rw [erasedFor_blank_iff c h h4 hbase hcheck hw]
  intro x _ hlt
  rw [ha] at hlt
  exact absurd hlt (Nat.not_lt_zero _)

theorem erasedFor_of_wrap (h : s.dfu.flash.Idle true) (h4 : data.length ≤ dfuTransferSize)
    (hbase : blockAddress s.dfu.prog.addr blocknum = base)
    (hcheck : addressCheck c base (BitVec.ofNat 32 data.length))
    (hw : ¬NoWrap base data.length) :
    (s.erasedFor c blocknum data).mem = wiped c s.dfu.flash := by
  have hend := endAddr_lt c
  have hle := check_le hcheck
  have hnot : ¬base < base + BitVec.ofNat 32 data.length := by
    have h4096 : dfuTransferSize = 4096 := rfl
    unfold NoWrap at hw
    rw [BitVec.lt_def]
    omega
  funext x
  refine (erasedFor_window c h h4 hbase hcheck x).2 ?_
  rintro ⟨p, hv, -⟩
  exact not_visits c hnot p hv

/-- Every byte of an accepted block at an aligned address is in the flash afterwards exactly if
the condition holds. -/
theorem payload_kept_iff (hs : Reachable c s) (hb : blocknum ≠ 0#16) (h0 : 0 < data.length)
    (h4 : data.length ≤ dfuTransferSize)
    (hbase : blockAddress s.dfu.prog.addr blocknum = base)
    (ha : base.toNat % c.getFlashPageSize = 0)
    (hcheck : addressCheck c base (BitVec.ofNat 32 data.length)) :
    (∀ i (hi : i < data.length),
        (run (step c) s (operation blocknum data)).dfu.flash.mem (base + BitVec.ofNat 32 i) =
          data[i]) ↔
      BlockFits (wiped c s.dfu.flash) base data := by
  have h4096 : dfuTransferSize = 4096 := rfl
  rw [run_block_kept_iff c hs.locked hb h0 h4 hbase hcheck]
  unfold BlockFits
  by_cases hw : NoWrap base data.length
  · have hblank := erasedFor_blank_of_aligned c hs.locked h4 hbase ha hcheck hw
    have hcell : ∀ i, i < data.length →
        (s.erasedFor c blocknum data).mem (base + BitVec.ofNat 32 i) = BitVec.allOnes 8 :=
      fun i hi => hblank _ (inSpan_index base hi (by omega))
    rw [if_pos hw, List.getLast?_eq_getElem?, List.getElem?_eq_getElem (by omega),
      Option.some.injEq]
    constructor
    · intro hall
      by_cases heven : data.length % 2 = 0
      · exact .inl heven
      · have hlast := hall (data.length - 1) (by omega)
        rw [if_neg (by omega), hcell _ (by omega)] at hlast
        exact .inr hlast.symm
    · intro hor i hi
      rw [hcell i hi, BitVec.allOnes_and]
      split
      · rfl
      · have hi' : i = data.length - 1 := by omega
        subst hi'
        exact (hor.resolve_left (by omega)).symm
  · rw [if_neg hw, erasedFor_of_wrap c hs.locked h4 hbase hcheck hw]

theorem payload_kept_iff_start :
    let s := State.start (fun _ => 0x55#8) fun _ => 0#8
    0x8004#16 ≠ 0#16 ∧
      ((∀ i (hi : i < 3), (run (step Device.stm64k) s
          (operation 0x8004#16 [0xAA#8, 0xBB#8, 0xCC#8])).dfu.flash.mem
            (0x08002000#32 + BitVec.ofNat 32 i) = [0xAA#8, 0xBB#8, 0xCC#8][i]) ↔
        BlockFits (wiped Device.stm64k s.dfu.flash) 0x08002000#32 [0xAA#8, 0xBB#8, 0xCC#8]) := by
  intro s
  have hs : Reachable Device.stm64k s := ⟨_, _, [], rfl⟩
  have hb : 0x8004#16 ≠ 0#16 := by decide
  have hn : [0xAA#8, 0xBB#8, 0xCC#8].length ≤ dfuTransferSize := by decide
  exact ⟨hb, payload_kept_iff Device.stm64k hs hb (by decide) hn (by decide) (by decide)
    (by decide)⟩

end Block

/-- A block of three bytes at the start of the application area: the third stays blank. -/
theorem third_byte_dropped :
    let c := Device.stm64k
    let s := State.start (fun _ => 0xFF#8) fun _ => 0#8
    let data := [0xAA#8, 0xBB#8, 0xCC#8]
    let t := run (step c) s (operation 0x8004#16 data)
    blockAddress s.dfu.prog.addr 0x8004#16 = 0x08002000#32 ∧
      addressCheck c 0x08002000#32 3#32 ∧
      ¬∀ i (hi : i < data.length),
        t.dfu.flash.mem (0x08002000#32 + BitVec.ofNat 32 i) = data[i] := by
  decide +kernel

/-- A block of four bytes across the boundary of two pages: only the first page is erased, and
the bytes in the second one come out as the old content and the payload together. -/
theorem second_page_not_erased :
    let c := Device.stm64k
    let s := run (step c) (State.start (fun _ => 0x55#8) fun _ => 0#8) (setAddr 0x080023FE#32)
    let data := [0xAA#8, 0xBB#8, 0xCC#8, 0xDD#8]
    let t := run (step c) s (operation 2#16 data)
    blockAddress s.dfu.prog.addr 2#16 = 0x080023FE#32 ∧
      addressCheck c 0x080023FE#32 4#32 ∧ NoWrap 0x080023FE#32 4 ∧
      ¬Nor.Blank (InSpan 0x080023FE#32 4) (s.erasedFor c 2#16 data).mem ∧
      ¬∀ i (hi : i < data.length),
        t.dfu.flash.mem (0x080023FE#32 + BitVec.ofNat 32 i) = data[i] := by
  dsimp only
  refine ⟨by decide +kernel, by decide, by decide, fun h => ?_, by decide +kernel⟩
  exact absurd (h 0x08002400#32 (by decide)) (by decide +kernel)

end Swindle
