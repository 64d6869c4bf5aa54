import Mathlib.Data.List.Induction
import Swindle.Download.Block

/-! A whole image: its blocks, downloaded in any order, repeated or not, and addressed in
either of the two ways, leave the image in flash. -/
namespace Swindle
open Machine

/-- The image fits the application area from the page-aligned address `a` on. -/
structure Placed (c : Device) (a : Addr) (img : List Byte) : Prop where
  aligned : a.toNat % c.getFlashPageSize = 0
  start : startAddr.toNat ≤ a.toNat
  fits : a.toNat + img.length ≤ (endAddr c).toNat
  even : img.length % 2 = 0
  nonempty : 0 < img.length

/-- How the host addresses block `i`: by its number over a fixed pointer, or by moving the
pointer. -/
inductive Addressing
  | byNumber | byPointer
  deriving DecidableEq, Repr

namespace Addressing

def pointer (a : Addr) (i : ℕ) : Addressing → Addr
  | .byNumber => a
  | .byPointer => a + BitVec.ofNat 32 (dfuTransferSize * i)

def blocknum (i : ℕ) : Addressing → BitVec 16
  | .byNumber => BitVec.ofNat 16 (i + 2)
  | .byPointer => 2#16

end Addressing

/-- Which blocks of an image a host sends, and how: each of them once or more, in any order. -/
structure Schedule (img : List Byte) where
  writes : List (Addressing × ℕ)
  isBlock : ∀ w ∈ writes, w.2 < blockCount dfuTransferSize img
  complete : ∀ i < blockCount dfuTransferSize img, ∃ m, (m, i) ∈ writes

def putBlock (a : Addr) (img : List Byte) (w : Addressing × ℕ) : List Event :=
  setAddr (w.1.pointer a w.2) ++ operation (w.1.blocknum w.2) (block dfuTransferSize img w.2)

def download (a : Addr) (img : List Byte) (ws : List (Addressing × ℕ)) : List Event :=
  ws.flatMap (putBlock a img)

/-- `m'` is `m` with the image at `a`, and the page where it ends filled up with ones. -/
structure Holds (c : Device) (a : Addr) (img : List Byte) (m m' : Addr → Byte) : Prop where
  image : ∀ (i : ℕ) (h : i < img.length), m' (a + BitVec.ofNat 32 i) = img[i]
  padding : ∀ x, a.toNat + img.length ≤ x.toNat →
    SamePage c (a + BitVec.ofNat 32 (img.length - 1)) x → m' x = 0xFF#8
  rest : ∀ x, ¬InSpan a img.length x →
    ¬SamePage c (a + BitVec.ofNat 32 (img.length - 1)) x → m' x = m x

def imageByte (a : Addr) (img : List Byte) (x : Addr) : Byte :=
  img.getD (x - a).toNat (BitVec.allOnes 8)

def blockBase (a : Addr) (i : ℕ) : Addr := a + BitVec.ofNat 32 (dfuTransferSize * i)

def BlockPages (c : Device) (a : Addr) (img : List Byte) (i : ℕ) : Addr → Prop :=
  Touched c (blockBase a i)
    (blockBase a i + BitVec.ofNat 32 (block dfuTransferSize img i).length)

instance (c : Device) (a : Addr) (img : List Byte) (i : ℕ) :
    DecidablePred (BlockPages c a img i) := fun _ => inferInstanceAs (Decidable (Touched _ _ _ _))

section Blocks

variable {c : Device} {a : Addr} {img : List Byte} {i : ℕ}

theorem Placed.block (h : Placed c a img) (hi : i < blockCount dfuTransferSize img) :
    4096 * i < img.length ∧
      (blockBase a i).toNat = a.toNat + 4096 * i ∧
      (block dfuTransferSize img i).length = min 4096 (img.length - 4096 * i) ∧
      (blockBase a i + BitVec.ofNat 32 (Machine.block dfuTransferSize img i).length).toNat =
        a.toNat + min img.length (4096 * (i + 1)) := by
  have hlt : 4096 * i < img.length :=
    (lt_blockCount_iff dfuTransferSize_pos img i).mp hi
  have hlen : (Machine.block dfuTransferSize img i).length = min 4096 (img.length - 4096 * i) :=
    length_block dfuTransferSize img i
  have hend := endAddr_lt c
  have hfits := h.fits
  have hbase : (blockBase a i).toNat = a.toNat + 4096 * i := by
    have h4 : dfuTransferSize = 4096 := rfl
    rw [blockBase, BitVec.toNat_add, BitVec.toNat_ofNat, h4]
    omega
  refine ⟨hlt, hbase, hlen, ?_⟩
  rw [BitVec.toNat_add, BitVec.toNat_ofNat, hbase, hlen]
  omega

theorem Placed.blockAddress (h : Placed c a img) (hi : i < blockCount dfuTransferSize img)
    (m : Addressing) :
    Swindle.blockAddress (m.pointer a i) (m.blocknum i) = blockBase a i ∧
      m.blocknum i ≠ 0#16 := by
  obtain ⟨hlt, -, -, -⟩ := h.block hi
  have hend := c.flashSize_lt
  have hfits := h.fits
  have hstart := h.start
  rw [endAddr_toNat] at hfits
  rw [startAddr_toNat] at hstart
  cases m with
  | byPointer =>
    have hzero : (BitVec.setWidth 32 2#16 - 2#32) * BitVec.ofNat 32 dfuTransferSize = 0#32 := by
      decide
    refine ⟨?_, show 2#16 ≠ 0#16 by decide⟩
    rw [Swindle.blockAddress, Addressing.blocknum, hzero, BitVec.add_zero]
    rfl
  | byNumber =>
    have h4 : dfuTransferSize = 4096 := rfl
    constructor
    · rw [Swindle.blockAddress, blockBase, Addressing.blocknum, h4]
      refine congrArg (a + ·) (BitVec.eq_of_toNat_eq ?_)
      rw [BitVec.toNat_mul, BitVec.toNat_sub, BitVec.toNat_setWidth]
      simp only [BitVec.toNat_ofNat]
      omega
    · intro hz
      have hz' : (BitVec.ofNat 16 (i + 2)).toNat = (0#16).toNat := congrArg BitVec.toNat hz
      rw [BitVec.toNat_ofNat, show (0#16).toNat = 0 from rfl] at hz'
      omega

/-- Every page of the image is a page of a block, and the other way round. -/
theorem Placed.touched_iff (h : Placed c a img) {ws : List (Addressing × ℕ)}
    (hblock : ∀ w ∈ ws, w.2 < blockCount dfuTransferSize img)
    (hall : ∀ i < blockCount dfuTransferSize img, ∃ m, (m, i) ∈ ws) (x : Addr) :
    (∃ w ∈ ws, BlockPages c a img w.2 x) ↔ Touched c a (a + BitVec.ofNat 32 img.length) x := by
  have hend := endAddr_lt c
  have hfits := h.fits
  have hal := h.aligned
  have hsum : (a + BitVec.ofNat 32 img.length).toNat = a.toNat + img.length := by
    rw [BitVec.toNat_add, BitVec.toNat_ofNat]
    omega
  constructor
  · rintro ⟨w, hw, hlo, hhi⟩
    obtain ⟨hlt, hbase, -, hlim⟩ := h.block (hblock w hw)
    rw [hbase] at hlo
    rw [hlim] at hhi
    refine ⟨(Nat.div_le_div_right (Nat.le_add_right _ _)).trans hlo, ?_⟩
    rw [hsum]
    omega
  · rintro ⟨hlo, hhi⟩
    rw [hsum] at hhi
    -- the block in which the page of `x` starts
    obtain ⟨i, hidef⟩ : ∃ i, i =
        (x.toNat / c.getFlashPageSize * c.getFlashPageSize - a.toNat) / 4096 := ⟨_, rfl⟩
    have hstart : a.toNat ≤ x.toNat / c.getFlashPageSize * c.getFlashPageSize := by
      have hmul := Nat.mul_le_mul_right c.getFlashPageSize hlo
      have hdiv := Nat.div_add_mod' a.toNat c.getFlashPageSize
      omega
    have hi : i < blockCount dfuTransferSize img := by
      refine (lt_blockCount_iff dfuTransferSize_pos img i).mpr ?_
      change 4096 * i < img.length
      omega
    obtain ⟨m, hm⟩ := hall i hi
    obtain ⟨-, hbase, -, hlim⟩ := h.block hi
    refine ⟨(m, i), hm, ?_, ?_⟩
    · rw [hbase]
      rcases c.pageSize_cases with hp | hp <;> rw [hp] at hal hstart hidef ⊢ <;> omega
    · rw [hlim]
      omega

theorem Placed.blockByte (h : Placed c a img) (hi : i < blockCount dfuTransferSize img)
    {x : Addr} (hx : BlockPages c a img i x) :
    (Machine.block dfuTransferSize img i).getD (x - blockBase a i).toNat (BitVec.allOnes 8) =
      imageByte a img x := by
  obtain ⟨hlt, hbase, hlen, hlim⟩ := h.block hi
  have hend := endAddr_lt c
  have hfits := h.fits
  have hal := h.aligned
  have hxl := x.isLt
  obtain ⟨hlo, hhi⟩ := hx
  rw [hbase] at hlo
  rw [hlim] at hhi
  have hge : a.toNat + 4096 * i ≤ x.toNat := by
    rcases c.pageSize_cases with hp | hp <;> rw [hp] at hal hlo <;> omega
  have hsub : (x - blockBase a i).toNat = x.toNat - (a.toNat + 4096 * i) := by
    rw [BitVec.toNat_sub, hbase]
    omega
  have hsub' : (x - a).toNat = 4096 * i + (x - blockBase a i).toNat := by
    rw [hsub, BitVec.toNat_sub]
    omega
  have hin : (x - blockBase a i).toNat < dfuTransferSize := by
    have h4 : dfuTransferSize = 4096 := rfl
    rw [hsub, h4]
    rcases c.pageSize_cases with hp | hp <;> rw [hp] at hal hhi <;> omega
  rw [imageByte, hsub', List.getD_eq_getElem?_getD, List.getD_eq_getElem?_getD,
    getElem?_block img i hin]
  rfl

end Blocks

section Run

variable (c : Device) {s : State} {a : Addr} {img : List Byte}

theorem run_locked (h : s.dfu.flash.Idle true) (es : List Event) :
    (run (step c) s es).dfu.flash.Idle true :=
  run_invariant (fun s e => locked_step c s e) h es

theorem run_putBlock (h : Placed c a img) (hl : s.dfu.flash.Idle true) {w : Addressing × ℕ}
    (hw : w.2 < blockCount dfuTransferSize img) :
    (run (step c) s (putBlock a img w)).dfu.flash.mem =
        Nor.overwrite (BlockPages c a img w.2) (imageByte a img) (wiped c s.dfu.flash) ∧
      wiped c (run (step c) s (putBlock a img w)).dfu.flash =
        (run (step c) s (putBlock a img w)).dfu.flash.mem := by
  obtain ⟨hlt, hbase, hlen, -⟩ := h.block hw
  have h4 : dfuTransferSize = 4096 := rfl
  have heven := h.even
  have hfits := h.fits
  have hal := h.aligned
  have hstart := h.start
  let t := run (step c) s (setAddr (w.1.pointer a w.2))
  have ht : t.dfu.flash.Idle true := run_locked c hl _
  obtain ⟨haddr, hmem, herased⟩ := run_setAddr c hl (w.1.pointer a w.2)
  obtain ⟨hadr, hne⟩ := h.blockAddress hw w.1
  have hadr' : blockAddress t.dfu.prog.addr (w.1.blocknum w.2) = blockBase a w.2 := by
    rw [haddr]
    exact hadr
  have hwiped : wiped c t.dfu.flash = wiped c s.dfu.flash := by
    rw [wiped, wiped, hmem, herased]
  have haligned : (blockBase a w.2).toNat % c.getFlashPageSize = 0 := by
    rw [hbase]
    rcases c.pageSize_cases with hp | hp <;> rw [hp] at hal ⊢ <;> omega
  have h0 : 0 < (block dfuTransferSize img w.2).length := by omega
  obtain ⟨hm, he⟩ := run_block c ht hne h0 (by omega) (by omega) hadr' haligned (by omega)
    (by omega)
  rw [putBlock, run_append]
  refine ⟨?_, he⟩
  rw [hm, hwiped]
  exact Nor.overwrite_congr (fun _ => Iff.rfl) fun x hx => h.blockByte hw hx

/-- After any number of blocks, their pages hold the image and the rest is as it was. -/
theorem run_putBlocks (h : Placed c a img) (hl : s.dfu.flash.Idle true)
    {ws : List (Addressing × ℕ)} (hws : ∀ w ∈ ws, w.2 < blockCount dfuTransferSize img) :
    wiped c (run (step c) s (download a img ws)).dfu.flash =
        Nor.overwrite (fun x => ∃ w ∈ ws, BlockPages c a img w.2 x) (imageByte a img)
          (wiped c s.dfu.flash) ∧
      (ws ≠ [] → wiped c (run (step c) s (download a img ws)).dfu.flash =
        (run (step c) s (download a img ws)).dfu.flash.mem) := by
  rw [← Nor.foldl_overwrite (fun w : Addressing × ℕ => BlockPages c a img w.2)]
  induction ws using List.reverseRecOn with
  | nil => exact ⟨rfl, fun hne => absurd rfl hne⟩
  | append_singleton ws w ih =>
    obtain ⟨hw, hlast⟩ := ih fun w hw => hws w (List.mem_append_left _ hw)
    have hrun : run (step c) s (download a img (ws ++ [w])) =
        run (step c) (run (step c) s (download a img ws)) (putBlock a img w) := by
      rw [download, List.flatMap_append, run_append]
      simp [download]
    obtain ⟨hm, he⟩ := run_putBlock c h (run_locked c hl (download a img ws))
      (hws w (List.mem_append_right _ (List.mem_singleton_self w)))
    rw [hrun]
    refine ⟨?_, fun _ => he⟩
    rw [he, hm, hw, List.foldl_append]
    rfl

end Run

theorem Placed.pages_iff {c : Device} {a : Addr} {img : List Byte} (h : Placed c a img)
    (x : Addr) :
    Touched c a (a + BitVec.ofNat 32 img.length) x ↔
      InSpan a img.length x ∨ SamePage c (a + BitVec.ofNat 32 (img.length - 1)) x := by
  have hend := endAddr_lt c
  have hfits := h.fits
  have hal := h.aligned
  have hne := h.nonempty
  have hsum : (a + BitVec.ofNat 32 img.length).toNat = a.toNat + img.length := by
    rw [BitVec.toNat_add, BitVec.toNat_ofNat]
    omega
  have hlast : (a + BitVec.ofNat 32 (img.length - 1)).toNat = a.toNat + (img.length - 1) := by
    rw [BitVec.toNat_add, BitVec.toNat_ofNat]
    omega
  rw [inSpan_iff (by omega)]
  simp only [Touched, SamePage, hsum, hlast]
  rcases c.pageSize_cases with hp | hp <;> rw [hp] at hal ⊢ <;> omega

theorem Schedule.ne_nil {img : List Byte} (ws : Schedule img) (h : 0 < img.length) :
    ws.writes ≠ [] := by
  obtain ⟨m, hm⟩ := ws.complete 0 ((lt_blockCount_iff dfuTransferSize_pos img 0).mpr h)
  exact List.ne_nil_of_mem hm

theorem stored_image {c : Device} {s : State} {a : Addr} {img : List Byte} (hs : Reachable c s)
    (h : Placed c a img) (ws : Schedule img) :
    Holds c a img (wiped c s.dfu.flash)
      (run (step c) s (download a img ws.writes)).dfu.flash.mem := by
  obtain ⟨hw, hlast⟩ := run_putBlocks c h hs.locked ws.isBlock
  have hne := ws.ne_nil h.nonempty
  have hmem : (run (step c) s (download a img ws.writes)).dfu.flash.mem =
      Nor.overwrite (Touched c a (a + BitVec.ofNat 32 img.length)) (imageByte a img)
        (wiped c s.dfu.flash) := by
    rw [← hlast hne, hw]
    exact Nor.overwrite_congr (h.touched_iff ws.isBlock ws.complete) fun _ _ => rfl
  have hend := endAddr_lt c
  have hfits := h.fits
  rw [hmem]
  refine ⟨?_, ?_, ?_⟩
  · intro i hi
    have hoff : (a + BitVec.ofNat 32 i - a).toNat = i := by
      rw [BitVec.add_comm, BitVec.add_sub_cancel, BitVec.toNat_ofNat]
      omega
    have hspan : InSpan a img.length (a + BitVec.ofNat 32 i) := by
      rw [InSpan, hoff]
      exact hi
    rw [Nor.overwrite_of_mem ((h.pages_iff _).mpr (.inl hspan)), imageByte, hoff,
      List.getD_eq_getElem _ _ hi]
  · intro x hx hpage
    have hoff : img.length ≤ (x - a).toNat := by
      have hxl := x.isLt
      rw [BitVec.toNat_sub]
      omega
    rw [Nor.overwrite_of_mem ((h.pages_iff x).mpr (.inr hpage)), imageByte,
      List.getD_eq_default _ _ hoff]
    rfl
  · intro x hspan hpage
    exact Nor.overwrite_of_not fun hx => ((h.pages_iff x).mp hx).elim hspan hpage

/-- From every reachable state, a complete download leaves the image in flash, the rest of its
last page erased, and every other byte as it was (as the wipe left it, in safe-write builds). -/
theorem image_downloaded {c : Device} {s : State} {a : Addr} {img : List Byte}
    (hs : Reachable c s) (h : Placed c a img) (ws : Schedule img) :
    let t := run (step c) s (download a img ws.writes)
    Holds c a img (wiped c s.dfu.flash) t.dfu.flash.mem ∧
      (c.enableSafewrite = false → Holds c a img s.dfu.flash.mem t.dfu.flash.mem) := by
  intro t
  have hholds : Holds c a img (wiped c s.dfu.flash) t.dfu.flash.mem := stored_image hs h ws
  refine ⟨hholds, fun hsafe => ?_⟩
  rwa [wiped_of_disabled c hsafe] at hholds

/-- An image that ends in its third block. -/
@[irreducible] def threeBlocks : List Byte :=
  List.replicate 4096 0xAB#8 ++ (List.replicate 4096 0xCD#8 ++ [0xEF#8, 0x01#8])

theorem length_threeBlocks : threeBlocks.length = 8194 := by
  rw [threeBlocks, List.length_append, List.length_append, List.length_replicate,
    List.length_replicate]
  rfl

theorem blockCount_threeBlocks : blockCount dfuTransferSize threeBlocks = 3 := by
  rw [blockCount, length_threeBlocks]
  rfl

/-- The blocks out of order and one of them twice, in both ways of addressing. -/
def Schedule.shuffled : Schedule threeBlocks where
  writes := [(.byPointer, 2), (.byNumber, 1), (.byPointer, 0), (.byNumber, 2)]
  isBlock := by
    rw [blockCount_threeBlocks]
    decide
  complete := by
    rw [blockCount_threeBlocks]
    intro i hi
    interval_cases i
    · exact ⟨.byPointer, by decide⟩
    · exact ⟨.byNumber, by decide⟩
    · exact ⟨.byPointer, by decide⟩

theorem placed_threeBlocks (c : Device) (h : 64 ≤ c.flashSize)
    (hp : startAddr.toNat % c.getFlashPageSize = 0) : Placed c startAddr threeBlocks := by
  have hlen := length_threeBlocks
  have hend := endAddr_toNat c
  refine ⟨hp, Nat.le_refl _, ?_, by rw [hlen], by rw [hlen]; decide⟩
  rw [hlen, hend, startAddr_toNat]
  omega

theorem image_downloaded_shuffled :
    let c := Device.stm64k
    let s := State.start (fun _ => 0#8) fun _ => 0#8
    let t := run (step c) s (download startAddr threeBlocks Schedule.shuffled.writes)
    Holds c startAddr threeBlocks (wiped c s.dfu.flash) t.dfu.flash.mem ∧
      (c.enableSafewrite = false →
        Holds c startAddr threeBlocks s.dfu.flash.mem t.dfu.flash.mem) := by
  intro c s t
  have hs : Reachable c s := ⟨fun _ => 0#8, fun _ => 0#8, [], rfl⟩
  have h : Placed c startAddr threeBlocks := placed_threeBlocks c (by decide) (by decide)
  exact image_downloaded hs h Schedule.shuffled

end Swindle
