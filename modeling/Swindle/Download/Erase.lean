import Swindle.Download.Sectors
import Swindle.Flash.Window

/-! CMD_ERASE at any address. Whether the page is erased is decided by the page size of bytes
from the address on, which is another window when the address is not aligned. -/
namespace Swindle
open Machine

/-- From `mem` to `mem'` the page of `a` has become blank, and nothing else has changed. -/
def PageErased (c : Device) (a : Addr) (mem mem' : Addr → Byte) : Prop :=
  ∀ x, mem' x = if SamePage c a x then BitVec.allOnes 8 else mem x

/-- The condition: if the window from `a` on is blank, so is the page, and there is nothing left
to wipe outside the page. -/
def EraseFits (c : Device) (a : Addr) (f : Flash) : Prop :=
  (Nor.Blank (InSpan a c.getFlashPageSize) (wiped c f) → Nor.Blank (SamePage c a) (wiped c f)) ∧
    ∀ x, ¬SamePage c a x → wiped c f x = f.mem x

section Erase

variable (c : Device) {s : State}

theorem run_erase_window (h : s.dfu.flash.Idle true) {a : Addr}
    (hcheck : addressCheck c a (BitVec.ofNat 32 dfuTransferSize)) :
    (run (step c) s (erasePage a)).dfu.flash.mem =
      if flashPageIsErased c (wiped c s.dfu.flash) a then wiped c s.dfu.flash
      else Nor.erase (SamePage c a) (wiped c s.dfu.flash) := by
  have hidle : (flashUnlock s.dfu.newPoll.flash).Idle false := Flash.idle_unlock h
  rw [run_erase_round c h, if_pos hcheck, eraseUnlessBlank_window c (safewrite_idle c hidle),
    safewrite_mem c hidle]
  rfl

/-- An accepted ERASE does what its name says exactly if the condition holds. -/
theorem erase_postcondition_iff (hs : Reachable c s) {a : Addr}
    (hcheck : addressCheck c a (BitVec.ofNat 32 dfuTransferSize)) :
    PageErased c a s.dfu.flash.mem (run (step c) s (erasePage a)).dfu.flash.mem ↔
      EraseFits c a s.dfu.flash := by
  unfold PageErased EraseFits
  rw [run_erase_window c hs.locked hcheck, ← pageIsErased_iff]
  by_cases hb : flashPageIsErased c (wiped c s.dfu.flash) a
  · rw [if_pos hb]
    constructor
    · intro h
      constructor
      · intro _ x hx
        rw [h x, if_pos hx]
      · intro x hx
        rw [h x, if_neg hx]
    · rintro ⟨hpage, hrest⟩ x
      by_cases hx : SamePage c a x
      · rw [if_pos hx, hpage hb x hx]
      · rw [if_neg hx, hrest x hx]
  · rw [if_neg hb]
    constructor
    · intro h
      constructor
      · intro hb'
        exact absurd hb' hb
      · intro x hx
        have hx' := h x
        rwa [Nor.erase, if_neg hx, if_neg hx] at hx'
    · rintro ⟨-, hrest⟩ x
      unfold Nor.erase
      by_cases hx : SamePage c a x
      · rw [if_pos hx, if_pos hx]
      · rw [if_neg hx, if_neg hx, hrest x hx]

theorem erase_postcondition_iff_start :
    let s := State.start (fun _ => 0x55#8) fun _ => 0#8
    addressCheck Device.stm64k 0x08002804#32 (BitVec.ofNat 32 dfuTransferSize) ∧
      (PageErased Device.stm64k 0x08002804#32 s.dfu.flash.mem
          (run (step Device.stm64k) s (erasePage 0x08002804#32)).dfu.flash.mem ↔
        EraseFits Device.stm64k 0x08002804#32 s.dfu.flash) := by
  intro s
  have hs : Reachable Device.stm64k s := ⟨_, _, [], rfl⟩
  exact ⟨by decide, erase_postcondition_iff Device.stm64k hs (by decide)⟩

end Erase

/-- A page whose first byte alone is not blank is not erased by an ERASE of its second word. -/
theorem first_byte_not_erased :
    let c := Device.stm64k
    let mem : Addr → Byte := fun x => if x = 0x08002800#32 then 0x55#8 else 0xFF#8
    let s := State.start mem fun _ => 0#8
    addressCheck c 0x08002804#32 (BitVec.ofNat 32 dfuTransferSize) ∧
      NoWrap 0x08002804#32 dfuTransferSize ∧
      ¬PageErased c 0x08002804#32 mem
        (run (step c) s (erasePage 0x08002804#32)).dfu.flash.mem := by
  dsimp only
  refine ⟨by decide, by decide, fun h => ?_⟩
  have herased := (h 0x08002800#32).trans (if_pos (by decide))
  exact absurd herased (by decide +kernel)

end Swindle
