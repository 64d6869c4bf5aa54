import Swindle.Dfu.Range
import Swindle.Dfu.Wipe
import Swindle.Stage1

/-! An update that is cut off. In a safe-write build the first operation takes the old application
away, and nothing is taken for an application again until a block has brought its first word. -/
namespace Swindle
open Machine

/-- The first word of the application area. -/
abbrev Header : Addr → Prop := InSpan startAddr 4

/-- A data block that covers some of it. -/
def Prog.BringsHeader (p : Prog) : Prop :=
  p.blocknum ≠ 0#16 ∧ ∃ j < 4, InSpan p.base p.len.toNat (startAddr + BitVec.ofNat 32 j)

instance : DecidablePred Prog.BringsHeader := fun _ => inferInstanceAs (Decidable (_ ∧ _))

theorem header_iff {x : Addr} : Header x ↔ ∃ j < 4, x = startAddr + BitVec.ofNat 32 j := by
  constructor
  · intro h
    refine ⟨(x - startAddr).toNat, h, ?_⟩
    rw [BitVec.ofNat_toNat, BitVec.setWidth_eq, BitVec.add_comm, BitVec.sub_add_cancel]
  · rintro ⟨j, hj, rfl⟩
    rw [Header, InSpan, BitVec.add_comm, BitVec.add_sub_cancel, BitVec.toNat_ofNat]
    omega

section Operation

variable {c : Device} {p : Prog} {f : Flash}

/-- Once the flash has been wiped, the header is blank. -/
def Flash.Bare (f : Flash) : Prop := f.erased → Nor.Blank Header f.mem

theorem blank_erase_of_blank {S T : Addr → Prop} [DecidablePred S] {m : Addr → Byte}
    (h : Nor.Blank T m) : Nor.Blank T (Nor.erase S m) := by
  intro x hx
  unfold Nor.erase
  split
  · rfl
  · exact h x hx

theorem bare_safewrite (hs : c.enableSafewrite) (hroom : startAddr.toNat + 4 ≤ (endAddr c).toNat)
    (h : f.Idle false) (hb : f.Bare) : Nor.Blank Header (safewrite c f).mem := by
  rw [safewrite_mem c h]
  cases he : f.erased with
  | true =>
    rw [wiped_of_erased c fun _ => he]
    exact hb he
  | false =>
    have hwipe : wiped c f = Nor.erase (Touched c startAddr (endAddr c)) f.mem := by
      simp [wiped, hs, he]
    rw [hwipe]
    apply Nor.blank_erase
    intro x hx
    apply touched_of_inApp
    have h4 : startAddr.toNat = 0x08002000 := rfl
    obtain ⟨hlo, hhi⟩ := (inSpan_iff (by omega)).mp hx
    exact ⟨hlo, by omega⟩

theorem erasePages_blank {S : Addr → Prop} (limit : Addr) (fuel : ℕ) (page : Addr)
    (h : f.Idle false) (hb : Nor.Blank S f.mem) :
    Nor.Blank S (erasePages c limit fuel page f).mem := by
  induction fuel generalizing page f with
  | zero => exact hb
  | succ fuel ih =>
    rw [erasePages_succ]
    split
    · refine ih _ ((eraseUnlessBlank_cr c h page).1.trans h) ?_
      unfold eraseUnlessBlank
      split
      · exact hb
      · rw [Flash.erasePage_eq h]
        exact blank_erase_of_blank hb
    · exact hb

theorem executeErase_blank (h : f.Idle false) (hb : Nor.Blank Header (safewrite c f).mem) :
    Nor.Blank Header (executeErase c p f).mem := by
  unfold executeErase
  dsimp only
  split
  · split
    · exact hb
    · rw [Flash.erasePage_eq (safewrite_idle c h)]
      exact blank_erase_of_blank hb
  · exact hb

theorem executeBlock_blank (h : f.Idle false) (hb : Nor.Blank Header (safewrite c f).mem)
    (hn : ∀ j < 4, ¬InSpan p.base p.len.toNat (startAddr + BitVec.ofNat 32 j)) :
    Nor.Blank Header (executeBlock c p f).mem := by
  by_cases hcheck : addressCheck c p.base p.length
  · have herased : Nor.Blank Header (p.erased c f).mem :=
      erasePages_blank _ _ _ (safewrite_idle c h) hb
    intro x hx
    obtain ⟨j, hj, rfl⟩ := header_iff.mp hx
    rw [(executeBlock_programmed c p h hcheck).mem, ← herased _ hx]
    refine if_neg fun hin => hn j hj ?_
    unfold InSpan at hin ⊢
    omega
  · rw [executeBlock_refused c p (by simpa using hcheck)]
    exact hb

theorem flashAfter_bare (hs : c.enableSafewrite)
    (hroom : startAddr.toNat + 4 ≤ (endAddr c).toNat) (h : f.Idle false) (hb : f.Bare)
    (hn : ¬p.BringsHeader) : (p.flashAfter c f).Bare := by
  have hsafe := bare_safewrite hs hroom h hb
  by_cases hop : p.operates
  · intro _
    unfold Prog.flashAfter
    split
    · rename_i hblock
      have herase : p.buf 0 = cmdErase := by simpa [Prog.operates, hblock] using hop
      rw [if_pos herase]
      exact executeErase_blank h hsafe
    · rename_i hblock
      refine executeBlock_blank h hsafe fun j hj hin => ?_
      exact hn ⟨hblock, j, hj, hin⟩
  · rw [flashAfter_of_not_operates c _ hop]
    exact hb

end Operation

/-! Runs. -/

/-- The flash is locked, and bare if it has been wiped. -/
def Cut (f : Flash) : Prop := f.Idle true ∧ f.Bare

section Run

variable {c : Device} {s : State} {e : Event}

theorem cut_step (hs : c.enableSafewrite) (hroom : startAddr.toNat + 4 ≤ (endAddr c).toNat)
    (h : Cut s.dfu.flash) (hn : s.Executes e → ¬s.dfu.prog.BringsHeader) :
    Cut (step c s e).dfu.flash := by
  refine ⟨locked_step c s e h.1, ?_⟩
  by_cases hexec : s.Executes e
  · have hidle : (flashUnlock s.dfu.newPoll.flash).Idle false := Flash.idle_unlock h.1
    rw [flash_of_executes c h.1 hexec]
    exact flashAfter_bare hs hroom hidle h.2 (hn hexec)
  · rw [flash_of_not_executes c hexec]
    exact h.2

theorem not_stackInRam {mem : Addr → Byte} (h : Nor.Blank Header mem) : ¬StackInRam mem := by
  have hword : read32 mem startAddr = 0xffffffff#32 := by
    rw [read32, load32_eq_allOnes]
    intro j hj
    rw [Nat.zero_add]
    exact h _ (header_iff.mpr ⟨j, hj, rfl⟩)
  unfold StackInRam
  rw [hword]
  decide

end Run

/-- A safe-write update that is cut off anywhere after its first operation, with no block yet that
covers the first word of the application, leaves a board that comes up in stage 2, whatever the
marker and the pin say. -/
theorem cut_update_reenters (crc : CrcUnit) {c : Device} (hs : c.enableSafewrite)
    (hroom : startAddr.toNat + 4 ≤ (endAddr c).toNat) {mem : Addr → Byte} {ram : ℕ → Byte}
    {es : List Event} (hexec : Meets (step c) State.Operates (State.start mem ram) es)
    (hhead : Along (step c) (fun s e => s.Executes e → ¬s.dfu.prog.BringsHeader)
      (State.start mem ram) es) (r : ResetState) :
    (main crc (run (step c) (State.start mem ram) es).dfu.flash.mem r).chainTo = ramStartAddr := by
  have hlock : (State.start mem ram).dfu.flash.Idle true := rfl
  have hcut : Cut (run (step c) (State.start mem ram) es).dfu.flash := by
    have hstep : ∀ (s : State) (e : Event), Cut s.dfu.flash →
        (s.Executes e → ¬s.dfu.prog.BringsHeader) → Cut (step c s e).dfu.flash :=
      fun _ _ h hn => cut_step hs hroom h hn
    exact run_of_along hstep ⟨hlock, fun he => Bool.noConfusion he⟩ hhead
  have herased : (run (step c) (State.start mem ram) es).dfu.flash.erased = true := by
    have hset : ∀ (s : State) (e : Event), s.dfu.flash.Idle true → s.Operates e →
        (step c s e).dfu.flash.erased = true := fun _ _ hl ho => erased_step c hs hl (.inr ho)
    have hkeep : ∀ (s : State) (e : Event), s.dfu.flash.Idle true → s.dfu.flash.erased = true →
        (step c s e).dfu.flash.erased = true := fun _ _ hl he => erased_step c hs hl (.inl he)
    exact run_of_meets (fun s e h => locked_step c s e h) hset hkeep hlock hexec
  exact (main_of_skipped crc _ r (.inr (not_stackInRam (hcut.2 herased)))).2

/-- An ERASE of a page outside the area, and nothing else: stage 1 does not go back. -/
theorem cut_update_reenters_refused :
    (main .crc32 (run (step Device.both12k)
        (State.start (appFilled Device.both12k 0x20#8) fun _ => 0#8)
        (operation 0#16 [0x41#8, 0x00#8, 0x00#8, 0x00#8, 0x00#8])).dfu.flash.mem
      ⟨0#64, true⟩).chainTo = ramStartAddr := by
  have hexec : Meets (step Device.both12k) State.Operates
      (State.start (appFilled Device.both12k 0x20#8) fun _ => 0#8)
      (operation 0#16 [0x41#8, 0x00#8, 0x00#8, 0x00#8, 0x00#8]) := by
    decide +kernel
  have hhead : Along (step Device.both12k) (fun s e => s.Executes e → ¬s.dfu.prog.BringsHeader)
      (State.start (appFilled Device.both12k 0x20#8) fun _ => 0#8)
      (operation 0#16 [0x41#8, 0x00#8, 0x00#8, 0x00#8, 0x00#8]) := by
    decide +kernel
  exact cut_update_reenters .crc32 rfl (by decide) hexec hhead _

end Swindle
