import Swindle.Dfu.Execute

/-! The flash of the boot loader itself. No operation changes it, not even one that leaves the
application area because the sum in the address check wraps. -/
namespace Swindle
open Machine

def InBootloader (x : Addr) : Prop :=
  flashBaseAddr.toNat ≤ x.toNat ∧ x.toNat < startAddr.toNat

section Operation

variable (c : Device) {f : Flash} {x : Addr}

theorem startAddr_page : startAddr.toNat / c.getFlashPageSize * c.getFlashPageSize =
    startAddr.toNat := by
  have hal := startAddr_aligned c
  have hdiv := Nat.div_add_mod' startAddr.toNat c.getFlashPageSize
  omega

theorem page_le_of_ge {q : Addr} (hq : startAddr.toNat ≤ q.toNat)
    (h : q.toNat / c.getFlashPageSize ≤ x.toNat / c.getFlashPageSize) :
    startAddr.toNat ≤ x.toNat := by
  have hpage := Nat.mul_le_mul_right c.getFlashPageSize
    ((Nat.div_le_div_right (c := c.getFlashPageSize) hq).trans h)
  rw [startAddr_page] at hpage
  exact hpage.trans (Nat.div_mul_le_self _ _)

theorem not_samePage {q : Addr} (hx : InBootloader x) (hq : startAddr.toNat ≤ q.toNat) :
    ¬SamePage c q x := by
  intro hsame
  have hge := page_le_of_ge c hq (Nat.le_of_eq hsame.symm)
  exact absurd hx.2 (Nat.not_lt.mpr hge)

theorem erasePage_kept {q : Addr} (h : f.Idle false) (hx : InBootloader x)
    (hq : startAddr.toNat ≤ q.toNat) : (flashErasePage c q f).mem x = f.mem x := by
  rw [Flash.erasePage_eq h]
  exact if_neg (not_samePage c hx hq)

theorem erasePages_kept {limit : Addr} (hl : limit.toNat ≤ 2 ^ 31) (fuel : ℕ) {page : Addr}
    (h : f.Idle false) (hx : InBootloader x) (hp : startAddr.toNat ≤ page.toNat) :
    (erasePages c limit fuel page f).mem x = f.mem x := by
  induction fuel generalizing page f with
  | zero => rfl
  | succ fuel ih =>
    rw [erasePages_succ]
    split
    · rename_i hlt
      have hnext := nextPage_toNat c hlt hl
      have hidle := (eraseUnlessBlank_cr c h page).1.trans h
      rw [ih hidle (by omega)]
      unfold eraseUnlessBlank
      split
      · rfl
      · exact erasePage_kept c h hx hp
    · rfl

theorem safewrite_kept (h : f.Idle false) (hx : InBootloader x) :
    (safewrite c f).mem x = f.mem x := by
  rw [safewrite_mem c h]
  unfold wiped
  split
  · refine if_neg fun ht : Touched c startAddr (endAddr c) x => ?_
    have hge := page_le_of_ge c (Nat.le_refl _) ht.1
    exact absurd hx.2 (Nat.not_lt.mpr hge)
  · rfl

/-- What both halves of the address check say, with or without a wrap. -/
theorem addressCheck_bounds {a n : Addr} (h : addressCheck c a n) :
    startAddr.toNat ≤ a.toNat ∧ (a + n).toNat ≤ 2 ^ 31 := by
  rw [addressCheck, Bool.and_eq_true, decide_eq_true_eq, decide_eq_true_eq] at h
  exact ⟨BitVec.le_def.mp h.1, (BitVec.le_def.mp h.2).trans (endAddr_lt c)⟩

theorem executeErase_kept (p : Prog) (h : f.Idle false) (hx : InBootloader x) :
    (executeErase c p f).mem x = f.mem x := by
  have hsafe := safewrite_kept c h hx
  unfold executeErase
  dsimp only
  split
  · rename_i hcheck
    split
    · exact hsafe
    · rw [erasePage_kept c (safewrite_idle c h) hx (addressCheck_bounds c hcheck).1]
      exact hsafe
  · exact hsafe

/-- A span that starts behind the boot loader and wraps ends long before it. -/
theorem not_inSpan {a : Addr} {n : ℕ} (hx : InBootloader x) (ha : startAddr.toNat ≤ a.toNat)
    (hn : n ≤ 65535) : ¬InSpan a n x := by
  obtain ⟨hlo, hhi⟩ := hx
  have hbase : flashBaseAddr.toNat = 0x08000000 := rfl
  have hlt := a.isLt
  rw [InSpan, BitVec.toNat_sub]
  omega

theorem executeBlock_kept (p : Prog) (h : f.Idle false) (hx : InBootloader x) :
    (executeBlock c p f).mem x = f.mem x := by
  have hsafe := safewrite_kept c h hx
  by_cases hcheck : addressCheck c p.base p.length
  · obtain ⟨hlo, hhi⟩ := addressCheck_bounds c hcheck
    have hlen := p.len.isLt
    have herased : (p.erased c f).mem x = f.mem x := by
      rw [Prog.erased, erasePages_kept c hhi _ (safewrite_idle c h) hx hlo]
      exact hsafe
    rw [(executeBlock_programmed c p h hcheck).mem, ← herased]
    exact if_neg (not_inSpan hx hlo (by omega))
  · rw [executeBlock_refused c p (by simpa using hcheck)]
    exact hsafe

theorem flashAfter_kept (p : Prog) (h : f.Idle false) (hx : InBootloader x) :
    (p.flashAfter c f).mem x = f.mem x := by
  unfold Prog.flashAfter
  split
  · split
    · exact executeErase_kept c p h hx
    · rfl
  · exact executeBlock_kept c p h hx

end Operation

/-! Runs. -/

/-- The flash is locked and the boot loader's part of it is that of `mem`. -/
def Guarded (mem : Addr → Byte) (f : Flash) : Prop :=
  f.Idle true ∧ ∀ x, InBootloader x → f.mem x = mem x

theorem guarded_step {c : Device} {s : State} {mem : Addr → Byte} (e : Event)
    (h : Guarded mem s.dfu.flash) : Guarded mem (step c s e).dfu.flash := by
  refine ⟨locked_step c s e h.1, fun x hx => ?_⟩
  by_cases hexec : s.Executes e
  · have hidle : (flashUnlock s.dfu.newPoll.flash).Idle false := Flash.idle_unlock h.1
    have hunlock : (flashUnlock s.dfu.newPoll.flash).mem = s.dfu.flash.mem := rfl
    rw [flash_of_executes c h.1 hexec]
    change (s.dfu.prog.flashAfter c _).mem x = mem x
    rw [flashAfter_kept c _ hidle hx, hunlock]
    exact h.2 x hx
  · rw [flash_of_not_executes c hexec]
    exact h.2 x hx

theorem guarded_run {c : Device} {s : State} {mem : Addr → Byte} (h : Guarded mem s.dfu.flash)
    (es : List Event) : Guarded mem (run (step c) s es).dfu.flash := by
  have hstep : ∀ (s : State) (e : Event), Guarded mem s.dfu.flash →
      Guarded mem (step c s e).dfu.flash := fun _ e hs => guarded_step e hs
  exact run_invariant hstep h es

end Swindle
