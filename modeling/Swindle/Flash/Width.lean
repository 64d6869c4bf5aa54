import Swindle.Flash.Program

/-! The word-wide programming of GD32 parts against the half-word one: the same cells with the
same values, in half as many stores. -/
namespace Swindle
open Machine

structure Flash.SameCells (f g : Flash) : Prop where
  mem : f.mem = g.mem
  cr : f.cr = g.cr
  ar : f.ar = g.ar
  erased : f.erased = g.erased

namespace Flash.SameCells

variable {f g : Flash}

theorem refl (f : Flash) : f.SameCells f := ⟨.refl _, .refl _, .refl _, .refl _⟩

theorem trans {h : Flash} (h₁ : f.SameCells g) (h₂ : g.SameCells h) : f.SameCells h :=
  ⟨h₁.mem.trans h₂.mem, h₁.cr.trans h₂.cr, h₁.ar.trans h₂.ar, h₁.erased.trans h₂.erased⟩

theorem writeCr (h : f.SameCells g) (c : Device) (v : FlashCr) :
    (f.writeCr c v).SameCells (g.writeCr c v) := by
  unfold Flash.writeCr
  rw [h.cr]
  split
  · exact h
  · split
    · exact ⟨by rw [h.ar, h.mem], .refl _, h.ar, h.erased⟩
    · exact ⟨h.mem, .refl _, h.ar, h.erased⟩

theorem store (h : f.SameCells g) (a : Addr) (n : ℕ) (v : ℕ → Byte) :
    (f.store a n v).SameCells (g.store a n v) := by
  unfold Flash.store
  rw [h.cr]
  split
  · exact ⟨by rw [h.mem], .refl _, h.ar, h.erased⟩
  · exact h

end Flash.SameCells

theorem store_word (f : Flash) (a : Addr) (data : ℕ → Byte) (i : ℕ) :
    (f.store a 4 (leByte (load32 data i))).SameCells
      ((f.store a 2 (leByte (load16 data i))).store (a + 2#32) 2
        (leByte (load16 data (i + 2)))) := by
  have hbytes : ∀ j, ∀ k < 2, leByte (load16 data (i + j)) k = (fun x => data (i + x)) (j + k) :=
    fun j k hk => by rw [leByte_load16 data (i + j) hk, Nat.add_assoc]
  have hmem : Nor.program (InSpan a 4) (fun x => leByte (load32 data i) (x - a).toNat) f.mem =
      Nor.program (InSpan (a + 2#32) 2)
        (fun x => leByte (load16 data (i + 2)) (x - (a + 2#32)).toNat)
        (Nor.program (InSpan a 2) (fun x => leByte (load16 data i) (x - a).toNat) f.mem) := by
    have hlow : Nor.program (InSpan a 2) (fun x => leByte (load16 data i) (x - a).toNat) f.mem =
        Nor.program (InSpan a 2) (fun x => data (i + (x - a).toNat)) f.mem :=
      Nor.program_congr (fun _ => .rfl) fun x hx => leByte_load16 data i hx
    have hword : Nor.program (InSpan a 4) (fun x => leByte (load32 data i) (x - a).toNat) f.mem =
        Nor.program (InSpan a (2 + 2)) (fun x => data (i + (x - a).toNat)) f.mem :=
      Nor.program_congr (fun _ => .rfl) fun x hx => leByte_load32 data i hx
    rw [hlow, hword]
    exact (program_extend a (fun x => data (i + x)) (by decide) (hbytes 2) f.mem).symm
  unfold Flash.store
  by_cases hpg : f.cr.pg && !f.cr.lock
  · simp only [if_pos hpg]
    exact ⟨hmem, rfl, rfl, rfl⟩
  · simp only [if_neg hpg]
    exact .refl f

theorem programBuffer32_sameCells (a : Addr) (data : ℕ → Byte) (n : ℕ) {f g : Flash}
    (h : f.SameCells g) :
    (flashProgramBuffer32 a data n f).SameCells (flashProgramBuffer16 a data (2 * n) g) := by
  induction n with
  | zero => exact h
  | succ n ih =>
    have hnext : a + BitVec.ofNat 32 (2 * (2 * n + 1)) = a + BitVec.ofNat 32 (4 * n) + 2#32 := by
      rw [BitVec.add_assoc, ← BitVec.ofNat_add]
      congr 2
      omega
    have hfirst : 2 * (2 * n) = 4 * n := by omega
    have hsecond : 2 * (2 * n + 1) = 4 * n + 2 := by omega
    unfold flashProgramBuffer32 flashProgramBuffer16 at ih ⊢
    rw [show 2 * (n + 1) = 2 * n + 1 + 1 by omega, List.range_succ, List.range_succ,
      List.range_succ, List.foldl_append, List.foldl_append, List.foldl_append]
    simp only [List.foldl_cons, List.foldl_nil]
    rw [hnext, hsecond, hfirst]
    exact (store_word _ _ data (4 * n)).trans (((ih.store _ _ _)).store _ _ _)

/-- Both routines leave the same flash and the same control register, whatever they find and
whatever the alignment of address and length. -/
theorem programBufferGd32_sameCells (c : Device) (f : Flash) (address : Addr) (data : ℕ → Byte)
    (len : BitVec 32) :
    (flashProgramBufferGd32 c address data len.toNat f).SameCells
      (flashProgramBuffer c address data len.toNat f) := by
  unfold flashProgramBufferGd32
  split
  · exact .refl _
  · rename_i haligned
    have hlen : len.toNat / 2 = 2 * (len.toNat / 4) := by omega
    unfold flashProgramBuffer
    dsimp only
    rw [hlen]
    have hloop := programBuffer32_sameCells address data (len.toNat / 4)
      (Flash.SameCells.refl (f.writeCr c { f.cr with pg := true }))
    rw [hloop.cr]
    exact hloop.writeCr c _

end Swindle
